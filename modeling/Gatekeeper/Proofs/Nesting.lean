import Gatekeeper.Expression.Bracket
import Gatekeeper.Proofs.Layout
import Mathlib.Data.List.Infix

/-!
# Nested brackets

What it means that brackets balance and that a semicolon separates, said by counting brackets, and
that the two scanners find just that: the closing bracket of a list and the pieces of its content.
A scanner carries the number of brackets that are open before the text it still has to read, so every
statement is made for any such number.
-/
namespace Gatekeeper.Bracket

/-- Behind `opened` open brackets, a text closes these and all of its own, and no other. -/
structure Closes (opened : Nat) (text : List Char) : Prop where
  total : text.count ']' = opened + text.count '['
  never : ∀ front, front <+: text → front.count ']' ≤ opened + front.count '['

/-- Behind `opened` open brackets, a text has semicolons within brackets only. -/
def Covers (opened : Nat) (text : List Char) : Prop :=
  ∀ front back, text = front ++ ';' :: back → front.count ']' < opened + front.count '['

def IsBalanced (text : List Char) : Prop :=
  Closes 0 text

/-- A text between two separators: it is balanced and has no separator itself. -/
def IsPiece (text : List Char) : Prop :=
  IsBalanced text ∧ Covers 0 text

theorem closes_nil_iff (opened : Nat) : Closes opened [] ↔ opened = 0 := by
  constructor
  · intro h
    have := h.total
    simp only [List.count_nil] at this
    omega
  · rintro rfl
    exact ⟨rfl, fun front h => by simp [List.prefix_nil.1 h]⟩

theorem count_cons_eq (c d : Char) (text : List Char) :
    (c :: text).count d = [c].count d + text.count d :=
  show ([c] ++ text).count d = _ from List.count_append

/-- How a text that starts with `c` closes what is open, when `c` changes the number of open brackets
from `opened` to `opened'`. -/
theorem closes_cons_iff {c : Char} {opened opened' : Nat} (text : List Char)
    (h : opened' + [c].count ']' = opened + [c].count '[') :
    Closes opened (c :: text) ↔ Closes opened' text := by
  constructor
  · intro hc
    constructor
    · have := hc.total
      rw [count_cons_eq c ']' text, count_cons_eq c '[' text] at this
      omega
    · intro front hf
      have := hc.never (c :: front) (List.cons_prefix_cons.2 ⟨rfl, hf⟩)
      rw [count_cons_eq c ']' front, count_cons_eq c '[' front] at this
      omega
  · intro hc
    constructor
    · have := hc.total
      rw [count_cons_eq c ']' text, count_cons_eq c '[' text]
      omega
    · intro front hf
      cases front with
      | nil => simp
      | cons d front =>
        obtain ⟨rfl, hf'⟩ := List.cons_prefix_cons.1 hf
        have := hc.never front hf'
        rw [count_cons_eq d ']' front, count_cons_eq d '[' front]
        omega

theorem covers_cons_iff {c : Char} {opened : Nat} (opened' : Nat) (text : List Char)
    (h : opened' + [c].count ']' = opened + [c].count '[') :
    Covers opened (c :: text) ↔ (c = ';' → 0 < opened) ∧ Covers opened' text := by
  constructor
  · intro hc
    constructor
    · rintro rfl
      simpa using hc [] text rfl
    · rintro front back rfl
      have := hc (c :: front) back rfl
      rw [count_cons_eq c ']' front, count_cons_eq c '[' front] at this
      omega
  · rintro ⟨hs, hc⟩ front back he
    cases front with
    | nil =>
      obtain ⟨rfl, -⟩ := List.cons.inj he
      simpa using hs rfl
    | cons d front =>
      obtain ⟨rfl, rfl⟩ := List.cons.inj he
      have := hc front back rfl
      rw [count_cons_eq c ']' front, count_cons_eq c '[' front]
      omega

theorem not_closes_zero_closing (text : List Char) : ¬Closes 0 (']' :: text) := by
  intro h
  simpa using h.never [']'] (List.cons_prefix_cons.2 ⟨rfl, List.nil_prefix⟩)

@[simp] theorem closes_opening_iff (opened : Nat) (text : List Char) :
    Closes opened ('[' :: text) ↔ Closes (opened + 1) text :=
  closes_cons_iff text (by simp)

@[simp] theorem closes_closing_iff (opened : Nat) (text : List Char) :
    Closes (opened + 1) (']' :: text) ↔ Closes opened text :=
  closes_cons_iff text (by simp)

theorem closes_other_iff {c : Char} (h : c ≠ '[') (h' : c ≠ ']') (opened : Nat)
    (text : List Char) : Closes opened (c :: text) ↔ Closes opened text :=
  closes_cons_iff text (by simp [h, h'])

@[simp] theorem covers_nil (opened : Nat) : Covers opened [] := by
  intro front back h
  simp at h

@[simp] theorem covers_opening_iff (opened : Nat) (text : List Char) :
    Covers opened ('[' :: text) ↔ Covers (opened + 1) text := by
  rw [covers_cons_iff (opened + 1) text (by simp)]
  simp

@[simp] theorem covers_closing_iff (opened : Nat) (text : List Char) :
    Covers (opened + 1) (']' :: text) ↔ Covers opened text := by
  rw [covers_cons_iff opened text (by simp)]
  simp

theorem covers_other_iff {c : Char} (h : c ≠ '[') (h' : c ≠ ']') (opened : Nat)
    (text : List Char) : Covers opened (c :: text) ↔ (c = ';' → 0 < opened) ∧ Covers opened text :=
  covers_cons_iff opened text (by simp [h, h'])

/-- Induction on a text together with the number of brackets that are open before it. -/
theorem nesting_induction {motive : Nat → List Char → Prop} (nil : ∀ opened, motive opened [])
    (opening : ∀ opened text, motive (opened + 1) text → motive opened ('[' :: text))
    (unmatched : ∀ text, motive 0 (']' :: text))
    (closing : ∀ opened text, motive opened text → motive (opened + 1) (']' :: text))
    (other : ∀ opened c text, c ≠ '[' → c ≠ ']' → motive opened text → motive opened (c :: text)) :
    ∀ opened text, motive opened text := by
  intro opened text
  induction text generalizing opened with
  | nil => exact nil opened
  | cons c text ih =>
    by_cases ho : c = '['
    · exact ho ▸ opening opened text (ih (opened + 1))
    by_cases hs : c = ']'
    · subst hs
      cases opened with
      | zero => exact unmatched text
      | succ opened => exact closing opened text (ih opened)
    exact other opened c text ho hs (ih opened)

/-- Whether brackets close and cover does not depend on the layout. -/
theorem closes_covers_ink_iff (opened : Nat) (text : List Char) :
    Closes opened (Text.ink text) ∧ Covers opened (Text.ink text) ↔
      Closes opened text ∧ Covers opened text := by
  induction opened, text using nesting_induction with
  | nil opened => rfl
  | opening opened text ih =>
    rw [Text.ink_cons (by decide)]
    simpa using ih
  | unmatched text =>
    rw [Text.ink_cons (by decide)]
    simp only [not_closes_zero_closing, false_and]
  | closing opened text ih =>
    rw [Text.ink_cons (by decide)]
    simpa using ih
  | other opened c text ho hs ih =>
    rw [closes_other_iff ho hs, covers_other_iff ho hs]
    cases hc : Text.isBlank c with
    | true =>
      have hn : c ≠ ';' := by rintro rfl; revert hc; decide
      rw [Text.ink_cons_blank hc, ih]
      simp [hn]
    | false =>
      rw [Text.ink_cons hc, closes_other_iff ho hs, covers_other_iff ho hs, and_left_comm, ih,
        and_left_comm]

theorem isPiece_ink_iff (text : List Char) : IsPiece (Text.ink text) ↔ IsPiece text :=
  closes_covers_ink_iff 0 text

theorem closes_append {opened opened' : Nat} {front back : List Char} (h : Closes opened front)
    (h' : Closes opened' back) : Closes (opened + opened') (front ++ back) := by
  induction opened, front using nesting_induction with
  | nil opened =>
    rw [(closes_nil_iff opened).1 h, Nat.zero_add]
    exact h'
  | opening opened text ih =>
    rw [List.cons_append, closes_opening_iff, Nat.add_right_comm]
    exact ih ((closes_opening_iff opened text).1 h)
  | unmatched text => exact absurd h (not_closes_zero_closing text)
  | closing opened text ih =>
    rw [List.cons_append, Nat.add_right_comm, closes_closing_iff]
    exact ih ((closes_closing_iff opened text).1 h)
  | other opened c text ho hs ih =>
    rw [List.cons_append, closes_other_iff ho hs]
    exact ih ((closes_other_iff ho hs opened text).1 h)

theorem covers_append {opened opened' : Nat} {front back : List Char} (h : Closes opened front)
    (hc : Covers (opened + opened') front) (hc' : Covers opened' back) :
    Covers (opened + opened') (front ++ back) := by
  induction opened, front using nesting_induction with
  | nil opened =>
    rw [(closes_nil_iff opened).1 h, Nat.zero_add]
    exact hc'
  | opening opened text ih =>
    rw [covers_opening_iff, Nat.add_right_comm] at hc
    rw [List.cons_append, covers_opening_iff, Nat.add_right_comm]
    exact ih ((closes_opening_iff opened text).1 h) hc
  | unmatched text => exact absurd h (not_closes_zero_closing text)
  | closing opened text ih =>
    rw [Nat.add_right_comm, covers_closing_iff] at hc
    rw [List.cons_append, Nat.add_right_comm, covers_closing_iff]
    exact ih ((closes_closing_iff opened text).1 h) hc
  | other opened c text ho hs ih =>
    rw [covers_other_iff ho hs] at hc
    rw [List.cons_append, covers_other_iff ho hs]
    exact ⟨hc.1, ih ((closes_other_iff ho hs opened text).1 h) hc.2⟩

theorem Closes.covers_succ {opened : Nat} {text : List Char} (h : Closes opened text) :
    Covers (opened + 1) text := by
  rintro front back rfl
  have := h.never front (List.prefix_append ..)
  omega

theorem isPiece_append {front back : List Char} (h : IsPiece front) (h' : IsPiece back) :
    IsPiece (front ++ back) :=
  ⟨closes_append h.1 h'.1, covers_append h.1 h.2 h'.2⟩

theorem isPiece_nil : IsPiece [] :=
  ⟨(closes_nil_iff 0).2 rfl, covers_nil 0⟩

/-- Within brackets every balanced content is a piece. -/
theorem isPiece_brackets {content : List Char} (h : IsBalanced content) :
    IsPiece ('[' :: content ++ [']']) := by
  have closing : Closes 1 [']'] := (closes_closing_iff 0 []).2 isPiece_nil.1
  have covers : Covers 1 [']'] := (covers_closing_iff 0 []).2 isPiece_nil.2
  constructor
  · rw [IsBalanced, List.cons_append, closes_opening_iff]
    exact closes_append h closing
  · rw [List.cons_append, covers_opening_iff]
    exact covers_append h h.covers_succ covers

theorem isPiece_of_plain {text : List Char} (h : ∀ c ∈ text, c ≠ '[' ∧ c ≠ ']' ∧ c ≠ ';') :
    IsPiece text := by
  induction text with
  | nil => exact isPiece_nil
  | cons c text ih =>
    obtain ⟨⟨ho, hs, hn⟩, ht⟩ := List.forall_mem_cons.1 h
    obtain ⟨hb, hc⟩ := ih ht
    exact ⟨(closes_other_iff ho hs 0 text).2 hb,
      (covers_other_iff ho hs 0 text).2 ⟨fun he => absurd he hn, hc⟩⟩

/-- The same for a text that is known. -/
theorem isPiece_of_all {text : List Char}
    (h : text.all (fun c => c != '[' && c != ']' && c != ';') = true) : IsPiece text := by
  refine isPiece_of_plain fun c hc => ?_
  simpa [and_assoc] using List.all_eq_true.1 h c hc

theorem isInfix_intercalate {separator : List Char} {pieces : List (List Char)} {piece : List Char}
    (h : piece ∈ pieces) : piece <:+: separator.intercalate pieces := by
  induction pieces with
  | nil => cases h
  | cons first pieces ih =>
    cases pieces with
    | nil =>
      obtain rfl := List.mem_singleton.1 h
      rw [List.intercalate_singleton]
    | cons next pieces =>
      rw [List.intercalate_cons_cons]
      rcases List.mem_cons.1 h with rfl | h
      · exact ((List.prefix_append _ _).trans (List.prefix_append _ _)).isInfix
      · exact (ih h).trans (List.suffix_append _ _).isInfix

/-- Pieces with semicolons between them make a balanced content. -/
theorem isBalanced_intercalate {pieces : List (List Char)} (h : ∀ p ∈ pieces, IsPiece p) :
    IsBalanced ([';'].intercalate pieces) := by
  induction pieces with
  | nil => exact isPiece_nil.1
  | cons piece pieces ih =>
    obtain ⟨hp, ht⟩ := List.forall_mem_cons.1 h
    cases pieces with
    | nil => simpa using hp.1
    | cons next pieces =>
      have separator : Closes 0 [';'] := (closes_other_iff (by decide) (by decide) 0 []).2 isPiece_nil.1
      rw [List.intercalate_cons_cons]
      exact closes_append (closes_append hp.1 separator) (ih ht)

/-- Where a scan that goes on behind `c` stops. -/
theorem stops_cons_iff {c : Char} {opened : Nat} (text : List Char) (n : Nat)
    (h : c = ']' → opened ≠ 0) :
    (∃ front back, c :: text = front ++ ']' :: back ∧ front.length = n ∧ Closes opened front) ↔
      ∃ m, (∃ front back, text = front ++ ']' :: back ∧ front.length = m ∧
        Closes opened (c :: front)) ∧ m + 1 = n := by
  constructor
  · rintro ⟨front, back, he, hn, hc⟩
    cases front with
    | nil =>
      obtain ⟨rfl, -⟩ := List.cons.inj he
      exact absurd ((closes_nil_iff opened).1 hc) (h rfl)
    | cons d front =>
      obtain ⟨rfl, rfl⟩ := List.cons.inj he
      exact ⟨front.length, ⟨front, back, rfl, rfl, hc⟩, hn⟩
  · rintro ⟨m, ⟨front, back, rfl, rfl, hc⟩, rfl⟩
    exact ⟨c :: front, back, rfl, rfl, hc⟩

/-- The scanner stops at the bracket behind which nothing is open any more. -/
theorem closingFrom_eq_some_iff (opened n : Nat) (text : List Char) :
    closingFrom (opened + 1) text = some n ↔
      ∃ front back, text = front ++ ']' :: back ∧ front.length = n ∧ Closes opened front := by
  induction opened, text using nesting_induction generalizing n with
  | nil opened => simp [closingFrom]
  | opening opened text ih =>
    have step : closingFrom (opened + 1) ('[' :: text) =
        (closingFrom ((opened + 1 : Nat) + 1) text).map (· + 1) := by simp [closingFrom]
    rw [step, Option.map_eq_some_iff, stops_cons_iff text n (by simp)]
    simp only [ih, closes_opening_iff]
  | unmatched text =>
    have step : closingFrom ((0 : Nat) + 1) (']' :: text) = some 0 := by simp [closingFrom]
    rw [step, Option.some_inj]
    constructor
    · rintro rfl
      exact ⟨[], text, rfl, rfl, (closes_nil_iff 0).2 rfl⟩
    · rintro ⟨front, back, he, rfl, hc⟩
      cases front with
      | nil => rfl
      | cons d front =>
        obtain ⟨rfl, -⟩ := List.cons.inj he
        exact absurd hc (not_closes_zero_closing front)
  | closing opened text ih =>
    have step : closingFrom ((opened + 1 : Nat) + 1) (']' :: text) =
        (closingFrom (opened + 1) text).map (· + 1) := by
      simp [closingFrom]
      omega
    rw [step, Option.map_eq_some_iff, stops_cons_iff text n (by simp)]
    simp only [ih, closes_closing_iff]
  | other opened c text ho hs ih =>
    have step : closingFrom (opened + 1) (c :: text) =
        (closingFrom (opened + 1) text).map (· + 1) := by simp [closingFrom, ho, hs]
    rw [step, Option.map_eq_some_iff, stops_cons_iff text n (by simp [hs])]
    simp only [ih, closes_other_iff ho hs]

/-- What stands in front of the bracket that closes a list is balanced. -/
theorem isBalanced_of_closingFrom {inside : List Char} {n : Nat}
    (h : closingFrom 1 inside = some n) : IsBalanced (inside.take n) := by
  obtain ⟨content, back, rfl, rfl, balanced⟩ := (closingFrom_eq_some_iff 0 n inside).1 h
  rwa [List.take_left]

/-- There is always a first piece. -/
theorem piecesFrom_ne_nil (opened : Nat) (content : List Char) :
    piecesFrom opened content ≠ .ok [] := by
  have map_ne_nil (r : Except Imbalance (List (List Char)))
      (f : List (List Char) → List (List Char)) (hf : ∀ pieces, f pieces ≠ []) :
      r.map f ≠ .ok [] := by
    cases r <;> simp [Except.map, hf]
  have prepend_ne_nil (c : Char) (pieces : List (List Char)) : prepend c pieces ≠ [] := by
    cases pieces <;> simp [prepend]
  fun_cases piecesFrom opened content <;> first
    | exact map_ne_nil _ _ (prepend_ne_nil _)
    | exact map_ne_nil _ _ (by simp)
    | simp

theorem map_prepend_eq_ok_iff (c : Char) (opened : Nat) (content piece : List Char)
    (pieces : List (List Char)) :
    (piecesFrom opened content).map (prepend c) = .ok (piece :: pieces) ↔
      ∃ rest, piece = c :: rest ∧ piecesFrom opened content = .ok (rest :: pieces) := by
  match h : piecesFrom opened content with
  | .error _ => simp [Except.map]
  | .ok [] => exact absurd h (piecesFrom_ne_nil opened content)
  | .ok (first :: others) =>
    simp only [Except.map, prepend, Except.ok.injEq, List.cons.injEq]
    constructor
    · rintro ⟨rfl, rfl⟩
      exact ⟨first, rfl, rfl, rfl⟩
    · rintro ⟨rest, rfl, rfl, rfl⟩
      exact ⟨rfl, rfl⟩

theorem map_separator_eq_ok_iff (content piece : List Char) (pieces : List (List Char)) :
    (piecesFrom 0 content).map ([] :: ·) = .ok (piece :: pieces) ↔
      piece = [] ∧ ∃ next rest, pieces = next :: rest ∧
        piecesFrom 0 content = .ok (next :: rest) := by
  match h : piecesFrom 0 content with
  | .error _ => simp [Except.map]
  | .ok [] => exact absurd h (piecesFrom_ne_nil 0 content)
  | .ok (first :: others) =>
    simp only [Except.map, Except.ok.injEq, List.cons.injEq]
    constructor
    · rintro ⟨rfl, rfl⟩
      exact ⟨rfl, first, others, rfl, rfl, rfl⟩
    · rintro ⟨rfl, next, rest, rfl, rfl, rfl⟩
      exact ⟨rfl, rfl⟩

/-- How a content that starts with `c` is cut, when `c` is no separator. -/
theorem joined_cons_iff {c : Char} {opened : Nat} (content piece : List Char)
    (pieces : List (List Char)) (h : c = ';' → opened ≠ 0) :
    (c :: content = [';'].intercalate (piece :: pieces) ∧ Closes opened piece ∧
        Covers opened piece ∧ ∀ p ∈ pieces, IsPiece p) ↔
      ∃ rest, piece = c :: rest ∧ content = [';'].intercalate (rest :: pieces) ∧
        Closes opened (c :: rest) ∧ Covers opened (c :: rest) ∧ ∀ p ∈ pieces, IsPiece p := by
  constructor
  · rintro ⟨he, hc, hs, hp⟩
    cases piece with
    | nil =>
      have ho := (closes_nil_iff opened).1 hc
      cases pieces with
      | nil => simp at he
      | cons next pieces =>
        rw [List.intercalate_cons_cons, List.nil_append] at he
        exact absurd ho (h (List.cons.inj he).1)
    | cons d rest =>
      rw [List.intercalate_cons_cons_left] at he
      obtain ⟨rfl, rfl⟩ := List.cons.inj he
      exact ⟨rest, rfl, rfl, hc, hs, hp⟩
  · rintro ⟨rest, rfl, rfl, hc, hs, hp⟩
    exact ⟨List.intercalate_cons_cons_left.symm, hc, hs, hp⟩

theorem piecesFrom_opening (opened : Nat) (text : List Char) :
    piecesFrom opened ('[' :: text) = (piecesFrom (opened + 1) text).map (prepend '[') := by
  cases opened <;> simp [piecesFrom]

theorem piecesFrom_other {c : Char} (ho : c ≠ '[') (hs : c ≠ ']') (opened : Nat)
    (h : c = ';' → opened ≠ 0) (text : List Char) :
    piecesFrom opened (c :: text) = (piecesFrom opened text).map (prepend c) := by
  cases opened with
  | zero => simp [piecesFrom, ho, hs, show c ≠ ';' from fun hc => h hc rfl]
  | succ opened => simp [piecesFrom, ho, hs]

theorem exists_map_eq_ok_iff {α β ε : Type} (f : α → β) (r : Except ε α) :
    (∃ b, r.map f = .ok b) ↔ ∃ a, r = .ok a := by
  cases r <;> simp [Except.map]

/-- A content is cut into pieces if its brackets close what is open before it, and only then. -/
theorem exists_piecesFrom_iff (opened : Nat) (content : List Char) :
    (∃ pieces, piecesFrom opened content = .ok pieces) ↔ Closes opened content := by
  induction opened, content using nesting_induction with
  | nil opened => cases opened <;> simp [piecesFrom, closes_nil_iff]
  | opening opened text ih =>
    rw [piecesFrom_opening, exists_map_eq_ok_iff, ih, closes_opening_iff]
  | unmatched text => simp [piecesFrom, not_closes_zero_closing]
  | closing opened text ih =>
    have step : piecesFrom (opened + 1) (']' :: text) =
        (piecesFrom opened text).map (prepend ']') := by simp [piecesFrom]
    rw [step, exists_map_eq_ok_iff, ih, closes_closing_iff]
  | other opened c text ho hs ih =>
    rw [closes_other_iff ho hs]
    by_cases h : c = ';' → opened ≠ 0
    · rw [piecesFrom_other ho hs opened h, exists_map_eq_ok_iff, ih]
    · obtain ⟨rfl, rfl⟩ : c = ';' ∧ opened = 0 := by simpa using h
      have step : piecesFrom 0 (';' :: text) = (piecesFrom 0 text).map ([] :: ·) := by
        simp [piecesFrom]
      rw [step, exists_map_eq_ok_iff, ih]

theorem exists_split_iff (content : List Char) :
    (∃ pieces, split content = .ok pieces) ↔ IsBalanced content := by
  rw [split, exists_map_eq_ok_iff, exists_piecesFrom_iff, IsBalanced]

/-- A content that starts with a separator has an empty first piece. -/
theorem separator_cons_iff (content piece : List Char) (pieces : List (List Char)) :
    (';' :: content = [';'].intercalate (piece :: pieces) ∧ Closes 0 piece ∧
        Covers 0 piece ∧ ∀ p ∈ pieces, IsPiece p) ↔
      piece = [] ∧ ∃ next rest, pieces = next :: rest ∧
        content = [';'].intercalate (next :: rest) ∧ Closes 0 next ∧ Covers 0 next ∧
        ∀ p ∈ rest, IsPiece p := by
  constructor
  · rintro ⟨he, hc, hs, hp⟩
    cases piece with
    | cons d piece =>
      rw [List.intercalate_cons_cons_left] at he
      obtain ⟨rfl, -⟩ := List.cons.inj he
      simpa using hs [] piece rfl
    | nil =>
      cases pieces with
      | nil => simp at he
      | cons next rest =>
        rw [List.intercalate_cons_cons, List.nil_append] at he
        have hn := hp next (List.mem_cons_self ..)
        exact ⟨rfl, next, rest, rfl, (List.cons.inj he).2, hn.1, hn.2,
          fun p h => hp p (List.mem_cons_of_mem _ h)⟩
  · rintro ⟨rfl, next, rest, rfl, rfl, hc, hs, hp⟩
    refine ⟨by simp, (closes_nil_iff 0).2 rfl, covers_nil 0, ?_⟩
    intro p h
    rcases List.mem_cons.1 h with rfl | h
    · exact ⟨hc, hs⟩
    · exact hp p h

/-- The splitter gives the one way to write a content as pieces with semicolons between them. -/
theorem piecesFrom_eq_ok_iff (opened : Nat) (content piece : List Char)
    (pieces : List (List Char)) :
    piecesFrom opened content = .ok (piece :: pieces) ↔
      content = [';'].intercalate (piece :: pieces) ∧ Closes opened piece ∧
        Covers opened piece ∧ ∀ p ∈ pieces, IsPiece p := by
  induction opened, content using nesting_induction generalizing piece pieces with
  | nil opened =>
    cases opened with
    | zero =>
      simp only [piecesFrom, Except.ok.injEq, List.cons.injEq]
      constructor
      · rintro ⟨rfl, rfl⟩
        exact ⟨rfl, (closes_nil_iff 0).2 rfl, covers_nil 0, by simp⟩
      · rintro ⟨he, -⟩
        cases pieces <;> simp_all
    | succ opened =>
      simp only [piecesFrom, reduceCtorEq, false_iff]
      rintro ⟨he, hc, -⟩
      have hn : piece = [] := by cases pieces <;> simp_all
      rw [hn, closes_nil_iff] at hc
      omega
  | opening opened text ih =>
    rw [piecesFrom_opening, map_prepend_eq_ok_iff,
      joined_cons_iff (c := '[') text piece pieces (by simp)]
    simp only [ih, closes_opening_iff, covers_opening_iff]
  | unmatched text =>
    rw [joined_cons_iff (c := ']') text piece pieces (by simp)]
    simp [piecesFrom, not_closes_zero_closing]
  | closing opened text ih =>
    have step : piecesFrom (opened + 1) (']' :: text) =
        (piecesFrom opened text).map (prepend ']') := by simp [piecesFrom]
    rw [step, map_prepend_eq_ok_iff, joined_cons_iff (c := ']') text piece pieces (by simp)]
    simp only [ih, closes_closing_iff, covers_closing_iff]
  | other opened c text ho hs ih =>
    by_cases h : c = ';' → opened ≠ 0
    · rw [piecesFrom_other ho hs opened h, map_prepend_eq_ok_iff, joined_cons_iff text piece pieces h]
      have cover (rest : List Char) : Covers opened (c :: rest) ↔ Covers opened rest := by
        rw [covers_other_iff ho hs, and_iff_right fun hc => Nat.pos_of_ne_zero (h hc)]
      simp only [ih, closes_other_iff ho hs, cover]
    · obtain ⟨rfl, rfl⟩ : c = ';' ∧ opened = 0 := by simpa using h
      have step : piecesFrom 0 (';' :: text) = (piecesFrom 0 text).map ([] :: ·) := by
        simp [piecesFrom]
      rw [step, map_separator_eq_ok_iff, separator_cons_iff]
      simp only [ih]

theorem piecesFrom_intercalate {pieces : List (List Char)} (hne : pieces ≠ [])
    (h : ∀ p ∈ pieces, IsPiece p) : piecesFrom 0 ([';'].intercalate pieces) = .ok pieces := by
  obtain ⟨piece, rest, rfl⟩ := List.exists_cons_of_ne_nil hne
  obtain ⟨hp, hr⟩ := List.forall_mem_cons.1 h
  exact (piecesFrom_eq_ok_iff 0 _ piece rest).2 ⟨rfl, hp.1, hp.2, hr⟩

/-- A content is a list of pieces in one way only. -/
theorem intercalate_inj {pieces pieces' : List (List Char)} (hne : pieces ≠ []) (hne' : pieces' ≠ [])
    (h : ∀ p ∈ pieces, IsPiece p) (h' : ∀ p ∈ pieces', IsPiece p)
    (he : [';'].intercalate pieces = [';'].intercalate pieces') : pieces = pieces' := by
  have := piecesFrom_intercalate hne h
  rw [he, piecesFrom_intercalate hne' h'] at this
  exact (Except.ok.inj this).symm

/-- The pieces of a list that is written with a space behind each semicolon. -/
def spaced : List (List Char) → List (List Char)
  | [] => []
  | piece :: pieces => piece :: pieces.map (' ' :: ·)

theorem intercalate_spaced (pieces : List (List Char)) :
    [';', ' '].intercalate pieces = [';'].intercalate (spaced pieces) := by
  cases pieces with
  | nil => rfl
  | cons piece pieces =>
    induction pieces generalizing piece with
    | nil => rfl
    | cons next pieces ih =>
      rw [List.intercalate_cons_cons, ih, spaced, spaced, List.map_cons,
        List.intercalate_cons_cons, List.intercalate_cons_cons_left]
      simp

theorem spaced_inj {pieces pieces' : List (List Char)} (h : spaced pieces = spaced pieces') :
    pieces = pieces' := by
  cases pieces with
  | nil =>
    cases pieces' with
    | nil => rfl
    | cons => cases h
  | cons piece pieces =>
    cases pieces' with
    | nil => cases h
    | cons piece' pieces' =>
      obtain ⟨rfl, hr⟩ := List.cons.inj h
      rw [List.map_injective_iff.2 (List.cons_injective (a := ' ')) hr]

theorem spaced_ne_nil {pieces : List (List Char)} (h : pieces ≠ []) : spaced pieces ≠ [] := by
  obtain ⟨piece, rest, rfl⟩ := List.exists_cons_of_ne_nil h
  exact List.cons_ne_nil _ _

theorem isPiece_spaced {pieces : List (List Char)} (h : ∀ p ∈ pieces, IsPiece p) :
    ∀ p ∈ spaced pieces, IsPiece p := by
  cases pieces with
  | nil => exact h
  | cons piece pieces =>
    obtain ⟨hp, hr⟩ := List.forall_mem_cons.1 h
    have space : IsPiece [' '] := isPiece_of_plain (by simp)
    exact List.forall_mem_cons.2
      ⟨hp, List.forall_mem_map.2 fun p hm => isPiece_append space (hr p hm)⟩

end Gatekeeper.Bracket

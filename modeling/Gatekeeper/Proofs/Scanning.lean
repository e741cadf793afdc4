import Gatekeeper.Proofs.Nesting
import Mathlib.Data.Nat.Find
import Mathlib.Order.Bounds.Basic

/-!
# Scanning brackets

Where the bracket of a list closes and how its content is cut, said without a scanner. The closing
bracket stands at the first place up to which as many brackets close as open, and what lies between
the two is balanced. So the content of a list can always be cut, and it is a list of pieces in one way
only.
-/
namespace Gatekeeper.Bracket

/-- From the place `start` up to the place `i` as many brackets close as open. -/
def IsEven (text : List Char) (start i : Nat) : Prop :=
  start ≤ i ∧ i < text.length ∧
    (text.extract start (i + 1)).count ']' = (text.extract start (i + 1)).count '['

/-- Behind an opening bracket, the next `k` characters close just this one and all of their own. -/
def ClosesOne (inside : List Char) (k : Nat) : Prop :=
  k ≤ inside.length ∧ (inside.take k).count ']' = 1 + (inside.take k).count '['

theorem count_take_succ {text : List Char} {k : Nat} (h : k < text.length) (c : Char) :
    (text.take (k + 1)).count c = (text.take k).count c + [text[k]].count c := by
  rw [← List.take_concat_get' text k h, List.count_append]

theorem eq_take_of_prefix {text front : List Char} {n : Nat} (h : front <+: text.take n) :
    front = text.take front.length ∧ front.length ≤ n :=
  ⟨List.prefix_iff_eq_take.1 (h.trans (List.take_prefix n text)),
    h.length_le.trans (List.length_take_le n text)⟩

/-- The count of open brackets falls by one at most with each character, so it has been zero before it
is below. -/
theorem count_take_le {inside : List Char} {n : Nat} (h : ∀ k ≤ n, ¬ClosesOne inside k) :
    ∀ k ≤ n, (inside.take k).count ']' ≤ (inside.take k).count '[' := by
  intro k hk
  induction k with
  | zero => simp
  | succ k ih =>
    have before := ih (Nat.le_of_succ_le hk)
    by_cases hl : k < inside.length
    · have apart := h (k + 1) hk
      have one : [inside[k]].count ']' ≤ 1 := List.count_le_length
      rw [ClosesOne, and_iff_right (Nat.succ_le_of_lt hl), count_take_succ hl, count_take_succ hl]
        at apart
      rw [count_take_succ hl, count_take_succ hl]
      omega
    · rw [List.take_of_length_le (Nat.le_of_not_lt hl)] at before
      rwa [List.take_of_length_le (by omega)]

theorem exists_closing_of_isLeast {inside : List Char} {n : Nat}
    (h : IsLeast {k | ClosesOne inside k} (n + 1)) :
    ∃ front back, inside = front ++ ']' :: back ∧ front.length = n ∧ Closes 0 front := by
  obtain ⟨⟨hn, total⟩, least⟩ := h
  have hl : n < inside.length := hn
  have apart : ∀ k ≤ n, ¬ClosesOne inside k := by
    intro k hk hc
    have := least hc
    omega
  have never := count_take_le apart
  have last := never n (Nat.le_refl n)
  rw [count_take_succ hl, count_take_succ hl] at total
  have hc : inside[n] = ']' := by
    by_contra hne
    have none : [inside[n]].count ']' = 0 := List.count_eq_zero.2 (by simpa [eq_comm] using hne)
    omega
  have one : [inside[n]].count ']' = 1 ∧ [inside[n]].count '[' = 0 := by
    rw [hc]
    decide
  refine ⟨inside.take n, inside.drop (n + 1), ?_, List.length_take_of_le hl.le, by omega, ?_⟩
  · rw [← hc, ← List.drop_eq_getElem_cons hl, List.take_append_drop]
  · intro front hf
    obtain ⟨taken, length⟩ := eq_take_of_prefix hf
    rw [taken, Nat.zero_add]
    exact never _ length

theorem isLeast_of_closes {front back : List Char} (h : Closes 0 front) :
    IsLeast {k | ClosesOne (front ++ ']' :: back) k} (front.length + 1) := by
  constructor
  · have total := h.total
    refine ⟨by simp, ?_⟩
    rw [List.take_length_add_append]
    simp [total, Nat.add_comm]
  · intro k hk
    by_contra hlt
    have within : k ≤ front.length := by omega
    have never := h.never (front.take k) (List.take_prefix k front)
    have total := hk.2
    rw [List.take_append_of_le_length within] at total
    omega

/-- The first place where just the bracket in front is closed is that of its closing bracket. -/
theorem isLeast_closesOne_iff (inside : List Char) (n : Nat) :
    IsLeast {k | ClosesOne inside k} (n + 1) ↔ closingFrom 1 inside = some n := by
  rw [show (1 : Int) = (0 : Nat) + 1 from rfl, closingFrom_eq_some_iff]
  constructor
  · exact exists_closing_of_isLeast
  · rintro ⟨front, back, rfl, rfl, hc⟩
    exact isLeast_of_closes hc

section

variable {text : List Char} {start : Nat} (h : text[start]? = some '[')

include h

theorem drop_eq_opening_cons : text.drop start = '[' :: text.drop (start + 1) := by
  obtain ⟨hlt, hc⟩ := List.getElem?_eq_some_iff.1 h
  rw [List.drop_eq_getElem_cons hlt, hc]

theorem extract_opening (k : Nat) :
    text.extract start (start + k + 1) = '[' :: (text.drop (start + 1)).take k := by
  rw [List.extract_eq_take_drop, drop_eq_opening_cons h, Nat.add_assoc, Nat.add_sub_cancel_left,
    List.take_succ_cons]

theorem isEven_iff (i : Nat) :
    IsEven text start i ↔ ∃ k, start + k = i ∧ ClosesOne (text.drop (start + 1)) k := by
  obtain ⟨hlt, -⟩ := List.getElem?_eq_some_iff.1 h
  constructor
  · rintro ⟨hs, hi, he⟩
    obtain ⟨k, rfl⟩ := Nat.exists_eq_add_of_le hs
    rw [extract_opening h, List.count_cons, List.count_cons] at he
    refine ⟨k, rfl, ?_, ?_⟩
    · rw [List.length_drop]
      omega
    · simpa [Nat.add_comm] using he
  · rintro ⟨k, rfl, hk, he⟩
    rw [List.length_drop] at hk
    refine ⟨Nat.le_add_right start k, by omega, ?_⟩
    rw [extract_opening h, List.count_cons, List.count_cons, he]
    simp [Nat.add_comm]

theorem closing?_opening :
    closing? text start = (closingFrom 1 (text.drop (start + 1))).map (start + 1 + ·) := by
  have step : closingFrom 0 ('[' :: text.drop (start + 1)) =
      (closingFrom 1 (text.drop (start + 1))).map (· + 1) := rfl
  rw [closing?, drop_eq_opening_cons h, step, Option.map_map]
  congr 1
  funext n
  exact (Nat.add_right_comm start 1 n).symm

theorem isLeast_isEven_iff (i : Nat) : IsLeast {i | IsEven text start i} i ↔
    ∃ n, start + 1 + n = i ∧ IsLeast {k | ClosesOne (text.drop (start + 1)) k} (n + 1) := by
  constructor
  · rintro ⟨hi, least⟩
    obtain ⟨k, rfl, hk⟩ := (isEven_iff h i).1 hi
    cases k with
    | zero => simp [ClosesOne] at hk
    | succ n =>
      refine ⟨n, Nat.add_right_comm start 1 n, hk, fun k hk' => ?_⟩
      exact Nat.add_le_add_iff_left.1 (least ((isEven_iff h _).2 ⟨k, rfl, hk'⟩))
  · rintro ⟨n, rfl, hn, least⟩
    refine ⟨(isEven_iff h _).2 ⟨n + 1, by omega, hn⟩, fun j hj => ?_⟩
    obtain ⟨k, rfl, hk⟩ := (isEven_iff h j).1 hj
    have := least hk
    omega

/-- The scanner stops at the first place up to which brackets are even. -/
theorem closing?_eq_some_iff (i : Nat) :
    closing? text start = some i ↔ IsLeast {i | IsEven text start i} i := by
  rw [closing?_opening h, Option.map_eq_some_iff, isLeast_isEven_iff h]
  exact exists_congr fun n => by rw [isLeast_closesOne_iff, and_comm]

theorem closing?_eq_none_iff : closing? text start = none ↔ ∀ i, ¬IsEven text start i := by
  constructor
  · intro hn i hi
    classical
    have stops := (closing?_eq_some_iff h _).2
      ⟨Nat.find_spec ⟨i, hi⟩, fun j hj => Nat.find_min' ⟨i, hi⟩ hj⟩
    rw [hn] at stops
    cases stops
  · intro hn
    by_contra hs
    obtain ⟨i, hi⟩ := Option.ne_none_iff_exists'.1 hs
    exact hn i ((closing?_eq_some_iff h i).1 hi).1

/-- What stands between a bracket and the one that closes it is balanced. -/
theorem isBalanced_between {i : Nat} (hi : closing? text start = some i) :
    IsBalanced (text.extract (start + 1) i) := by
  rw [closing?_opening h, Option.map_eq_some_iff] at hi
  obtain ⟨n, hn, rfl⟩ := hi
  rw [List.extract_eq_take_drop, Nat.add_sub_cancel_left]
  exact isBalanced_of_closingFrom hn

end

/-- The scanner that takes places from either end. -/
theorem closingAt?_natCast (text : List Char) (start : Nat) :
    closingAt? text start = .ok ((closing? text start).map Int.ofNat) :=
  if_pos (Int.natCast_nonneg start)

/-- A content that is not balanced cannot be cut. -/
theorem exists_split_error_iff (content : List Char) :
    (∃ imbalance, split content = .error imbalance) ↔ ¬IsBalanced content := by
  rw [← exists_split_iff]
  cases split content <;> simp

/-- However a content is written as pieces with semicolons between them, it is cut there. -/
theorem split_intercalate {pieces : List (List Char)} (hp : ∀ p ∈ pieces, IsPiece p) :
    split ([';'].intercalate pieces) = .ok ((pieces.map Text.trim).filter (!·.isEmpty)) := by
  cases pieces with
  | nil => rfl
  | cons piece pieces =>
    rw [split, piecesFrom_intercalate (List.cons_ne_nil piece pieces) hp]
    rfl

/-- The empty content is one empty piece; apart from it, no content is the empty list of pieces. -/
theorem existsUnique_pieces {content : List Char} (h : IsBalanced content) :
    ∃! pieces, pieces ≠ [] ∧ (∀ p ∈ pieces, IsPiece p) ∧ [';'].intercalate pieces = content := by
  obtain ⟨pieces, hp⟩ := (exists_piecesFrom_iff 0 content).2 h
  cases pieces with
  | nil => exact absurd hp (piecesFrom_ne_nil 0 content)
  | cons piece pieces =>
    obtain ⟨he, closes, covers, rest⟩ := (piecesFrom_eq_ok_iff 0 content piece pieces).1 hp
    have all : ∀ p ∈ piece :: pieces, IsPiece p := List.forall_mem_cons.2 ⟨⟨closes, covers⟩, rest⟩
    refine ⟨piece :: pieces, ⟨List.cons_ne_nil piece pieces, all, he.symm⟩, ?_⟩
    rintro others ⟨ne, hp', he'⟩
    exact intercalate_inj ne (List.cons_ne_nil piece pieces) hp' all (he'.trans he)

/-- The scanner finds the first place up to which brackets are even, if there is one, and what stands
before it is balanced; the splitter cuts balanced contents and no others, and into the pieces that the
content is made of in one way only. -/
theorem brackets_exact :
    (∀ (text : List Char) (start : Nat), text[start]? = some '[' →
      (∀ i : Nat, closingAt? text start = .ok (some (i : Int)) ↔
        IsLeast {i | IsEven text start i} i) ∧
      (closingAt? text start = .ok none ↔ ∀ i, ¬IsEven text start i) ∧
      ∀ i : Nat, closingAt? text start = .ok (some (i : Int)) →
        IsBalanced (text.extract (start + 1) i)) ∧
    ∀ content : List Char,
      ((∃ imbalance, split content = .error imbalance) ↔ ¬IsBalanced content) ∧
      (IsBalanced content →
        ∃! pieces, pieces ≠ [] ∧ (∀ p ∈ pieces, IsPiece p) ∧ [';'].intercalate pieces = content) ∧
      ∀ pieces, (∀ p ∈ pieces, IsPiece p) → [';'].intercalate pieces = content →
        split content = .ok ((pieces.map Text.trim).filter (!·.isEmpty)) := by
  constructor
  · intro text start h
    have found (i : Nat) : closingAt? text start = .ok (some (i : Int)) ↔
        closing? text start = some i := by
      rw [closingAt?_natCast, Except.ok.injEq, Option.map_eq_some_iff]
      constructor
      · rintro ⟨n, hn, he⟩
        rwa [← Int.ofNat.inj he]
      · exact fun hi => ⟨i, hi, rfl⟩
    have missed : closingAt? text start = .ok none ↔ closing? text start = none := by
      rw [closingAt?_natCast, Except.ok.injEq, Option.map_eq_none_iff]
    refine ⟨fun i => (found i).trans (closing?_eq_some_iff h i),
      missed.trans (closing?_eq_none_iff h), fun i hi => isBalanced_between h ((found i).1 hi)⟩
  · intro content
    refine ⟨exists_split_error_iff content, existsUnique_pieces, ?_⟩
    rintro pieces hp rfl
    exact split_intercalate hp

theorem brackets_exact_nested :
    "all [a; [b;c] ;] x".toList[4]? = some '[' ∧
      IsLeast {i | IsEven "all [a; [b;c] ;] x".toList 4 i} 15 ∧
      IsBalanced ("all [a; [b;c] ;] x".toList.extract 5 15) ∧
      split "a; [b;c] ;".toList = .ok ["a".toList, "[b;c]".toList] := by
  have opening : "all [a; [b;c] ;] x".toList[4]? = some '[' := by decide
  obtain ⟨found, -, between⟩ := brackets_exact.1 _ 4 opening
  have stops : closingAt? "all [a; [b;c] ;] x".toList 4 = .ok (some 15) := by decide
  have pieces : ∀ p ∈ ["a".toList, " [b;c] ".toList, []], IsPiece p := by
    have letter {c : Char} (h : (c != '[' && c != ']' && c != ';') = true) : IsPiece [c] :=
      isPiece_of_all (by simpa using h)
    have members : ∀ p ∈ ["b".toList, "c".toList], IsPiece p := by
      simpa using ⟨letter (c := 'b') rfl, letter (c := 'c') rfl⟩
    have group : IsPiece " [b;c] ".toList :=
      (isPiece_ink_iff _).1 (isPiece_brackets (isBalanced_intercalate members))
    simpa using ⟨letter (c := 'a') rfl, group, isPiece_nil⟩
  exact ⟨opening, (found 15).1 stops, between 15 stops,
    (brackets_exact.2 _).2.2 _ pieces (by decide)⟩

end Gatekeeper.Bracket

import Gatekeeper.Proofs.Numeral
import Gatekeeper.Proofs.Rounding
import Mathlib.Algebra.Order.Field.Rat
import Mathlib.Data.List.Lex
import Mathlib.Order.WithBot
import Mathlib.Tactic.Positivity

/-!
# Comparisons

The six comparisons of two texts are one order, seen six times. It is the order of the exact values if
both texts are numerals, infinity on its side of every number, and the order of the code points if one of
them is not. Which of the two it is does not hang on which text comes first. Only what is not a number has
no place in the order.
-/
namespace Gatekeeper

namespace Number.Double

/-! ## Exact values -/

/-- The exact value of a double. What is not a number has none. -/
def value? : Double → Option (WithBot (WithTop ℚ))
  | nan => none
  | infinity negative => some (if negative then ⊥ else ⊤)
  | finite negative units => some (((signed negative units : ℚ) / 2 ^ 1074 : ℚ) : WithTop ℚ)

/-- A finite double lies in front of the place of infinity. -/
def IsInRange (x : Double) : Prop :=
  ∀ negative units, x = finite negative units → units < overflow

theorem isInRange_finite (negative : Bool) {units : Nat} (h : units < overflow) :
    (finite negative units).IsInRange := by
  rintro _ _ ⟨⟩
  exact h

theorem isInRange_nan : nan.IsInRange := by
  rintro _ _ ⟨⟩

theorem isInRange_infinity (negative : Bool) : (infinity negative).IsInRange := by
  rintro _ _ ⟨⟩

theorem ofQuotient_cases (negative : Bool) (n d : Nat) :
    ofQuotient negative n d = infinity negative ∨
      ∃ units < overflow, ofQuotient negative n d = finite negative units := by
  rw [ofQuotient]
  by_cases large : overflow ≤ roundUnits (n * one) d
  · exact .inl (if_pos large)
  · exact .inr ⟨_, Nat.not_le.1 large, if_neg large⟩

/-- A decimal number is infinite as a double or in range. -/
theorem ofDecimal_cases (negative : Bool) (digits : Nat) (exponent : Int) :
    ofDecimal negative digits exponent = infinity negative ∨
      ∃ units < overflow, ofDecimal negative digits exponent = finite negative units := by
  rw [ofDecimal]
  split
  · exact .inr ⟨0, overflow_pos, rfl⟩
  split
  · exact .inl rfl
  split
  · exact .inr ⟨0, overflow_pos, rfl⟩
  · exact ofQuotient_cases negative _ _

/-- A finite double lies between the places of the infinities. -/
theorem IsInRange.place {negative : Bool} {units : Nat} (h : (finite negative units).IsInRange) :
    -(overflow : Int) < signed negative units ∧ signed negative units < overflow := by
  have below := h negative units rfl
  rw [signed]
  split <;> omega

/-- Doubles are in the order of their places. -/
theorem value_lt_iff {a b : Double} (ha : a.IsInRange) (hb : b.IsInRange) {p q : Int}
    (hp : a.position? = some p) (hq : b.position? = some q) {u v : WithBot (WithTop ℚ)}
    (hu : a.value? = some u) (hv : b.value? = some v) : u < v ↔ p < q := by
  have apart : -(overflow : Int) < overflow := by
    have far : (0 : Int) < overflow := Int.natCast_pos.2 overflow_pos
    omega
  cases a with
  | nan => cases hp
  | infinity negative =>
    cases hp
    cases hu
    cases b with
    | nan => cases hq
    | infinity negative' =>
      cases hq
      cases hv
      match negative, negative' with
      | false, false | true, true => exact iff_of_false (lt_irrefl _) (Int.lt_irrefl _)
      | false, true => exact iff_of_false not_lt_bot (Int.not_lt.2 (Int.le_of_lt apart))
      | true, false => exact iff_of_true bot_lt_top apart
    | finite negative' units =>
      have between := hb.place
      cases hq
      cases hv
      cases negative with
      | false => exact iff_of_false not_top_lt (Int.not_lt.2 (Int.le_of_lt between.2))
      | true => exact iff_of_true (WithBot.bot_lt_coe _) between.1
  | finite negative units =>
    cases hp
    cases hu
    have between := ha.place
    cases b with
    | nan => cases hq
    | infinity negative' =>
      cases hq
      cases hv
      cases negative' with
      | false => exact iff_of_true (WithBot.coe_lt_coe.2 (WithTop.coe_lt_top _)) between.2
      | true => exact iff_of_false not_lt_bot (Int.not_lt.2 (Int.le_of_lt between.1))
    | finite negative' units' =>
      cases hq
      cases hv
      have unit : (0 : ℚ) < 2 ^ 1074 := by positivity
      rw [WithBot.coe_lt_coe, WithTop.coe_lt_coe, div_lt_div_iff_of_pos_right unit, Int.cast_lt]

end Number.Double

namespace Number

open Text Numeral

/-! ## What is not a number -/

/-- A numeral, with or without a sign, that names what is not a number. -/
def IsNan (text : List Char) : Prop :=
  ∃ sign name, IsSign sign ∧ Spells "nan" name ∧ text = sign ++ name

theorem isNan_iff (text : List Char) : IsNan text ↔ Spells "nan" (takeSign text).2 := by
  constructor
  · rintro ⟨sign, name, hs, h, rfl⟩
    have body : Unsigned name := .named (by decide) h
    rwa [takeSign_append hs body.first]
  · intro h
    obtain ⟨sign, hs, he⟩ := exists_takeSign text
    exact ⟨sign, _, hs, h, he⟩

theorem named?_eq_nan_iff (negative : Bool) (text : List Char) :
    named? negative text = some .nan ↔ Spells "nan" text := by
  rw [named?, ← isWord_iff]
  split
  · next h => simp [h]
  · next h =>
    split
    · split <;> simp [h]
    · simp [h]

theorem ofText?_eq_nan_iff (text : List Char) : ofText? text = some .nan ↔ IsNan text := by
  rw [isNan_iff, ofText?]
  generalize takeSign text = taken
  obtain ⟨negative, body⟩ := taken
  dsimp only
  rw [← named?_eq_nan_iff negative]
  split
  · next h => simp [h]
  · next numeral _ h => rw [h]
  · next h =>
    rw [h]
    refine iff_of_false (fun hd => ?_) (by simp)
    obtain ⟨_, _, _, he⟩ := exists_of_decimal? hd
    cases he

/-- A number that a text denotes is in range, and none only if it is named so. -/
theorem number?_sound {text : String} {x : Double} (h : number? text = .ok (some x)) :
    x.IsInRange ∧ (x = .nan ↔ IsNan (trim text.toList)) := by
  rw [number?] at h
  split at h
  · cases h
  · next numeral hn =>
    rw [← ofText?_eq_nan_iff, hn, Option.some_inj]
    cases numeral with
    | nan =>
      cases h
      exact ⟨Double.isInRange_nan, by simp⟩
    | infinity negative =>
      cases h
      exact ⟨Double.isInRange_infinity negative, by simp⟩
    | decimal negative whole fraction exponent =>
      cases h
      rcases Double.ofDecimal_cases negative (digitsValue (whole ++ fraction))
        (exponent - fraction.length) with hx | ⟨units, fits, hx⟩
      · rw [hx]
        exact ⟨Double.isInRange_infinity negative, by simp⟩
      · rw [hx]
        exact ⟨Double.isInRange_finite negative fits, by simp⟩
    | unreadable text => cases h

end Number

namespace Operator

open Text Number

/-! ## Orders -/

/-- The relation that a symbol stands for. -/
def Relates {α : Type} [LT α] [LE α] : Operator → α → α → Prop
  | gt, a, b => b < a
  | ge, a, b => b ≤ a
  | lt, a, b => a < b
  | le, a, b => a ≤ b
  | eq, a, b => a = b
  | ne, a, b => a ≠ b

/-- What is decided of an order is what the symbol says of the things that are in it. -/
theorem decides_iff {α : Type} [Preorder α] (op : Operator) {order : Ordering} {a b : α}
    (h : order.Compares a b) : op.decides (some order) = true ↔ op.Relates a b := by
  cases op with
  | gt => exact beq_iff_eq.trans h.eq_gt
  | ge => exact bne_iff_ne.trans h.ne_lt
  | lt => exact beq_iff_eq.trans h.eq_lt
  | le => exact bne_iff_ne.trans h.ne_gt
  | eq => exact beq_iff_eq.trans h.eq_eq
  | ne => exact bne_iff_ne.trans (not_congr h.eq_eq)

theorem decides_none_iff (op : Operator) : op.decides none = true ↔ op = .ne := by
  cases op <;> simp [decides]

/-- Texts are in the order of their code points. -/
theorem codeOrder_compares (ns ns' : List Nat) : (codeOrder ns ns').Compares ns ns' := by
  induction ns generalizing ns' with
  | nil =>
    cases ns' with
    | nil => exact rfl
    | cons n' ns' => exact List.nil_lt_cons n' ns'
  | cons n ns ih =>
    cases ns' with
    | nil => exact List.nil_lt_cons n ns
    | cons n' ns' =>
      rw [codeOrder]
      split
      · next less => exact List.cons_lt_cons_iff.2 (.inl less)
      split
      · next more => exact List.cons_lt_cons_iff.2 (.inl more)
      · next less more =>
        obtain rfl : n = n' := by omega
        have rest := ih ns'
        cases order : codeOrder ns ns' with
        | lt =>
          rw [order] at rest
          exact List.cons_lt_cons_iff.2 (.inr ⟨rfl, rest⟩)
        | eq =>
          rw [order] at rest
          exact congrArg (n :: ·) rest
        | gt =>
          rw [order] at rest
          exact List.cons_lt_cons_iff.2 (.inr ⟨rfl, rest⟩)

/-- Doubles are in the order of their exact values, if they have one. -/
theorem numberOrder_eq {a b : Double} (ha : a.IsInRange) (hb : b.IsInRange) :
    numberOrder a b = do return cmp (← a.value?) (← b.value?) := by
  have values (x : Double) : (x = .nan ∧ x.position? = none ∧ x.value? = none) ∨
      ∃ p u, x.position? = some p ∧ x.value? = some u := by
    cases x with
    | nan => exact .inl ⟨rfl, rfl, rfl⟩
    | infinity | finite => exact .inr ⟨_, _, rfl, rfl⟩
  rw [numberOrder]
  rcases values a with ⟨rfl, hp, hu⟩ | ⟨p, u, hp, hu⟩
  · rfl
  rcases values b with ⟨rfl, hq, hv⟩ | ⟨q, v, hq, hv⟩
  · rw [hp, hq, hu, hv]
    rfl
  · have less := Double.value_lt_iff ha hb hp hq hu hv
    have more := Double.value_lt_iff hb ha hq hp hv hu
    have order : (Ord.compare p q).Compares u v := by
      rcases lt_trichotomy p q with before | rfl | behind
      · rw [compare_lt_iff_lt.2 before]
        exact less.2 before
      · rw [compare_eq_iff_eq.2 rfl]
        exact le_antisymm (not_lt.1 fun h => lt_irrefl p (more.1 h))
          (not_lt.1 fun h => lt_irrefl p (less.1 h))
      · rw [compare_gt_iff_gt.2 behind]
        exact more.2 behind
    rw [hp, hq, hu, hv]
    exact congrArg some order.cmp_eq.symm

/-! ## Coherence -/

/-- The answers to the six comparisons of two sides, and to those of the sides in the other order. -/
structure IsCoherent (holds back : Operator → Bool) : Prop where
  ne : holds .ne = !holds .eq
  gt : holds .gt = back .lt
  ge : holds .ge = back .le
  ge_or : holds .ge = (holds .gt || holds .eq)
  le_or : holds .le = (holds .lt || holds .eq)

theorem isCoherent_decides (order : Option Ordering) :
    IsCoherent (decides · order) (decides · (order.map Ordering.swap)) := by
  match order with
  | none | some .lt | some .eq | some .gt => constructor <;> rfl

/-- Of two sides with an order just one of three comparisons holds, of others none. -/
theorem countP_decides (order : Option Ordering) :
    [lt, eq, gt].countP (decides · order) = if order.isNone then 0 else 1 := by
  match order with
  | none | some .lt | some .eq | some .gt => rfl

/-- The order of two texts that stand for numbers or for none. -/
def sideOrder (left right : String) : Option Double → Option Double → Option Ordering
  | some a, some b => numberOrder a b
  | _, _ => some (textOrder left.toList right.toList)

theorem compare_eq {left right : String} {a b : Option Double} (ha : Number.number? left = .ok a)
    (hb : Number.number? right = .ok b) (op : Operator) :
    op.compare (.text left) (.text right) = .ok (op.decides (sideOrder left right a b)) := by
  rw [compare, number?_text, number?_text, ha, hb]
  cases a <;> cases b <;> rfl

theorem numberOrder_swap {a b : Double} (ha : a.IsInRange) (hb : b.IsInRange) :
    numberOrder b a = (numberOrder a b).map Ordering.swap := by
  rw [numberOrder_eq ha hb, numberOrder_eq hb ha]
  match a.value?, b.value? with
  | some u, some v => exact congrArg some (cmp_swap u v).symm
  | none, none | none, some _ | some _, none => rfl

/-- The sides may be exchanged: the order that counts stays the same. -/
theorem sideOrder_swap {left right : String} {a b : Option Double}
    (ha : Number.number? left = .ok a) (hb : Number.number? right = .ok b) :
    sideOrder right left b a = (sideOrder left right a b).map Ordering.swap := by
  have texts : textOrder right.toList left.toList = (textOrder left.toList right.toList).swap := by
    have forth := codeOrder_compares (codes left.toList) (codes right.toList)
    exact (codeOrder_compares _ _).inj forth.swap
  match a, b with
  | some a, some b => exact numberOrder_swap (number?_sound ha).1 (number?_sound hb).1
  | none, some b | some a, none | none, none => exact congrArg some texts

/-- Two values in the relation of a symbol. What has no value differs from everything. -/
def RelatesValues {α : Type} [LT α] [LE α] (op : Operator) : Option α → Option α → Prop
  | some u, some v => op.Relates u v
  | _, _ => op = .ne

theorem decides_numberOrder_iff {a b : Double} (ha : a.IsInRange) (hb : b.IsInRange) (op : Operator) :
    op.decides (numberOrder a b) = true ↔ op.RelatesValues a.value? b.value? := by
  rw [numberOrder_eq ha hb]
  match a.value?, b.value? with
  | some u, some v => exact decides_iff op (cmp_compares u v)
  | none, _ | some u, none => exact decides_none_iff op

/-- Both texts are numerals, and one of them is not a number. -/
def IsUnordered (left right : String) : Prop :=
  IsNumeral (trim left.toList) ∧ IsNumeral (trim right.toList) ∧
    (IsNan (trim left.toList) ∨ IsNan (trim right.toList))

theorem numberOrder_eq_none_iff (a b : Double) : numberOrder a b = none ↔ a = .nan ∨ b = .nan := by
  cases a <;> cases b <;> simp [numberOrder, Double.position?]

/-- Two texts are compared as numbers if they are numerals, and as texts if one of them is not. -/
theorem side_cases {left right : String} {a b : Option Double}
    (ha : Number.number? left = .ok a) (hb : Number.number? right = .ok b) :
    ((IsNumeral (trim left.toList) ∧ IsNumeral (trim right.toList)) ∧
        ∃ x y, a = some x ∧ b = some y) ∨
      (¬(IsNumeral (trim left.toList) ∧ IsNumeral (trim right.toList)) ∧
        sideOrder left right a b = some (textOrder left.toList right.toList)) := by
  match a, b with
  | some x, some y =>
    have numeral := ((number?_some_iff left).1 ⟨x, ha⟩).1
    have numeral' := ((number?_some_iff right).1 ⟨y, hb⟩).1
    exact .inl ⟨⟨numeral, numeral'⟩, x, y, rfl, rfl⟩
  | none, _ => exact .inr ⟨fun h => (number?_none_iff left).1 ha h.1, rfl⟩
  | some _, none => exact .inr ⟨fun h => (number?_none_iff right).1 hb h.2, rfl⟩

theorem sideOrder_eq_none_iff {left right : String} {a b : Option Double}
    (ha : Number.number? left = .ok a) (hb : Number.number? right = .ok b) :
    sideOrder left right a b = none ↔ IsUnordered left right := by
  rcases side_cases ha hb with ⟨⟨numeral, numeral'⟩, x, y, rfl, rfl⟩ | ⟨other, order⟩
  · rw [sideOrder, numberOrder_eq_none_iff, (number?_sound ha).2, (number?_sound hb).2]
    exact ⟨fun h => ⟨numeral, numeral', h⟩, fun h => h.2.2⟩
  · rw [order]
    exact iff_of_false (Option.some_ne_none _) fun h => other ⟨h.1, h.2.1⟩

/-- Where a comparison answers, all six do, in both orders of the sides, and their answers are those of
one order: that of the exact values of two numerals, or that of the code points of other texts. Just one
of three comparisons holds, but for two numerals of which one is not a number. -/
theorem compare_coherent {op : Operator} {left right : String} {answer : Bool}
    (h : op.compare (.text left) (.text right) = .ok answer) :
    ∃ holds back : Operator → Bool,
      (∀ op, Operator.compare op (.text left) (.text right) = .ok (holds op)) ∧
      (∀ op, Operator.compare op (.text right) (.text left) = .ok (back op)) ∧
      IsCoherent holds back ∧
      (IsUnordered left right → [lt, eq, gt].countP holds = 0) ∧
      (¬IsUnordered left right → [lt, eq, gt].countP holds = 1) ∧
      (IsNumeral (trim left.toList) ∧ IsNumeral (trim right.toList) →
        ∃ a b, Number.number? left = .ok (some a) ∧ Number.number? right = .ok (some b) ∧
          ∀ op, holds op = true ↔ op.RelatesValues a.value? b.value?) ∧
      (¬(IsNumeral (trim left.toList) ∧ IsNumeral (trim right.toList)) →
        ∀ op, holds op = true ↔ op.Relates (codes left.toList) (codes right.toList)) := by
  rcases compare_cases op left right with ⟨x, -, hx⟩ | ⟨-, -, x, -, hx⟩ | ⟨a, b, ha, hb, -⟩
  · rw [hx] at h
    cases h
  · rw [hx] at h
    cases h
  have unordered := sideOrder_eq_none_iff ha hb
  refine ⟨(decides · (sideOrder left right a b)),
    (decides · ((sideOrder left right a b).map Ordering.swap)), compare_eq ha hb, fun op => ?_,
    isCoherent_decides _, fun hu => ?_, fun hu => ?_, fun numerals => ?_, fun other op => ?_⟩
  · rw [compare_eq hb ha, sideOrder_swap ha hb]
  · rw [countP_decides, unordered.2 hu]
    rfl
  · rw [countP_decides, if_neg]
    rwa [Option.isNone_iff_eq_none, unordered]
  · rcases side_cases ha hb with ⟨-, x, y, rfl, rfl⟩ | ⟨other, -⟩
    · exact ⟨x, y, ha, hb, decides_numberOrder_iff (number?_sound ha).1 (number?_sound hb).1⟩
    · exact absurd numerals other
  · rcases side_cases ha hb with ⟨numerals, -⟩ | ⟨-, order⟩
    · exact absurd numerals other
    · rw [order]
      exact decides_iff op (codeOrder_compares _ _)

theorem compare_coherent_nan :
    Operator.ne.compare (.text "-NaN") (.text "1e400") = .ok true ∧ IsUnordered "-NaN" "1e400" ∧
      ∃ holds back : Operator → Bool,
        (∀ op, Operator.compare op (.text "-NaN") (.text "1e400") = .ok (holds op)) ∧
        (∀ op, Operator.compare op (.text "1e400") (.text "-NaN") = .ok (back op)) ∧
        IsCoherent holds back ∧ [lt, eq, gt].countP holds = 0 := by
  have answers : Operator.ne.compare (.text "-NaN") (.text "1e400") = .ok true := by decide +kernel
  have left : Number.number? "-NaN" = .ok (some .nan) := by decide +kernel
  have right : Number.number? "1e400" = .ok (some (.infinity false)) := by decide +kernel
  have unordered : IsUnordered "-NaN" "1e400" :=
    ⟨((number?_some_iff _).1 ⟨_, left⟩).1, ((number?_some_iff _).1 ⟨_, right⟩).1,
      .inl ((number?_sound left).2.1 rfl)⟩
  obtain ⟨holds, back, forth, backward, coherent, none, -⟩ := compare_coherent answers
  exact ⟨answers, unordered, holds, back, forth, backward, coherent, none unordered⟩

end Operator

end Gatekeeper

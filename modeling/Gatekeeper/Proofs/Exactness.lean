import Gatekeeper.Proofs.Comparison
import Gatekeeper.Proofs.Nearest
import Mathlib.Tactic.FieldSimp

/-!
# Exact values

The number that a numeral stands for, as a grammar that says nothing of how the numeral is read: its
digits may be any number of digits, and its exponent may be of any size. What two numerals are compared
by never turns the order of these numbers around, and where both are whole numbers of at most 53 bits it
is their order.
-/
namespace Gatekeeper

namespace Number

open Text Numeral

/-! ## The numbers of numerals -/

/-- Digits, with a point or without one, and the number they stand for. -/
inductive MantissaOf : List Char → ℚ → Prop where
  | whole {digits : List Char} (h : AreDigits digits) (ne : digits ≠ []) :
      MantissaOf digits (digitsValue digits)
  | pointed {digits fraction : List Char} (h : AreDigits digits) (hf : AreDigits fraction)
      (ne : digits ++ fraction ≠ []) :
      MantissaOf (digits ++ '.' :: fraction)
        (digitsValue digits + digitsValue fraction / 10 ^ fraction.length)

/-- An exponent, or none, and the whole number it stands for. -/
inductive ExponentOf : List Char → ℤ → Prop where
  | none : ExponentOf [] 0
  | some {letter : Char} {sign digits : List Char} (hl : letter = 'e' ∨ letter = 'E')
      (hs : IsSign sign) (h : AreDigits digits) (ne : digits ≠ []) :
      ExponentOf (letter :: (sign ++ digits))
        (if sign = ['-'] then -digitsValue digits else digitsValue digits)

/-- A decimal numeral and the number it stands for. -/
inductive Denotes : List Char → ℚ → Prop where
  | decimal {sign mantissa exponent : List Char} {m : ℚ} {e : ℤ} (hs : IsSign sign)
      (hm : MantissaOf mantissa m) (he : ExponentOf exponent e) :
      Denotes (sign ++ (mantissa ++ exponent))
        (if sign = ['-'] then -(m * 10 ^ e) else m * 10 ^ e)

theorem MantissaOf.mantissa {text : List Char} {m : ℚ} (h : MantissaOf text m) : Mantissa text := by
  cases h with
  | whole h ne => exact .whole h ne
  | pointed h hf ne => exact .pointed h hf ne

theorem ExponentOf.exponent {text : List Char} {e : ℤ} (h : ExponentOf text e) : Exponent text := by
  cases h with
  | none => exact .none
  | some hl hs h ne => exact .some hl hs h ne

/-! ## Reading -/

theorem ExponentOf.read {text : List Char} {e : ℤ} (h : ExponentOf text e) :
    exponent? text = Option.some e := by
  cases h with
  | none => rfl
  | some hl hs h ne =>
    rw [exponent?, if_pos hl, takeSign_append hs h.first]
    simp [ne, List.all_eq_true.2 h, Double.signed]

/-- Digits behind others count for as many powers of ten as there are of them. -/
theorem digitsValue_append (digits digits' : List Char) :
    digitsValue (digits ++ digits') = digitsValue digits * 10 ^ digits'.length + digitsValue digits' := by
  induction digits' using List.reverseRecOn with
  | nil => simp
  | append_singleton digits' c ih =>
    rw [← List.append_assoc, digitsValue_append_singleton, digitsValue_append_singleton, ih,
      List.length_append, List.length_singleton]
    ring

/-- A mantissa is read as digits and a power of ten, which the exponent behind it adds to. -/
theorem MantissaOf.read {mantissa exponent : List Char} {m : ℚ} {e : ℤ} (hm : MantissaOf mantissa m)
    (he : ExponentOf exponent e) (negative : Bool) :
    ∃ whole fraction, decimal? negative (mantissa ++ exponent) =
        some (.decimal negative whole fraction e) ∧
      m = digitsValue (whole ++ fraction) / 10 ^ fraction.length := by
  cases hm with
  | whole h ne =>
    refine ⟨mantissa, [], ?_, ?_⟩
    · rw [decimal?_whole h ne he.exponent, he.read]
      rfl
    · simp
  | @pointed digits fraction h hf ne =>
    refine ⟨digits, fraction, ?_, ?_⟩
    · rw [decimal?_pointed h hf ne he.exponent, he.read]
      rfl
    · rw [digitsValue_append]
      push_cast
      field_simp

/-- What starts with a mantissa is no name. -/
theorem named?_eq_none {mantissa : List Char} (h : Mantissa mantissa) (exponent : List Char)
    (negative : Bool) : named? negative (mantissa ++ exponent) = none := by
  have unnamed : ∀ word ∈ names, ¬Spells word (mantissa ++ exponent) := by
    intro word hw spelled
    obtain ⟨c, rest, rfl, first⟩ := h.first
    exact name_not_decimal hw spelled (List.mem_cons_self ..) first
  rcases named?_cases negative (mantissa ++ exponent) with
    ⟨-, none⟩ | ⟨strange, -⟩ | ⟨-, ⟨word, hw, spelled⟩, -⟩
  · exact none
  · obtain ⟨word, hw, spelled⟩ := exists_name_of_infinite strange.1
    exact absurd spelled (unnamed word hw)
  · exact absurd spelled (unnamed word hw)

/-- A numeral is read as the double that is nearest to its number. -/
theorem number?_of_denotes {text : String} {x : ℚ} (h : Denotes (trim text.toList) x) :
    ∃ a, number? text = .ok (some a) ∧ a.position? = some (Double.place x) := by
  rw [number?]
  generalize trim text.toList = numeral at h
  cases h with
  | @decimal sign mantissa exponent m e hs hm he =>
    obtain ⟨whole, fraction, read, rfl⟩ := hm.read he (decide (sign = ['-']))
    rw [ofText?, takeSign_append hs (Unsigned.decimal hm.mantissa he.exponent).first]
    dsimp only
    rw [named?_eq_none hm.mantissa, read]
    refine ⟨_, rfl, ?_⟩
    rw [Double.position?_ofDecimal, zpow_sub₀ (by decide), zpow_natCast]
    congr 2
    by_cases minus : sign = ['-']
    · simp only [minus, decide_true, Double.signed, if_true]
      push_cast
      ring
    · simp only [minus, decide_false, Double.signed, Bool.false_eq_true, if_false]
      push_cast
      ring

end Number

namespace Operator

open Text Number

/-- The symbols are decided by the places of the doubles. -/
theorem decides_numberOrder_place {a b : Double} {p q : Int} (ha : a.position? = some p)
    (hb : b.position? = some q) (op : Operator) :
    op.decides (numberOrder a b) = true ↔ op.Relates p q := by
  have order : numberOrder a b = some (Ord.compare p q) := by
    rw [numberOrder, ha, hb]
    rfl
  rw [order]
  exact decides_iff op (cmp_eq_compare p q ▸ cmp_compares p q)

/-- A map that keeps the order keeps all six relations. -/
theorem relates_map_iff {α β : Type} [LinearOrder α] [Preorder β] {f : α → β} (hf : StrictMono f)
    (op : Operator) (a b : α) : op.Relates (f a) (f b) ↔ op.Relates a b := by
  cases op with
  | gt | lt => exact hf.lt_iff_lt
  | ge | le => exact hf.le_iff_le
  | eq => exact hf.injective.eq_iff
  | ne => exact hf.injective.ne_iff

/-- However two numerals are written, no comparison turns the order of their numbers around, and all six
decide just that order where both are whole numbers of at most 53 bits, or the next one. -/
theorem compare_exact {left right : String} {x y : ℚ} (hx : Denotes (trim left.toList) x)
    (hy : Denotes (trim right.toList) y) :
    ∃ holds : Operator → Bool,
      (∀ op : Operator, op.compare (.text left) (.text right) = .ok (holds op)) ∧
      (x ≤ y → holds .le = true) ∧ (holds .gt = true → y < x) ∧
      (y ≤ x → holds .ge = true) ∧ (holds .lt = true → x < y) ∧
      ∀ m n : Int, m.natAbs ≤ 2 ^ 53 → n.natAbs ≤ 2 ^ 53 → x = m → y = n →
        ∀ op : Operator, holds op = true ↔ op.Relates x y := by
  obtain ⟨a, ha, hp⟩ := number?_of_denotes hx
  obtain ⟨b, hb, hq⟩ := number?_of_denotes hy
  have decided := decides_numberOrder_place hp hq
  refine ⟨fun op => op.decides (numberOrder a b), compare_eq ha hb, fun le => ?_, fun gt => ?_,
    fun ge => ?_, fun lt => ?_, ?_⟩
  · exact (decided .le).2 (Double.place_mono le)
  · by_contra le
    exact not_lt.2 (Double.place_mono (not_lt.1 le)) ((decided .gt).1 gt)
  · exact (decided .ge).2 (Double.place_mono ge)
  · by_contra ge
    exact not_lt.2 (Double.place_mono (not_lt.1 ge)) ((decided .lt).1 lt)
  · rintro m n hm hn rfl rfl op
    have positive : (0 : Int) < Double.one := Int.natCast_pos.2 Double.one_pos
    rw [decided, Double.place_intCast hm, Double.place_intCast hn,
      relates_map_iff Int.cast_strictMono op m n]
    generalize (Double.one : Int) = unit at *
    have places : StrictMono fun k : Int => k * unit := fun _ _ less =>
      Int.mul_lt_mul_of_pos_right less positive
    exact relates_map_iff places op m n

theorem compare_exact_five :
    Denotes (trim " +05 ".toList) 5 ∧ Denotes (trim "50e-1".toList) 5 ∧
      Operator.eq.compare (.text " +05 ") (.text "50e-1") = .ok true ∧
      Operator.lt.compare (.text " +05 ") (.text "50e-1") = .ok false := by
  have whole (digits : List Char) (h : digits.all isDigit = true) (ne : digits ≠ []) :
      MantissaOf digits (digitsValue digits) := .whole (List.all_eq_true.1 h) ne
  have left : Denotes (trim " +05 ".toList) 5 := by
    have text : trim " +05 ".toList = ['+', '0', '5'] := by decide
    have value : digitsValue ['0', '5'] = 5 := by decide
    have numeral := Denotes.decimal (.inr (.inl rfl)) (whole ['0', '5'] (by decide) (by decide)) .none
    rw [text]
    simpa [value] using numeral
  have right : Denotes (trim "50e-1".toList) 5 := by
    have text : trim "50e-1".toList = ['5', '0', 'e', '-', '1'] := by decide
    have value : digitsValue ['5', '0'] = 50 ∧ digitsValue ['1'] = 1 := by decide
    have digit : AreDigits ['1'] := List.all_eq_true.1 (by decide)
    have numeral := Denotes.decimal (.inl rfl) (whole ['5', '0'] (by decide) (by decide))
      (.some (.inl rfl) (.inr (.inr rfl)) digit (by decide))
    norm_num [value] at numeral
    rwa [text]
  obtain ⟨holds, answers, -, -, -, -, order⟩ := compare_exact left right
  have decided (op : Operator) := order 5 5 (by decide) (by decide) rfl rfl op
  refine ⟨left, right, ?_, ?_⟩
  · rw [answers, (decided .eq).2 rfl]
  · have no : holds .lt = false := eq_false_of_ne_true fun less => lt_irrefl _ ((decided .lt).1 less)
    rw [answers, no]

/-- With 54 bits two numbers may be read as one. -/
example : Operator.gt.compare (.text "9007199254740993") (.text "9007199254740992") = .ok false := by
  decide +kernel

end Operator

end Gatekeeper

import Gatekeeper.Proofs.JsonNumber
import Gatekeeper.Proofs.Layout
import Gatekeeper.Proofs.Shortest

/-!
# JSON doubles are read back

The shortest text of a double has a point or an exponent, so that it is read as a double, and it is
read as the same one.
-/
namespace Gatekeeper.Json

open Number

/-! ## Digits -/

/-- Digits only. -/
def AreDigits (text : List Char) : Prop :=
  ∀ c ∈ text, c.isDigit = true

theorem decimalValue_append_digit (text : List Char) (c : Char) :
    decimalValue (text ++ [c]) = 10 * decimalValue text + (c.toNat - 48) := by
  rw [decimalValue, List.foldl_append]
  rfl

theorem decimalValue_append_zeros (text : List Char) (n : Nat) :
    decimalValue (text ++ List.replicate n '0') = decimalValue text * 10 ^ n := by
  induction n with
  | zero => rw [List.replicate_zero, List.append_nil, Nat.pow_zero, Nat.mul_one]
  | succ n ih =>
    rw [List.replicate_succ', ← List.append_assoc, decimalValue_append_digit, ih, Nat.pow_succ]
    show 10 * (decimalValue text * 10 ^ n) + 0 = _
    ring

theorem decimalValue_zeros_append (n : Nat) (text : List Char) :
    decimalValue (List.replicate n '0' ++ text) = decimalValue text := by
  induction n with
  | zero => rfl
  | succ n ih => exact ih

theorem areDigits_replicate (n : Nat) : AreDigits (List.replicate n '0') := by
  intro c hc
  rw [List.eq_of_mem_replicate hc]
  rfl

theorem areDigits_toDigits (n : Nat) : AreDigits (Nat.toDigits 10 n) :=
  fun _ => isDigit_of_mem_toDigits

theorem AreDigits.append {front back : List Char} (hf : AreDigits front) (hb : AreDigits back) :
    AreDigits (front ++ back) :=
  List.forall_mem_append.2 ⟨hf, hb⟩

/-- Digits are taken up to what is none. -/
theorem AreDigits.span {digits : List Char} (h : AreDigits digits) {rest : List Char}
    (mark : ∀ c ∈ rest.head?, c.isDigit = false) :
    (digits ++ rest).takeWhile Char.isDigit = digits ∧
      (digits ++ rest).dropWhile Char.isDigit = rest :=
  Text.span_append h mark

theorem AreDigits.span_self {digits : List Char} (h : AreDigits digits) :
    digits.takeWhile Char.isDigit = digits ∧ digits.dropWhile Char.isDigit = [] := by
  have whole := @AreDigits.span digits h [] (fun _ hc => nomatch hc)
  rwa [List.append_nil] at whole

/-! ## Parts of a number -/

theorem exponentText_eq (exponent : Int) :
    ∃ digits, Double.exponentText exponent = (if exponent < 0 then '-' else '+') :: digits ∧
      AreDigits digits ∧ digits ≠ [] ∧ decimalValue digits = exponent.natAbs := by
  refine ⟨_, rfl, (areDigits_replicate _).append (areDigits_toDigits _), ?_, ?_⟩
  · exact List.append_ne_nil_of_right_ne_nil _ Nat.toDigits_ne_nil
  · rw [decimalValue_zeros_append, decimalValue_toDigits]

theorem takeExponent?_exponentText (exponent : Int) :
    takeExponent? ('e' :: Double.exponentText exponent) = some (exponent, []) := by
  obtain ⟨digits, text, areDigits, ne, value⟩ := exponentText_eq exponent
  have full : ¬digits.isEmpty = true := fun he => ne (List.isEmpty_iff.1 he)
  have sign : Numeral.takeSign ((if exponent < 0 then '-' else '+') :: digits) =
      (decide (exponent < 0), digits) := by
    by_cases below : exponent < 0
    · rw [if_pos below, Numeral.takeSign, decide_eq_true below]
    · rw [if_neg below, Numeral.takeSign, decide_eq_false below]
  have number : Double.signed (exponent < 0) exponent.natAbs = exponent := by
    by_cases below : exponent < 0
    · rw [Double.signed, if_pos (decide_eq_true below)]
      omega
    · rw [Double.signed, if_neg (fun h => below (of_decide_eq_true h))]
      omega
  rw [takeExponent?_cons, if_pos (Or.inl rfl), text, sign, areDigits.span_self.1,
    areDigits.span_self.2, if_neg full, value, number]

theorem takeFraction_digits {fraction : List Char} (hf : AreDigits fraction) (ne : fraction ≠ [])
    {rest : List Char} (mark : ∀ c ∈ rest.head?, c.isDigit = false) :
    takeFraction ('.' :: (fraction ++ rest)) = (fraction, rest) := by
  have full : ¬fraction.isEmpty = true := fun he => ne (List.isEmpty_iff.1 he)
  rw [takeFraction, (hf.span mark).1, (hf.span mark).2]
  exact if_neg full

section

variable (negative : Bool) {whole fraction : List Char} (hw : whole ≠ [])

include hw in
/-- A number with digits behind the point. -/
theorem numberOf_fraction (hf : AreDigits fraction) (ne : fraction ≠ []) :
    numberOf negative whole ('.' :: fraction) = .ok (some (.float
      (.ofDecimal negative (decimalValue (whole ++ fraction)) (-fraction.length)), [])) := by
  have taken := @takeFraction_digits fraction hf ne [] (fun _ hc => nomatch hc)
  rw [List.append_nil] at taken
  rw [numberOf, if_neg (fun he => hw (List.isEmpty_iff.1 he)), taken]
  obtain ⟨c, fraction, rfl⟩ := List.exists_cons_of_ne_nil ne
  rfl

include hw in
/-- A number with digits behind the point and an exponent. -/
theorem numberOf_exponent (hf : AreDigits fraction) (ne : fraction ≠ []) (exponent : Int) :
    numberOf negative whole ('.' :: (fraction ++ 'e' :: Double.exponentText exponent)) =
      .ok (some (.float (.ofDecimal negative (decimalValue (whole ++ fraction))
        (exponent - fraction.length)), [])) := by
  have mark : ∀ c ∈ ('e' :: Double.exponentText exponent).head?, c.isDigit = false := by
    intro c hc
    obtain rfl := Option.some.inj hc
    rfl
  rw [numberOf, if_neg (fun he => hw (List.isEmpty_iff.1 he)), takeFraction_digits hf ne mark]
  dsimp only
  rw [takeExponent?_exponentText]
  obtain ⟨c, fraction, rfl⟩ := List.exists_cons_of_ne_nil ne
  rfl

include hw in
/-- A number with an exponent alone. -/
theorem numberOf_exponent_only (exponent : Int) :
    numberOf negative whole ('e' :: Double.exponentText exponent) =
      .ok (some (.float (.ofDecimal negative (decimalValue whole) exponent), [])) := by
  have none : takeFraction ('e' :: Double.exponentText exponent) =
      ([], 'e' :: Double.exponentText exponent) :=
    takeFraction_of_ne fun _ he => absurd (List.cons.inj he).1 (by decide)
  rw [numberOf, if_neg (fun he => hw (List.isEmpty_iff.1 he)), none]
  dsimp only
  rw [takeExponent?_exponentText, List.append_nil]
  show Except.ok (some (Scalar.float (.ofDecimal _ _ (exponent - 0)), _)) = _
  rw [Int.sub_zero]

end

/-! ## The text of a double -/

/-- What has no zero in front has none when more follows. -/
theorem append_ne_zero_cons {digits : List Char} (ne : digits ≠ [])
    (lead : ∀ more, digits ≠ '0' :: more) (back more : List Char) : digits ++ back ≠ '0' :: more := by
  obtain ⟨d, digits, rfl⟩ := List.exists_cons_of_ne_nil ne
  exact fun he => lead digits (congrArg (· :: digits) (List.cons.inj he).1)

theorem wholeOf_digits {digits : List Char} (h : AreDigits digits) (ne : digits ≠ [])
    (lead : ∀ more, digits ≠ '0' :: more) {c : Char} (hc : c.isDigit = false) (rest : List Char) :
    wholeOf (digits ++ c :: rest) = (digits, c :: rest) := by
  have mark : ∀ d ∈ (c :: rest).head?, d.isDigit = false := by
    intro d hd
    obtain rfl := Option.some.inj hd
    exact hc
  rw [wholeOf_of_ne (append_ne_zero_cons ne lead _), (h.span mark).1, (h.span mark).2]

/-- What a text with no sign is read as, as a number with a sign. -/
def ReadsAs (text : List Char) (digits : Nat) (exponent : Int) : Prop :=
  ∀ negative, numberOf negative (wholeOf text).1 (wholeOf text).2 =
    .ok (some (.float (.ofDecimal negative digits exponent), []))

/-- Zeros at the end of the digits do not change what is read. -/
theorem ReadsAs.congr {text : List Char} {digits zeros : Nat} {exponent exponent' : Int}
    (h : ReadsAs text (digits * 10 ^ zeros) exponent) (he : exponent' = exponent + zeros) :
    ReadsAs text digits exponent' := by
  intro negative
  rw [h negative, Double.ofDecimal_mul, he]

section

variable {digits : List Char} (h : AreDigits digits) (ne : digits ≠ [])
  (lead : ∀ more, digits ≠ '0' :: more)

include h ne in
/-- Digits behind a point and zeros. -/
theorem readsAs_small (zeros : Nat) :
    ReadsAs ('0' :: '.' :: (List.replicate zeros '0' ++ digits)) (decimalValue digits)
      (-zeros - digits.length) := by
  intro negative
  have some : List.replicate zeros '0' ++ digits ≠ [] := List.append_ne_nil_of_right_ne_nil _ ne
  have value : decimalValue (['0'] ++ (List.replicate zeros '0' ++ digits)) = decimalValue digits :=
    decimalValue_zeros_append zeros digits
  have place : (-((List.replicate zeros '0' ++ digits).length : Int)) = -zeros - digits.length := by
    rw [List.length_append, List.length_replicate]
    omega
  have read := numberOf_fraction negative (List.cons_ne_nil '0' [])
    ((areDigits_replicate zeros).append h) some
  rw [value, place] at read
  exact read

include h ne lead in
theorem readsAs_fraction {fraction : List Char} (hf : AreDigits fraction) (some : fraction ≠ []) :
    ReadsAs (digits ++ '.' :: fraction) (decimalValue (digits ++ fraction)) (-fraction.length) := by
  intro negative
  rw [wholeOf_digits h ne lead rfl fraction]
  exact numberOf_fraction negative ne hf some

include h ne lead in
/-- Digits, zeros, and a zero behind the point. -/
theorem readsAs_whole (zeros : Nat) :
    ReadsAs (digits ++ List.replicate zeros '0' ++ ['.', '0']) (decimalValue digits) zeros := by
  have some : digits ++ List.replicate zeros '0' ≠ [] := List.append_ne_nil_of_left_ne_nil ne _
  have first := append_ne_zero_cons ne lead (List.replicate zeros '0')
  have read := readsAs_fraction (h.append (areDigits_replicate zeros)) some first
    (areDigits_replicate 1) (List.cons_ne_nil _ _)
  have value : decimalValue (digits ++ List.replicate zeros '0' ++ List.replicate 1 '0') =
      decimalValue digits * 10 ^ (zeros + 1) := by
    rw [List.append_assoc, List.replicate_append_replicate, decimalValue_append_zeros]
  rw [value] at read
  refine read.congr ?_
  rw [List.length_replicate]
  omega

include h ne lead in
/-- Digits with the point after some of them. -/
theorem readsAs_inner {before : Nat} (pos : 0 < before) (less : before < digits.length) :
    ReadsAs (digits.take before ++ '.' :: digits.drop before) (decimalValue digits)
      (before - digits.length) := by
  have front : digits.take before ≠ [] := by
    rw [ne_eq, List.take_eq_nil_iff, not_or]
    exact ⟨Nat.ne_of_gt pos, ne⟩
  have back : digits.drop before ≠ [] := by
    rw [ne_eq, List.drop_eq_nil_iff]
    omega
  have first (more : List Char) : digits.take before ≠ '0' :: more := by
    intro he
    refine lead (more ++ digits.drop before) ?_
    rw [← List.cons_append, ← he, List.take_append_drop]
  have read := readsAs_fraction (fun c hc => h c (List.mem_of_mem_take hc)) front first
    (fun c hc => h c (List.mem_of_mem_drop hc)) back
  rw [List.take_append_drop, List.length_drop] at read
  have place : (before : Int) - digits.length = -((digits.length - before : Nat) : Int) := by omega
  rw [place]
  exact read

include h ne lead in
/-- Digits and an exponent. -/
theorem readsAs_exponent (exponent : Int) :
    ReadsAs (digits ++ 'e' :: Double.exponentText exponent) (decimalValue digits) exponent := by
  intro negative
  rw [wholeOf_digits h ne lead rfl]
  exact numberOf_exponent_only negative ne exponent

include h ne lead in
/-- Digits with a point among them and an exponent. -/
theorem readsAs_fraction_exponent {fraction : List Char} (hf : AreDigits fraction)
    (some : fraction ≠ []) (exponent : Int) :
    ReadsAs (digits ++ '.' :: (fraction ++ 'e' :: Double.exponentText exponent))
      (decimalValue (digits ++ fraction)) (exponent - fraction.length) := by
  intro negative
  rw [wholeOf_digits h ne lead rfl]
  exact numberOf_exponent negative ne hf some exponent

include h ne lead in
theorem readsAs_positional (point : Int) :
    ReadsAs (Double.positional digits point) (decimalValue digits) (point - digits.length) := by
  rw [Double.positional.eq_def]
  split
  · have place : point - digits.length = -((-point).toNat : Int) - digits.length := by omega
    rw [place]
    exact readsAs_small h ne _
  split
  · dsimp only
    by_cases whole : digits.length ≤ point.toNat
    · have place : point - digits.length = ((point.toNat - digits.length : Nat) : Int) := by omega
      rw [List.drop_of_length_le whole, List.take_of_length_le whole, place]
      exact readsAs_whole h ne lead _
    · have none : point.toNat - digits.length = 0 := by omega
      have back : ¬(digits.drop point.toNat).isEmpty = true := by
        rw [List.isEmpty_iff, List.drop_eq_nil_iff]
        exact whole
      have place : point - digits.length = (point.toNat : Int) - digits.length := by omega
      rw [none, if_neg back, List.replicate_zero, List.append_nil, place]
      exact readsAs_inner h ne lead (by omega) (by omega)
  · obtain ⟨d, more, rfl⟩ := List.exists_cons_of_ne_nil ne
    have first (others : List Char) : [d] ≠ '0' :: others :=
      fun he => lead more (congrArg (· :: more) (List.cons.inj he).1)
    obtain ⟨hd, hmore⟩ := List.forall_mem_cons.1 h
    have digit : AreDigits [d] := List.forall_mem_singleton.2 hd
    cases more with
    | nil => exact readsAs_exponent h ne lead _
    | cons e rest =>
      have place : point - (d :: e :: rest).length = point - 1 - (e :: rest).length := by
        rw [List.length_cons]
        omega
      rw [place]
      exact readsAs_fraction_exponent digit (List.cons_ne_nil _ _) first hmore (List.cons_ne_nil _ _) _

end

/-! ## The digits of a double -/

theorem significant_append (digits : Nat) (exponent : Int) :
    ∃ zeros, Nat.toDigits 10 digits =
      (Double.significant digits exponent).1 ++ List.replicate zeros '0' := by
  have parts := @List.takeWhile_append_dropWhile _ (· == '0') (Nat.toDigits 10 digits).reverse
  have zeros (c : Char) (hc : c ∈ (Nat.toDigits 10 digits).reverse.takeWhile (· == '0')) : c = '0' :=
    eq_of_beq (@List.mem_takeWhile_imp _ (· == '0') _ _ hc)
  refine ⟨((Nat.toDigits 10 digits).reverse.takeWhile (· == '0')).length, ?_⟩
  rw [List.eq_replicate_of_mem zeros] at parts
  have whole := congrArg List.reverse parts
  rw [List.reverse_append, List.reverse_replicate, List.reverse_reverse] at whole
  exact whole.symm

theorem readsAs_significant {digits : Nat} (hd : digits ≠ 0) (exponent : Int) :
    ReadsAs (Double.positional (Double.significant digits exponent).1
      (Double.significant digits exponent).2) digits exponent := by
  obtain ⟨zeros, text⟩ := significant_append digits exponent
  have point : (Double.significant digits exponent).2 =
      exponent + (Nat.toDigits 10 digits).length := rfl
  have value := decimalValue_toDigits digits
  rw [text, List.length_append, List.length_replicate] at point
  rw [text, decimalValue_append_zeros] at value
  have all : AreDigits ((Double.significant digits exponent).1 ++ List.replicate zeros '0') :=
    text ▸ areDigits_toDigits digits
  have first (more : List Char) : (Double.significant digits exponent).1 ≠ '0' :: more := by
    intro he
    rw [he] at text
    exact toDigits_ne_cons hd _ text
  have some : (Double.significant digits exponent).1 ≠ [] := by
    intro he
    rw [he, decimalValue, List.foldl_nil, Nat.zero_mul] at value
    exact hd value.symm
  have read := readsAs_positional (List.forall_mem_append.1 all).1 some first
    (Double.significant digits exponent).2
  generalize (Double.significant digits exponent).1 = front at *
  generalize (Double.significant digits exponent).2 = place at *
  have last : place - front.length = exponent + zeros := by omega
  intro negative
  rw [read negative, ← value, Double.ofDecimal_mul, last]

theorem readNumber_sign {text : List Char} {digits : Nat} {exponent : Int}
    (h : ReadsAs text digits exponent) (negative : Bool) :
    readNumber (if negative then '-' :: text else text) =
      .ok (some (.float (.ofDecimal negative digits exponent), [])) := by
  cases negative with
  | true => exact (readNumber_minus text).trans (h true)
  | false =>
    refine (readNumber_of_ne ?_).trans (h false)
    rintro more rfl
    cases h false

/-- The shortest text of a double is read as it. -/
theorem readNumber_finiteText {units : Nat} (h : Double.IsDouble units) (negative : Bool) :
    readNumber (Double.finiteText negative units) =
      .ok (some (.float (.finite negative units), [])) := by
  rw [Double.finiteText]
  by_cases zero : units = 0
  · have small := readsAs_small (areDigits_replicate 1) (List.cons_ne_nil _ _) 0
    have read := readNumber_sign small negative
    have nothing (exponent : Int) : Double.ofDecimal negative (decimalValue ['0']) exponent =
        .finite negative 0 := if_pos rfl
    rw [if_pos zero, zero, ← nothing]
    exact read
  · have reads := Double.ofDecimal_shortest zero h
    have some : (Double.shortest units).1 ≠ 0 := by
      intro none
      rw [none, Double.ofDecimal, if_pos rfl] at reads
      exact zero (Double.finite.inj reads).2.symm
    have read := readNumber_sign (readsAs_significant some (Double.shortest units).2) negative
    rw [Double.ofDecimal_negative negative reads] at read
    generalize Double.shortest units = pair at *
    rw [if_neg zero]
    exact read

end Gatekeeper.Json

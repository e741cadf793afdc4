import Gatekeeper.Json.Reader
import Gatekeeper.Number.Numeral
import Gatekeeper.Proofs.JsonText
import Mathlib.Data.List.TakeWhile

/-!
# JSON numbers are read up to their end

What is read of a number does not depend on what stands behind it, as long as that ends it. A whole
number that is not too long is read back from its digits.
-/
namespace Gatekeeper.Json

open Number

/-! ## The end of a number -/

/-- The marks that may follow a value within others, and the line break. -/
def ends : List Char :=
  [',', ']', '\x7d', '\n']

/-- What may stand behind a value: nothing, or what starts with such a mark. -/
def IsEnd (rest : List Char) : Prop :=
  ∀ c ∈ rest.head?, c ∈ ends

theorem not_of_mem_ends {c : Char} (h : c ∈ ends) : c.isDigit = false ∧ ¬(c = 'e' ∨ c = 'E') := by
  simp only [ends, List.mem_cons, List.not_mem_nil, or_false] at h
  rcases h with rfl | rfl | rfl | rfl <;> decide

theorem isEnd_nil : IsEnd [] := fun _ hc => nomatch hc

theorem isEnd_cons {c : Char} (h : c ∈ ends) (rest : List Char) : IsEnd (c :: rest) := by
  intro d hd
  obtain rfl := Option.some.inj hd
  exact h

section

variable {rest : List Char}

theorem IsEnd.cons {c : Char} (h : IsEnd (c :: rest)) : c ∈ ends :=
  h c rfl

/-- What a text does not start with, it does not start with when its end follows. -/
theorem append_ne_cons (h : IsEnd rest) {c : Char} (hc : c ∉ ends)
    {text : List Char} (hn : ∀ more, text ≠ c :: more) (more : List Char) :
    text ++ rest ≠ c :: more := by
  intro he
  cases text with
  | nil => exact hc (h c (congrArg List.head? he))
  | cons d text => exact hn text (congrArg (· :: text) (List.cons.inj he).1)

theorem takeWhile_append_end (h : IsEnd rest) (text : List Char) :
    (text ++ rest).takeWhile Char.isDigit = text.takeWhile Char.isDigit := by
  induction text with
  | nil =>
    cases rest with
    | nil => rfl
    | cons c rest =>
      exact List.takeWhile_cons_of_neg (by simp [(not_of_mem_ends h.cons).1])
  | cons c text ih => rw [List.cons_append, List.takeWhile_cons, List.takeWhile_cons, ih]

theorem dropWhile_append_end (h : IsEnd rest) (text : List Char) :
    (text ++ rest).dropWhile Char.isDigit = text.dropWhile Char.isDigit ++ rest := by
  have whole := @List.takeWhile_append_dropWhile _ Char.isDigit (text ++ rest)
  rw [takeWhile_append_end h] at whole
  have parts := @List.takeWhile_append_dropWhile _ Char.isDigit text
  refine List.append_cancel_left (whole.trans ?_)
  rw [← List.append_assoc, parts]

theorem takeFraction_of_ne {text : List Char} (h : ∀ more, text ≠ '.' :: more) :
    takeFraction text = ([], text) := by
  rw [takeFraction.eq_def]
  split
  · next more => exact absurd rfl (h more)
  · rfl

theorem takeFraction_append (h : IsEnd rest) (text : List Char) :
    takeFraction (text ++ rest) = ((takeFraction text).1, (takeFraction text).2 ++ rest) := by
  by_cases point : ∃ more, text = '.' :: more
  · obtain ⟨more, rfl⟩ := point
    rw [List.cons_append, takeFraction, takeFraction, takeWhile_append_end h, dropWhile_append_end h]
    cases (more.takeWhile Char.isDigit).isEmpty <;> rfl
  · have none : ∀ more, text ≠ '.' :: more := not_exists.1 point
    rw [takeFraction_of_ne none, takeFraction_of_ne (append_ne_cons h (by decide) none)]

theorem takeSign_of_ne {text : List Char} (minus : ∀ more, text ≠ '-' :: more)
    (plus : ∀ more, text ≠ '+' :: more) : Numeral.takeSign text = (false, text) := by
  rw [Numeral.takeSign.eq_def]
  split
  · next more => exact absurd rfl (minus more)
  · next more => exact absurd rfl (plus more)
  · rfl

/-- A text has a sign in front or it has none. -/
theorem sign_cases (text : List Char) : (∃ more, text = '-' :: more) ∨ (∃ more, text = '+' :: more) ∨
    (∀ more, text ≠ '-' :: more) ∧ ∀ more, text ≠ '+' :: more := by
  cases text with
  | nil => exact .inr (.inr ⟨fun _ he => (nomatch he), fun _ he => (nomatch he)⟩)
  | cons c text =>
    by_cases minus : c = '-'
    · exact .inl ⟨text, by rw [minus]⟩
    by_cases plus : c = '+'
    · exact .inr (.inl ⟨text, by rw [plus]⟩)
    exact .inr (.inr ⟨fun _ he => minus (List.cons.inj he).1, fun _ he => plus (List.cons.inj he).1⟩)

theorem takeSign_append (h : IsEnd rest) (text : List Char) :
    Numeral.takeSign (text ++ rest) =
      ((Numeral.takeSign text).1, (Numeral.takeSign text).2 ++ rest) := by
  rcases sign_cases text with ⟨more, rfl⟩ | ⟨more, rfl⟩ | ⟨minus, plus⟩
  · rfl
  · rfl
  rw [takeSign_of_ne minus plus, takeSign_of_ne (append_ne_cons h (by decide) minus)
    (append_ne_cons h (by decide) plus)]

theorem takeExponent?_cons (c : Char) (text : List Char) :
    takeExponent? (c :: text) =
      if c = 'e' ∨ c = 'E' then
        if ((Numeral.takeSign text).2.takeWhile Char.isDigit).isEmpty then none
        else some
          (Double.signed (Numeral.takeSign text).1
            (decimalValue ((Numeral.takeSign text).2.takeWhile Char.isDigit)),
          (Numeral.takeSign text).2.dropWhile Char.isDigit)
      else none := by
  rcases sign_cases text with ⟨more, rfl⟩ | ⟨more, rfl⟩ | ⟨minus, plus⟩
  · rfl
  · rfl
  · rw [takeSign_of_ne minus plus, takeExponent?]
    · exact minus
    · exact plus

theorem takeExponent?_append (h : IsEnd rest) (text : List Char) :
    takeExponent? (text ++ rest) = (takeExponent? text).map fun read => (read.1, read.2 ++ rest) := by
  cases text with
  | nil =>
    cases rest with
    | nil => rfl
    | cons c rest =>
      rw [List.nil_append, takeExponent?_cons, if_neg (not_of_mem_ends h.cons).2]
      rfl
  | cons c text =>
    rw [List.cons_append, takeExponent?_cons, takeExponent?_cons, takeSign_append h,
      takeWhile_append_end h, dropWhile_append_end h]
    split
    · split <;> rfl
    · rfl

/-- The number of a sign and a whole part, and of what follows them. -/
def numberOf (negative : Bool) (whole afterWhole : List Char) :
    Except Stop (Option (Scalar × List Char)) :=
  if whole.isEmpty then .ok none
  else
    let (fraction, afterFraction) := takeFraction afterWhole
    match fraction, takeExponent? afterFraction with
    | [], none =>
      if digitLimit < whole.length then .error (.tooManyDigits whole.length)
      else .ok (some (.int (Double.signed negative (decimalValue whole)), afterFraction))
    | _, none =>
      let x := Double.ofDecimal negative (decimalValue (whole ++ fraction)) (-fraction.length)
      .ok (some (.float x, afterFraction))
    | _, some (exponent, rest) =>
      let x := Double.ofDecimal negative (decimalValue (whole ++ fraction))
        (exponent - fraction.length)
      .ok (some (.float x, rest))

/-- The whole part of a number, which is a zero alone if it starts with one, and the rest. -/
def wholeOf (text : List Char) : List Char × List Char :=
  if text.head? = some '0' then (['0'], text.tail)
  else (text.takeWhile Char.isDigit, text.dropWhile Char.isDigit)

theorem wholeOf_of_ne {text : List Char} (h : ∀ more, text ≠ '0' :: more) :
    wholeOf text = (text.takeWhile Char.isDigit, text.dropWhile Char.isDigit) := by
  refine if_neg fun zero => ?_
  obtain ⟨more, he⟩ := List.head?_eq_some_iff.1 zero
  exact h more he

theorem readNumber_minus (text : List Char) :
    readNumber ('-' :: text) = numberOf true (wholeOf text).1 (wholeOf text).2 := by
  by_cases zero : ∃ more, text = '0' :: more
  · obtain ⟨more, rfl⟩ := zero
    rfl
  · have none := not_exists.1 zero
    rw [wholeOf_of_ne none, readNumber]
    · rfl
    · exact none

theorem readNumber_of_ne {text : List Char} (h : ∀ more, text ≠ '-' :: more) :
    readNumber text = numberOf false (wholeOf text).1 (wholeOf text).2 := by
  by_cases zero : ∃ more, text = '0' :: more
  · obtain ⟨more, rfl⟩ := zero
    rfl
  · have none := not_exists.1 zero
    rw [wholeOf_of_ne none, readNumber]
    · rfl
    · exact h
    · exact none

theorem wholeOf_append (h : IsEnd rest) (text : List Char) :
    wholeOf (text ++ rest) = ((wholeOf text).1, (wholeOf text).2 ++ rest) := by
  by_cases zero : ∃ more, text = '0' :: more
  · obtain ⟨more, rfl⟩ := zero
    rfl
  · have none := not_exists.1 zero
    rw [wholeOf_of_ne none, wholeOf_of_ne (append_ne_cons h (by decide) none),
      takeWhile_append_end h, dropWhile_append_end h]

theorem numberOf_append (h : IsEnd rest) (negative : Bool) (whole text : List Char) :
    numberOf negative whole (text ++ rest) =
      (numberOf negative whole text).map (Option.map fun read => (read.1, read.2 ++ rest)) := by
  rw [numberOf, numberOf, takeFraction_append h]
  dsimp only
  rw [takeExponent?_append h]
  split
  · rfl
  · cases takeExponent? (takeFraction text).2 with
    | some read => cases (takeFraction text).1 <;> rfl
    | none =>
      cases (takeFraction text).1 with
      | nil =>
        dsimp only [Option.map_none]
        split <;> rfl
      | cons => rfl

/-- A number is read up to its end. -/
theorem readNumber_append (h : IsEnd rest) (text : List Char) :
    readNumber (text ++ rest) =
      (readNumber text).map (Option.map fun read => (read.1, read.2 ++ rest)) := by
  by_cases minus : ∃ more, text = '-' :: more
  · obtain ⟨more, rfl⟩ := minus
    rw [List.cons_append, readNumber_minus, readNumber_minus, wholeOf_append h, numberOf_append h]
  · have none := not_exists.1 minus
    rw [readNumber_of_ne none, readNumber_of_ne (append_ne_cons h (by decide) none),
      wholeOf_append h, numberOf_append h]

end

/-! ## Whole numbers -/

theorem isDigit_of_mem_toDigits {n : Nat} {c : Char} (h : c ∈ Nat.toDigits 10 n) : c.isDigit = true :=
  Nat.isDigit_of_mem_toDigits (by decide) (by decide) h

/-- Only zero is written with a zero in front. -/
theorem toDigits_ne_cons {n : Nat} (h : n ≠ 0) (more : List Char) : Nat.toDigits 10 n ≠ '0' :: more := by
  induction n using Nat.strongRecOn generalizing more with
  | _ n ih =>
    rw [Nat.toDigits_eq_if (by decide)]
    split
    · next small =>
      have all : ∀ d < 10, d ≠ 0 → d.digitChar ≠ '0' := by decide
      exact fun he => all n small h (List.cons.inj he).1
    · next large =>
      intro he
      have front := ih (n / 10) (by omega) (by omega)
      cases hd : Nat.toDigits 10 (n / 10) with
      | nil => exact absurd hd Nat.toDigits_ne_nil
      | cons c rest =>
        rw [hd] at he front
        exact front rest (congrArg (· :: rest) (List.cons.inj he).1)

theorem wholeOf_toDigits (n : Nat) : wholeOf (Nat.toDigits 10 n) = (Nat.toDigits 10 n, []) := by
  by_cases zero : n = 0
  · rw [zero]
    rfl
  · have digits : ∀ c ∈ Nat.toDigits 10 n, c.isDigit = true := fun c => isDigit_of_mem_toDigits
    rw [wholeOf_of_ne (toDigits_ne_cons zero), List.takeWhile_eq_self_iff.2 digits,
      List.dropWhile_eq_nil_iff.2 digits]

theorem decimalValue_toDigits (n : Nat) : decimalValue (Nat.toDigits 10 n) = n :=
  Nat.ofDigitChars_toDigits (by decide) (by decide)

theorem length_toDigits_le {n k : Nat} (hk : 0 < k) (h : n < Nat.pow 10 k) :
    (Nat.toDigits 10 n).length ≤ k :=
  (Nat.length_toDigits_le_iff (by decide) hk).2 h

theorem numberOf_toDigits (negative : Bool) {n : Nat} (h : n < Nat.pow 10 digitLimit) :
    numberOf negative (Nat.toDigits 10 n) [] = .ok (some (.int (Double.signed negative n), [])) := by
  have full : ¬(Nat.toDigits 10 n).isEmpty = true :=
    fun he => Nat.toDigits_ne_nil (List.isEmpty_iff.1 he)
  have few : ¬digitLimit < (Nat.toDigits 10 n).length :=
    Nat.not_lt.2 (length_toDigits_le (by decide) h)
  rw [numberOf, if_neg full]
  show (if _ then _ else _) = _
  rw [if_neg few, decimalValue_toDigits]

theorem readNumber_int {n : Int} (h : Whole.isWritable n = true) :
    readNumber (toString n).toList = .ok (some (.int n, [])) := by
  have short : n.natAbs < Nat.pow 10 digitLimit := by
    rw [Whole.isWritable] at h
    exact of_decide_eq_true h
  rw [toList_toString_int]
  split
  · next negative =>
    have same : Double.signed true n.natAbs = n := by
      rw [Double.signed, if_pos rfl]
      omega
    rw [readNumber_minus, wholeOf_toDigits, numberOf_toDigits true short, same]
  · next positive =>
    have same : Double.signed false n.natAbs = n := by
      rw [Double.signed, if_neg Bool.false_ne_true]
      omega
    have unsigned (more : List Char) : Nat.toDigits 10 n.natAbs ≠ '-' :: more := by
      intro he
      have digit := isDigit_of_mem_toDigits (he ▸ List.mem_cons_self .. : '-' ∈ Nat.toDigits 10 n.natAbs)
      exact absurd digit (by decide)
    rw [readNumber_of_ne unsigned, wholeOf_toDigits, numberOf_toDigits false short, same]

/-! ## Scalars without quotes -/

/-- A number starts with a digit, behind a minus sign or alone. -/
theorem start_of_readNumber {text : List Char} {read : Scalar × List Char}
    (h : readNumber text = .ok (some read)) :
    ∃ c more, c.isDigit = true ∧ (text = c :: more ∨ text = '-' :: c :: more) := by
  have full {negative : Bool} {whole after : List Char}
      (hn : numberOf negative whole after = .ok (some read)) : whole ≠ [] := by
    rintro rfl
    cases hn
  have digit {text : List Char} (hw : (wholeOf text).1 ≠ []) :
      ∃ c more, c.isDigit = true ∧ text = c :: more := by
    by_cases zero : ∃ more, text = '0' :: more
    · obtain ⟨more, rfl⟩ := zero
      exact ⟨_, _, rfl, rfl⟩
    · rw [wholeOf_of_ne (not_exists.1 zero)] at hw
      cases text with
      | nil => exact absurd rfl hw
      | cons c more =>
        refine ⟨c, more, ?_, rfl⟩
        by_contra other
        exact hw (List.takeWhile_cons_of_neg other)
  by_cases minus : ∃ more, text = '-' :: more
  · obtain ⟨more, rfl⟩ := minus
    rw [readNumber_minus] at h
    obtain ⟨c, more, hc, rfl⟩ := digit (full h)
    exact ⟨c, more, hc, .inr rfl⟩
  · rw [readNumber_of_ne (not_exists.1 minus)] at h
    obtain ⟨c, more, hc, rfl⟩ := digit (full h)
    exact ⟨c, more, hc, .inl rfl⟩

theorem find?_names_eq_none {c : Char} (h : c.isDigit = true) (more : List Char) :
    names.find? (fun name => name.1.toList.isPrefixOf (c :: more)) = none ∧
      names.find? (fun name => name.1.toList.isPrefixOf ('-' :: c :: more)) = none := by
  have other (d : Char) (hd : d.isDigit = false) : (d == c) = false := by
    rw [beq_eq_false_iff_ne]
    rintro rfl
    rw [hd] at h
    cases h
  have hn := other 'n' rfl
  have ht := other 't' rfl
  have hf := other 'f' rfl
  have hN := other 'N' rfl
  have hI := other 'I' rfl
  have hm := other '-' rfl
  constructor
  · simp [names, List.isPrefixOf, *]
  · simp [names, List.isPrefixOf, *]

theorem readScalar_number {text rest : List Char} {s : Scalar} (hr : IsEnd rest)
    (h : readNumber text = .ok (some (s, []))) : readScalar (text ++ rest) = .ok (s, rest) := by
  obtain ⟨c, more, hc, ht⟩ := start_of_readNumber h
  have none : names.find? (fun name => name.1.toList.isPrefixOf (text ++ rest)) = none := by
    rcases ht with rfl | rfl
    · exact (find?_names_eq_none hc _).1
    · exact (find?_names_eq_none hc _).2
  rw [readScalar, none, readNumber_append hr, h]
  rfl

theorem readScalar_name {name : String} {s : Scalar} (h : (name, s) ∈ names) (rest : List Char) :
    readScalar (name.toList ++ rest) = .ok (s, rest) := by
  simp only [names, List.mem_cons, Prod.mk.injEq, List.not_mem_nil, or_false] at h
  rcases h with ⟨rfl, rfl⟩ | ⟨rfl, rfl⟩ | ⟨rfl, rfl⟩ | ⟨rfl, rfl⟩ | ⟨rfl, rfl⟩ | ⟨rfl, rfl⟩ <;> rfl

end Gatekeeper.Json

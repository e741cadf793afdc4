import Gatekeeper.Number.Shortest
import Gatekeeper.Proofs.Rounding

/-!
# Shortest digits

Among seventeen digits there are always those that read back as a double, so the digits that are
written for it do.
-/
namespace Gatekeeper.Number.Double

/-! ## The place of the point -/

/-- The first power of ten that is looked at, by the place of the leading bit. -/
def startAt (lead : Nat) : Int :=
  ((lead : Int) - 1074) * 30103 / 100000 - 1

/-- The first power is not above what has this leading bit, and the third one behind it is. -/
def Surrounds (lead : Nat) : Prop :=
  one * 10 ^ (startAt lead).toNat ≤ 2 ^ lead * 10 ^ (-startAt lead).toNat ∧
    2 ^ (lead + 1) * 10 ^ (-(startAt lead + 3)).toNat ≤ one * 10 ^ (startAt lead + 3).toNat

instance : DecidablePred Surrounds := fun _ => inferInstanceAs (Decidable (_ ∧ _))

/-- Checked for each place that a leading bit can have. -/
theorem surrounds_of_lt : ∀ lead < 2098, Surrounds lead := by
  decide +kernel

theorem below_iff (units : Nat) (exponent : Int) :
    below units exponent = true ↔
      units * 10 ^ (-exponent).toNat < one * 10 ^ exponent.toNat :=
  decide_eq_true_iff

section

variable {units : Nat} (positive : units ≠ 0) (small : units < overflow)

include positive small in
theorem surrounds_log2 : Surrounds units.log2 := by
  have lead {k : Nat} (h : units < 2 ^ k) : units.log2 < k := (Nat.log2_lt positive).2 h
  exact surrounds_of_lt _ (lead (overflow_eq ▸ small))

include positive small in
theorem not_below_start : ¬below units (startAt units.log2) = true := by
  rw [below_iff, Nat.not_lt]
  refine Nat.le_trans (surrounds_log2 positive small).1 (Nat.mul_le_mul_right _ ?_)
  exact Nat.log2_self_le positive

include positive small in
theorem below_start_add : below units (startAt units.log2 + 3) = true := by
  rw [below_iff]
  refine Nat.lt_of_lt_of_le ?_ (surrounds_log2 positive small).2
  exact Nat.mul_lt_mul_of_pos_right Nat.lt_log2_self (Nat.pow_pos (by decide))

include positive small in
/-- The point stands at the first power of ten that is above the number. -/
theorem not_below_decimalPoint : below units (decimalPoint units - 1) = false := by
  have first := not_below_start positive small
  have last := below_start_add positive small
  have candidates : decimalPoint units = ([startAt units.log2 + 0, startAt units.log2 + 1,
      startAt units.log2 + 2, startAt units.log2 + 3, startAt units.log2 + 4].find?
        (below units ·)).getD (startAt units.log2) := rfl
  rw [candidates]
  generalize startAt units.log2 = start at *
  have before (k : Int) : start + (k + 1) - 1 = start + k := by omega
  rw [Int.add_zero, List.find?_cons_of_neg first]
  cases second : below units (start + 1) with
  | true =>
    rw [List.find?_cons_of_pos second, Option.getD_some, Int.add_sub_cancel]
    exact eq_false_of_ne_true first
  | false =>
    rw [List.find?_cons_of_neg (ne_true_of_eq_false second)]
    cases third : below units (start + 2) with
    | true =>
      rw [List.find?_cons_of_pos third, Option.getD_some]
      exact (before 1).symm ▸ second
    | false =>
      rw [List.find?_cons_of_neg (ne_true_of_eq_false third), List.find?_cons_of_pos last,
        Option.getD_some]
      exact (before 2).symm ▸ third

/-! ## Seventeen digits -/

include positive small in
/-- With seventeen digits the last one counts for less than a part in `10 ^ 16`. -/
theorem seventeen_digits {exponent : Int} (he : exponent = decimalPoint units - 17) :
    10 ^ 16 * (one * 10 ^ exponent.toNat) ≤ units * 10 ^ (-exponent).toNat := by
  have place : decimalPoint units - 1 = exponent + 16 := by omega
  have above := not_below_decimalPoint positive small
  rw [place, ← Bool.not_eq_true, below_iff, Nat.not_lt] at above
  refine Nat.le_of_mul_le_mul_right ?_ (Nat.pow_pos (by decide) : 0 < 10 ^ (-(exponent + 16)).toNat)
  have places : 16 + exponent.toNat + (-(exponent + 16)).toNat =
      (exponent + 16).toNat + (-exponent).toNat := by omega
  calc 10 ^ 16 * (one * 10 ^ exponent.toNat) * 10 ^ (-(exponent + 16)).toNat
      = one * 10 ^ (16 + exponent.toNat + (-(exponent + 16)).toNat) := by
        rw [Nat.pow_add, Nat.pow_add]
        ring
    _ = one * 10 ^ (exponent + 16).toNat * 10 ^ (-exponent).toNat := by
        rw [places, Nat.pow_add]
        ring
    _ ≤ units * 10 ^ (-(exponent + 16)).toNat * 10 ^ (-exponent).toNat := Nat.mul_le_mul_right _ above
    _ = units * 10 ^ (-exponent).toNat * 10 ^ (-(exponent + 16)).toNat := Nat.mul_right_comm ..

end

/-- Among seventeen digits the nearest ones read back. -/
theorem ofDecimal_roundQuotient {units : Nat} (positive : units ≠ 0) (double : IsDouble units)
    {exponent : Int} (he : exponent = decimalPoint units - 17) :
    ofDecimal false (roundQuotient (units * 10 ^ (-exponent).toNat) (one * 10 ^ exponent.toNat))
      exponent = finite false units := by
  have digits := seventeen_digits positive double.small he
  have grid : 0 < one * 10 ^ exponent.toNat := Nat.mul_pos one_pos (Nat.pow_pos (by decide))
  have denominator : 0 < 10 ^ (-exponent).toNat := Nat.pow_pos (by decide)
  obtain ⟨above, below⟩ := @roundQuotient_near (units * 10 ^ (-exponent).toNat) _ grid
  generalize roundQuotient (units * 10 ^ (-exponent).toNat) (one * 10 ^ exponent.toNat) = nearest at *
  have some : nearest ≠ 0 := by
    rintro rfl
    omega
  have numerator : nearest * 10 ^ exponent.toNat * one = nearest * (one * 10 ^ exponent.toNat) := by
    rw [Nat.mul_assoc, Nat.mul_comm one]
  have rounded : roundUnits (nearest * 10 ^ exponent.toNat * one) (10 ^ (-exponent).toNat) = units := by
    refine roundUnits_of_close double.bits ?_ ?_ denominator
    · rw [numerator]
      omega
    · rw [numerator]
      omega
  rw [ofDecimal_eq false some]
  simp only [ofQuotient, rounded, if_neg (Nat.not_le.2 double.small)]

/-- What is found on a grid reads back. -/
theorem ofDecimal_of_onGrid? {units digits : Nat} {exponent : Int}
    (h : onGrid? units exponent = some digits) :
    ofDecimal false digits exponent = finite false units := by
  rw [onGrid?] at h
  dsimp only at h
  split at h
  · next reads => exact Option.some.inj h ▸ of_decide_eq_true reads
  split at h
  · next reads => exact Option.some.inj h ▸ of_decide_eq_true reads
  split at h
  · next reads => exact Option.some.inj h ▸ of_decide_eq_true reads
  · cases h

theorem onGrid?_seventeen {units : Nat} (positive : units ≠ 0) (double : IsDouble units)
    {exponent : Int} (he : exponent = decimalPoint units - 17) :
    ∃ digits, onGrid? units exponent = some digits := by
  have reads := ofDecimal_roundQuotient positive double he
  rw [onGrid?]
  simp only [Nat.pow_eq]
  exact ⟨_, if_pos (decide_eq_true reads)⟩

/-- The digits that are written for a double read back as it. -/
theorem ofDecimal_shortest {units : Nat} (positive : units ≠ 0) (double : IsDouble units) :
    ofDecimal false (shortest units).1 (shortest units).2 = finite false units := by
  obtain ⟨digits, last⟩ := onGrid?_seventeen positive double rfl
  cases found : (List.range 17).findSome? fun (i : Nat) =>
      (onGrid? units (decimalPoint units - (i + 1))).map (·, decimalPoint units - ((i : Int) + 1)) with
  | none =>
    have nothing := List.findSome?_eq_none_iff.1 found 16 (List.mem_range.2 (by decide))
    rw [Option.map_eq_none_iff] at nothing
    cases last.symm.trans nothing
  | some pair =>
    obtain ⟨i, -, hi⟩ := List.exists_of_findSome?_eq_some found
    obtain ⟨digits, hd, rfl⟩ := Option.map_eq_some_iff.1 hi
    have result : shortest units = (digits, decimalPoint units - (i + 1)) := by
      rw [shortest]
      dsimp only
      rw [found, Option.getD_some]
    rw [result]
    exact ofDecimal_of_onGrid? hd

end Gatekeeper.Number.Double

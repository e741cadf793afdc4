import Gatekeeper.Proofs.Rounding
import Mathlib.Algebra.Order.Field.Rat
import Mathlib.Algebra.Order.Ring.Abs
import Mathlib.Data.Nat.Cast.Order.Field
import Mathlib.Tactic.Linarith

/-!
# Nearest doubles

A decimal number is read as a double that is as near to it as any, so the order of two numbers is never
turned around, and a whole number that is a double is read as itself. All of this is said of places, the
numbers of units on either side of zero up to those of infinity: two zeros have one place.
-/
namespace Gatekeeper.Number.Double

/-! ## Nearest quotients -/

/-- No whole number is nearer to a quotient than the one that it is rounded to. -/
theorem roundQuotient_nearest {n d : Nat} (hd : 0 < d) (m : Nat) :
    |(n / d : ℚ) - roundQuotient n d| ≤ |(n / d : ℚ) - m| := by
  obtain ⟨above, below⟩ := @roundQuotient_near n d hd
  generalize roundQuotient n d = r at *
  have positive : (0 : ℚ) < d := Nat.cast_pos.2 hd
  have half : |(n / d : ℚ) - r| ≤ 1 / 2 := by
    have above' : (2 * (r * d) : ℚ) ≤ 2 * n + d := mod_cast above
    have below' : (2 * n : ℚ) ≤ 2 * (r * d) + d := mod_cast below
    have upper : (n / d : ℚ) ≤ r + 1 / 2 := by
      rw [div_le_iff₀ positive]
      linarith
    have lower : r - 1 / 2 ≤ (n / d : ℚ) := by
      rw [le_div_iff₀ positive]
      linarith
    rw [abs_le]
    constructor <;> linarith
  by_cases same : r = m
  · rw [same]
  have apart : (1 : ℚ) ≤ |(r : ℚ) - m| := by
    have distinct : ((r : ℤ) - m) ≠ 0 := by omega
    exact_mod_cast Int.one_le_abs distinct
  have detour := abs_sub_le (r : ℚ) (n / d) m
  rw [abs_sub_comm (r : ℚ) (n / d)] at detour
  linarith

/-- A number of units that 53 bits are enough for. -/
def IsPrecise (units : Nat) : Prop :=
  ∃ m k, m < 2 ^ 53 ∧ units = m * 2 ^ k

theorem isPrecise_mul_pow {m : Nat} (h : m ≤ 2 ^ 53) (k : Nat) : IsPrecise (m * 2 ^ k) := by
  rcases Nat.lt_or_eq_of_le h with less | full
  · exact ⟨m, k, less, rfl⟩
  · refine ⟨1, 53 + k, by decide, ?_⟩
    rw [full, Nat.pow_add, Nat.one_mul]

theorem lt_pow_lastBit (units : Nat) : units < 2 ^ 53 * 2 ^ lastBit units := by
  rw [← Nat.pow_add]
  refine Nat.lt_of_lt_of_le Nat.lt_log2_self (Nat.pow_le_pow_right (by decide) ?_)
  unfold lastBit
  omega

/-- Where bits are lost, all 53 are taken. -/
theorem pow_lastBit_le {units : Nat} (h : 0 < lastBit units) : 2 ^ 52 * 2 ^ lastBit units ≤ units := by
  have positive : units ≠ 0 := by
    rintro rfl
    exact absurd h (by decide)
  rw [← Nat.pow_add]
  refine Nat.le_trans (Nat.pow_le_pow_right (by decide) ?_) (Nat.log2_self_le positive)
  unfold lastBit at h ⊢
  omega

/-- What a fraction is rounded to is precise. -/
theorem isPrecise_roundUnits (n d : Nat) : IsPrecise (roundUnits n d) := by
  have floor := lt_pow_lastBit (n / d)
  simp only [roundUnits, Nat.pow_eq]
  generalize lastBit (n / d) = k at *
  have bits : n / (d * 2 ^ k) < 2 ^ 53 := by
    rwa [← Nat.div_div_eq_div_mul, Nat.div_lt_iff_lt_mul (Nat.two_pow_pos _)]
  refine isPrecise_mul_pow ?_ k
  simp only [roundQuotient]
  split
  · omega
  split <;> omega

section

variable {n d : Nat} (hd : 0 < d)

include hd

/-- No multiple of the last unit is nearer than the one that a fraction is rounded to. -/
theorem roundUnits_nearest_multiple (m : Nat) :
    |(n / d : ℚ) - roundUnits n d| ≤ |(n / d : ℚ) - (m * 2 ^ lastBit (n / d) : Nat)| := by
  simp only [roundUnits, Nat.pow_eq]
  have unit : 0 < 2 ^ lastBit (n / d) := Nat.two_pow_pos _
  generalize 2 ^ lastBit (n / d) = w at *
  have hw : (0 : ℚ) < w := Nat.cast_pos.2 unit
  have scaled (r : Nat) : |(n / d : ℚ) - (r * w : Nat)| = |(n / (d * w : Nat) : ℚ) - r| * w := by
    have parts : (n / d : ℚ) - (r * w : Nat) = (n / (d * w : Nat) - r) * w := by
      rw [sub_mul, Nat.cast_mul, Nat.cast_mul, div_mul_eq_mul_div, mul_div_mul_right _ _ hw.ne']
    rw [parts, abs_mul, Nat.abs_cast]
  rw [scaled, scaled]
  exact mul_le_mul_of_nonneg_right (roundQuotient_nearest (Nat.mul_pos hd unit) m) hw.le

/-- No number of units that is precise is nearer than the one that a fraction is rounded to. -/
theorem roundUnits_nearest {v : Nat} (hv : IsPrecise v) :
    |(n / d : ℚ) - roundUnits n d| ≤ |(n / d : ℚ) - v| := by
  obtain ⟨m, k, hm, rfl⟩ := hv
  rcases Nat.lt_or_ge k (lastBit (n / d)) with coarse | fine
  · -- What has bits behind the last unit lies below the leading bit, which is itself a multiple.
    have below : m * 2 ^ k ≤ 2 ^ 52 * 2 ^ lastBit (n / d) :=
      calc m * 2 ^ k ≤ 2 ^ 53 * 2 ^ k := Nat.mul_le_mul_right _ hm.le
        _ = 2 ^ 52 * 2 ^ (k + 1) := by omega
        _ ≤ 2 ^ 52 * 2 ^ lastBit (n / d) :=
          Nat.mul_le_mul_left _ (Nat.pow_le_pow_right (by decide) coarse)
    have lead : ((2 ^ 52 * 2 ^ lastBit (n / d) : Nat) : ℚ) ≤ n / d :=
      (Nat.cast_le.2 (pow_lastBit_le (Nat.zero_lt_of_lt coarse))).trans Nat.cast_div_le
    have below' : ((m * 2 ^ k : Nat) : ℚ) ≤ (2 ^ 52 * 2 ^ lastBit (n / d) : Nat) :=
      Nat.cast_le.2 below
    have near := roundUnits_nearest_multiple (n := n) hd (2 ^ 52)
    rw [abs_of_nonneg (sub_nonneg.2 lead)] at near
    rw [abs_of_nonneg (sub_nonneg.2 (below'.trans lead))]
    linarith
  · have multiple : m * 2 ^ k = m * 2 ^ (k - lastBit (n / d)) * 2 ^ lastBit (n / d) := by
      rw [Nat.mul_assoc, ← Nat.pow_add, Nat.sub_add_cancel fine]
    rw [multiple]
    exact roundUnits_nearest_multiple hd _

end

/-! ## Places -/

/-- The number of units that is nearest to a number. -/
def nearest (x : ℚ) : Int :=
  signed (decide (x < 0)) (roundUnits (x.num.natAbs * one) x.den)

/-- The place of the double that is nearest to a number. -/
def place (x : ℚ) : Int :=
  max (-overflow) (min (nearest x) overflow)

theorem abs_eq_div (x : ℚ) : |x| = x.num.natAbs / x.den := by
  rw [Rat.abs_def, Rat.divInt_eq_div]
  rfl

theorem isPrecise_nearest (x : ℚ) : IsPrecise (nearest x).natAbs := by
  have units : (nearest x).natAbs = roundUnits (x.num.natAbs * one) x.den := by
    rw [nearest, signed]
    split <;> omega
  rw [units]
  exact isPrecise_roundUnits _ _

/-- No number of units that is precise is nearer to a number. -/
theorem nearest_le (x : ℚ) {v : Int} (hv : IsPrecise v.natAbs) :
    |x * one - nearest x| ≤ |x * one - v| := by
  have size : |x| * one = (x.num.natAbs * one : Nat) / (x.den : ℚ) := by
    rw [abs_eq_div, Nat.cast_mul, div_mul_eq_mul_div]
  have size' : |x| * one = |x * one| := by rw [abs_mul, Nat.abs_cast]
  have side : |x * one - nearest x| = abs (|x| * one - roundUnits (x.num.natAbs * one) x.den) := by
    rw [nearest, signed]
    by_cases below : x < 0
    · rw [decide_eq_true below, if_pos rfl, abs_of_neg below, ← abs_neg]
      push_cast
      ring_nf
    · rw [decide_eq_false below, if_neg Bool.false_ne_true, abs_of_nonneg (not_lt.1 below),
        Int.cast_natCast]
  calc |x * one - nearest x| = abs (|x| * one - roundUnits (x.num.natAbs * one) x.den) := side
    _ ≤ abs (|x| * one - v.natAbs) := by
      rw [size]
      exact roundUnits_nearest x.den_pos hv
    _ = abs (|x * one| - |(v : ℚ)|) := by rw [size', Nat.cast_natAbs, Int.cast_abs]
    _ ≤ |x * one - v| := abs_abs_sub_abs_le_abs_sub ..

/-- What is as near to the second of two points as to the first lies behind the middle. -/
theorem add_le_of_abs_le {p q z : ℚ} (apart : p < q) (near : |z - q| ≤ |z - p|) : p + q ≤ 2 * z := by
  by_contra before
  rw [abs_of_neg (by linarith : z - q < 0), le_abs] at near
  rcases near with near | near <;> linarith

theorem le_add_of_abs_le {p q z : ℚ} (apart : p < q) (near : |z - p| ≤ |z - q|) : 2 * z ≤ p + q := by
  by_contra behind
  rw [abs_of_pos (by linarith : 0 < z - p), le_abs] at near
  rcases near with near | near <;> linarith

/-- The order of two numbers is not turned around. -/
theorem nearest_mono {x y : ℚ} (h : x ≤ y) : nearest x ≤ nearest y := by
  by_contra turned
  have apart : (nearest y : ℚ) < nearest x := Int.cast_lt.2 (not_le.1 turned)
  have behind := add_le_of_abs_le apart (nearest_le x (isPrecise_nearest y))
  have before := le_add_of_abs_le apart (nearest_le y (isPrecise_nearest x))
  have unit : (0 : ℚ) < one := Nat.cast_pos.2 one_pos
  have same : x = y := by
    refine le_antisymm h (le_of_mul_le_mul_right ?_ unit)
    linarith
  rw [same] at apart
  exact lt_irrefl _ apart

theorem place_mono {x y : ℚ} (h : x ≤ y) : place x ≤ place y :=
  max_le_max (le_refl _) (min_le_min (nearest_mono h) (le_refl _))

/-- The nearest number of units goes by the value of a fraction and its sign. -/
theorem nearest_div (negative : Bool) {n d : Nat} (hn : 0 < n) (hd : 0 < d) :
    nearest (signed negative n / d) = signed negative (roundUnits (n * one) d) := by
  have hn' : (0 : ℚ) < n := Nat.cast_pos.2 hn
  have hd' : (0 : ℚ) < d := Nat.cast_pos.2 hd
  have sign : decide ((signed negative n / d : ℚ) < 0) = negative := by
    have lt : (signed negative n / d : ℚ) < 0 ↔ negative = true := by
      rw [div_lt_iff₀ hd', zero_mul]
      cases negative <;> simp [signed, hn']
    simp [lt]
  have size : |(signed negative n / d : ℚ)| = n / d := by
    rw [abs_div, Nat.abs_cast]
    cases negative <;> simp [signed]
  rw [nearest, sign]
  generalize (signed negative n / d : ℚ) = x at *
  have same : x.num.natAbs * d = n * x.den := by
    rw [abs_eq_div, div_eq_div_iff (Nat.cast_ne_zero.2 x.den_ne_zero) hd'.ne'] at size
    exact_mod_cast size
  rw [roundUnits_congr x.den_pos hd]
  rw [Nat.mul_right_comm, same, Nat.mul_right_comm]

theorem signed_min (negative : Bool) (units far : Nat) :
    signed negative (min units far) = max (-(far : Int)) (min (signed negative units) far) := by
  cases negative <;> simp only [signed, if_true, Bool.false_eq_true, if_false] <;> omega

theorem position?_ofQuotient (negative : Bool) {n d : Nat} (hn : 0 < n) (hd : 0 < d) :
    (ofQuotient negative n d).position? = some (place (signed negative n / d)) := by
  rw [place, nearest_div negative hn hd, ← signed_min]
  rcases Nat.lt_or_ge (roundUnits (n * one) d) overflow with fits | large
  · have read : ofQuotient negative n d = finite negative (roundUnits (n * one) d) := by
      rw [ofQuotient]
      exact if_neg (Nat.not_le.2 fits)
    rw [read, Nat.min_eq_left (Nat.le_of_lt fits)]
    rfl
  · have read : ofQuotient negative n d = infinity negative := by
      rw [ofQuotient]
      exact if_pos large
    rw [read, Nat.min_eq_right large]
    rfl

theorem nearest_intCast {m : Int} (h : m.natAbs ≤ 2 ^ 53) : nearest m = m * one := by
  have precise : IsPrecise (m * one).natAbs := by
    rw [Int.natAbs_mul, Int.natAbs_natCast, one_eq]
    exact isPrecise_mul_pow h 1074
  have near := nearest_le m precise
  rw [Int.cast_mul, Int.cast_natCast, sub_self, abs_zero] at near
  have same := sub_eq_zero.1 (abs_nonpos_iff.1 near)
  exact_mod_cast same.symm

/-- A whole number that is a double is in its own place. -/
theorem place_intCast {m : Int} (h : m.natAbs ≤ 2 ^ 53) : place m = m * one := by
  have near : (m * one).natAbs ≤ overflow := by
    have room : 53 + 1074 ≤ 2098 := by decide
    rw [Int.natAbs_mul, Int.natAbs_natCast, one_eq, overflow_eq]
    generalize 1074 = k at *
    generalize 2098 = l at *
    calc m.natAbs * 2 ^ k ≤ 2 ^ 53 * 2 ^ k := Nat.mul_le_mul_right _ h
      _ = 2 ^ (53 + k) := (Nat.pow_add ..).symm
      _ ≤ 2 ^ l := Nat.pow_le_pow_right (by decide) room
  rw [place, nearest_intCast h]
  generalize m * one = units at *
  generalize overflow = far at *
  omega

/-- A decimal number is read as the double that is nearest to it. -/
theorem position?_ofDecimal (negative : Bool) (digits : Nat) (exponent : Int) :
    (ofDecimal negative digits exponent).position? =
      some (place (signed negative digits * 10 ^ exponent)) := by
  rcases Nat.eq_zero_or_pos digits with rfl | positive
  · have zero : signed negative 0 = 0 := by cases negative <;> rfl
    have centre : place (0 : Int) = (0 : Int) * one := place_intCast (by decide)
    rw [Int.zero_mul] at centre
    rw [zero, Int.cast_zero, zero_mul, ← Int.cast_zero, centre, ofDecimal, if_pos rfl, position?, zero]
  · have places : (10 ^ exponent : ℚ) = 10 ^ exponent.toNat / 10 ^ (-exponent).toNat := by
      rw [← zpow_natCast, ← zpow_natCast, ← zpow_sub₀ (by decide)]
      congr 1
      omega
    have value : (signed negative digits * 10 ^ exponent : ℚ) =
        signed negative (digits * 10 ^ exponent.toNat) / (10 ^ (-exponent).toNat : Nat) := by
      rw [places, mul_div_assoc']
      cases negative <;> simp [signed]
    rw [ofDecimal_eq negative (Nat.ne_of_gt positive), value]
    exact position?_ofQuotient negative (Nat.mul_pos positive (Nat.pow_pos (by decide)))
      (Nat.pow_pos (by decide))

end Gatekeeper.Number.Double

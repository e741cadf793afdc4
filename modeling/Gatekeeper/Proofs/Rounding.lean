import Gatekeeper.Number.Double
import Mathlib.Tactic.Ring

/-!
# Rounding

A fraction is rounded by its value alone, and one that is near enough to a double is rounded to it. A
decimal number is what its digits and its exponent say, also where it is not written out: zeros at the
end of the digits count as much as a greater exponent.
-/
namespace Gatekeeper.Number.Double

/-! ## Quotients -/

theorem roundQuotient_mul {k : Nat} (hk : 0 < k) (n d : Nat) :
    roundQuotient (n * k) (d * k) = roundQuotient n d := by
  have less (a b : Nat) : a * k < b * k ↔ a < b := Nat.mul_lt_mul_right hk
  simp only [roundQuotient, Nat.mul_div_mul_right _ _ hk, Nat.mul_mod_mul_right, ← Nat.mul_assoc, less]

/-- A quotient that is nearer than a half to a whole number is rounded to it. -/
theorem roundQuotient_eq {n d m : Nat} (above : 2 * n < (2 * m + 1) * d)
    (below : 2 * m * d < 2 * n + d) : roundQuotient n d = m := by
  have positive : 0 < d := by
    rcases Nat.eq_zero_or_pos d with rfl | h
    · omega
    · exact h
  have whole := Nat.div_add_mod n d
  have small : n % d < d := Nat.mod_lt n positive
  rw [Nat.add_mul, Nat.mul_assoc, Nat.one_mul] at above
  rw [Nat.mul_assoc] at below
  simp only [roundQuotient]
  generalize n / d = q at *
  generalize n % d = r at *
  have atMost : q ≤ m := by
    by_contra h
    have : (m + 1) * d ≤ q * d := Nat.mul_le_mul_right d (by omega)
    rw [Nat.add_mul, Nat.mul_comm q] at this
    omega
  have atLeast : m ≤ q + 1 := by
    by_contra h
    have : (q + 2) * d ≤ m * d := Nat.mul_le_mul_right d (by omega)
    rw [Nat.add_mul, Nat.mul_comm q] at this
    omega
  rcases (show m = q ∨ m = q + 1 by omega) with rfl | rfl
  · rw [Nat.mul_comm m] at above
    rw [if_pos (by omega)]
  · rw [Nat.add_mul, Nat.mul_comm q] at below
    rw [if_neg (by omega), if_pos (by omega)]

/-- A quotient is not farther than a half from what it is rounded to. -/
theorem roundQuotient_near {n d : Nat} (hd : 0 < d) :
    2 * (roundQuotient n d * d) ≤ 2 * n + d ∧ 2 * n ≤ 2 * (roundQuotient n d * d) + d := by
  have whole := Nat.div_add_mod n d
  have small : n % d < d := Nat.mod_lt n hd
  simp only [roundQuotient]
  generalize n / d = q at *
  generalize n % d = r at *
  rw [Nat.mul_comm d q] at whole
  split
  · omega
  split
  · rw [Nat.add_mul]
    omega
  · rcases Nat.mod_two_eq_zero_or_one q with even | odd
    · rw [even, Nat.add_zero]
      omega
    · rw [odd, Nat.add_mul]
      omega

theorem roundUnits_mul {k : Nat} (hk : 0 < k) (n d : Nat) :
    roundUnits (n * k) (d * k) = roundUnits n d := by
  simp only [roundUnits, Nat.mul_div_mul_right _ _ hk]
  rw [Nat.mul_right_comm d k, roundQuotient_mul hk]

/-- Rounding goes by the value of a fraction alone. -/
theorem roundUnits_congr {n d n' d' : Nat} (hd : 0 < d) (hd' : 0 < d') (h : n * d' = n' * d) :
    roundUnits n d = roundUnits n' d' := by
  rw [← roundUnits_mul hd' n d, ← roundUnits_mul hd n' d', h, Nat.mul_comm d d']

theorem roundUnits_eq_zero {n d : Nat} (h : 2 * n < d) : roundUnits n d = 0 := by
  have none : n / d = 0 := Nat.div_eq_of_lt (by omega)
  have quotient : roundQuotient n d = 0 := roundQuotient_eq (by omega) (by omega)
  rw [roundUnits, none]
  show roundQuotient n (d * 1) * 1 = 0
  rw [Nat.mul_one, Nat.mul_one, quotient]

theorem div_le_roundQuotient (n d : Nat) : n / d ≤ roundQuotient n d := by
  simp only [roundQuotient]
  split
  · exact Nat.le_refl _
  split
  · exact Nat.le_succ _
  · exact Nat.le_add_right ..

/-- What is not below a power of two is not rounded below it. -/
theorem pow_le_roundUnits {n d k : Nat} (h : 2 ^ k ≤ n / d) : 2 ^ k ≤ roundUnits n d := by
  have positive : n / d ≠ 0 := fun he => by
    rw [he] at h
    exact absurd h (by simp)
  have floor : k ≤ (n / d).log2 := (Nat.le_log2 positive).2 h
  have lead : 2 ^ (n / d).log2 ≤ n / d := Nat.log2_self_le positive
  simp only [roundUnits, lastBit, Nat.pow_eq]
  generalize (n / d).log2 = l at *
  have parts : 2 ^ (l - (l - 52)) * 2 ^ (l - 52) = 2 ^ l := by
    rw [← Nat.pow_add]
    congr 1
    omega
  have kept : 2 ^ (l - (l - 52)) ≤ roundQuotient n (d * 2 ^ (l - 52)) := by
    refine Nat.le_trans ?_ (div_le_roundQuotient ..)
    rw [← Nat.div_div_eq_div_mul, Nat.le_div_iff_mul_le (Nat.two_pow_pos _), parts]
    exact lead
  calc 2 ^ k ≤ 2 ^ l := Nat.pow_le_pow_right (by decide) floor
    _ = 2 ^ (l - (l - 52)) * 2 ^ (l - 52) := parts.symm
    _ ≤ _ := Nat.mul_le_mul_right _ kept

/-! ## Decimal numbers -/

theorem ofQuotient_congr (negative : Bool) {n d n' d' : Nat} (hd : 0 < d) (hd' : 0 < d')
    (h : n * d' = n' * d) : ofQuotient negative n d = ofQuotient negative n' d' := by
  have same : roundUnits (n * one) d = roundUnits (n' * one) d' :=
    roundUnits_congr hd hd' (by rw [Nat.mul_right_comm, h, Nat.mul_right_comm])
  rw [ofQuotient, ofQuotient, same]

theorem one_eq : one = 2 ^ 1074 := by
  unfold one
  generalize 1074 = k
  rfl

theorem overflow_eq : overflow = 2 ^ 2098 := by
  unfold overflow
  generalize 2098 = k
  rfl

theorem one_pos : 0 < one := by
  rw [one_eq]
  generalize 1074 = k
  exact Nat.two_pow_pos k

theorem overflow_pos : 0 < overflow := by
  rw [overflow_eq]
  generalize 2098 = k
  exact Nat.two_pow_pos k

theorem ofQuotient_large (negative : Bool) {n d : Nat} (hd : 0 < d) (h : 2 ^ 1024 * d ≤ n) :
    ofQuotient negative n d = infinity negative := by
  have split : (2 : Nat) ^ 2098 = 2 ^ 1024 * 2 ^ 1074 := by rw [← Nat.pow_add]
  have far : 2 ^ 2098 ≤ n * one / d := by
    rw [Nat.le_div_iff_mul_le hd, split, one_eq, Nat.mul_right_comm]
    exact Nat.mul_le_mul_right _ h
  have rounded : overflow ≤ roundUnits (n * one) d := by
    rw [overflow_eq]
    exact pow_le_roundUnits far
  rw [ofQuotient]
  exact if_pos rounded

theorem ofQuotient_small (negative : Bool) {n d : Nat} (h : 2 * (n * one) < d) :
    ofQuotient negative n d = finite negative 0 := by
  have near : ¬overflow ≤ 0 := Nat.not_le.2 overflow_pos
  simp only [ofQuotient, roundUnits_eq_zero h, if_neg near]

/-- A power of ten has more than three bits for each of its zeros. -/
theorem pow_le_pow_ten {bits k : Nat} (h : bits ≤ 3 * k) : 2 ^ bits ≤ 10 ^ k :=
  calc 2 ^ bits ≤ 2 ^ (3 * k) := Nat.pow_le_pow_right (by decide) h
    _ = (2 ^ 3) ^ k := Nat.pow_mul ..
    _ ≤ 10 ^ k := Nat.pow_le_pow_left (by decide) k

theorem pow_le_pow_ten_add {bits l k : Nat} (h : bits ≤ 3 * l + 13 * k) :
    2 ^ bits ≤ 10 ^ (l + 4 * k) :=
  calc 2 ^ bits ≤ 2 ^ (3 * l + 13 * k) := Nat.pow_le_pow_right (by decide) h
    _ = 2 ^ (3 * l) * (2 ^ 13) ^ k := by rw [Nat.pow_add, Nat.pow_mul 2 13]
    _ ≤ 10 ^ l * (10 ^ 4) ^ k :=
      Nat.mul_le_mul (pow_le_pow_ten (Nat.le_refl _)) (Nat.pow_le_pow_left (by decide) k)
    _ = 10 ^ (l + 4 * k) := by rw [Nat.pow_add, Nat.pow_mul 10 4]

/-- The numbers that are not written out are among those that overflow or vanish. -/
theorem ofDecimal_eq (negative : Bool) {digits : Nat} (h : digits ≠ 0) (exponent : Int) :
    ofDecimal negative digits exponent =
      ofQuotient negative (digits * 10 ^ exponent.toNat) (10 ^ (-exponent).toNat) := by
  rw [ofDecimal, if_neg h]
  split
  · next large =>
    have places : (-exponent).toNat = 0 := by omega
    have far : 2 ^ 1024 ≤ 10 ^ exponent.toNat := pow_le_pow_ten (by omega)
    rw [places, ofQuotient_large negative (by decide)]
    rw [Nat.pow_zero, Nat.mul_one]
    exact Nat.le_trans far (Nat.le_mul_of_pos_left _ (Nat.pos_of_ne_zero h))
  · split
    · next small =>
      have places : exponent.toNat = 0 := by omega
      have bits : digits < 2 ^ (digits.log2 + 1) := Nat.lt_log2_self
      have near : 2 * (2 ^ (digits.log2 + 1) * one) ≤ 10 ^ (-exponent).toNat :=
        calc 2 * (2 ^ (digits.log2 + 1) * one) = 2 ^ (digits.log2 + 1 + 1074 + 1) := by
              rw [one_eq, ← Nat.pow_add, ← Nat.pow_succ']
          _ ≤ 10 ^ (digits.log2 + 4 * 83) := pow_le_pow_ten_add (by omega)
          _ ≤ 10 ^ (-exponent).toNat := Nat.pow_le_pow_right (by decide) (by omega)
      rw [places, ofQuotient_small negative]
      rw [Nat.pow_zero, Nat.mul_one]
      refine Nat.lt_of_lt_of_le (Nat.mul_lt_mul_of_pos_left ?_ (by decide)) near
      exact Nat.mul_lt_mul_of_pos_right bits one_pos
    · rfl

/-- Zeros at the end of the digits count as much as a greater exponent. -/
theorem ofDecimal_mul (negative : Bool) (digits zeros : Nat) (exponent : Int) :
    ofDecimal negative (digits * 10 ^ zeros) exponent =
      ofDecimal negative digits (exponent + zeros) := by
  by_cases h : digits = 0
  · rw [h, Nat.zero_mul, ofDecimal, if_pos rfl, ofDecimal, if_pos rfl]
  · have h' : digits * 10 ^ zeros ≠ 0 := Nat.mul_ne_zero h (Nat.ne_of_gt (Nat.pow_pos (by decide)))
    rw [ofDecimal_eq negative h, ofDecimal_eq negative h']
    refine ofQuotient_congr negative (Nat.pow_pos (by decide)) (Nat.pow_pos (by decide)) ?_
    have places : zeros + exponent.toNat + (-(exponent + zeros)).toNat =
        (exponent + zeros).toNat + (-exponent).toNat := by omega
    calc digits * 10 ^ zeros * 10 ^ exponent.toNat * 10 ^ (-(exponent + zeros)).toNat
        = digits * 10 ^ (zeros + exponent.toNat + (-(exponent + zeros)).toNat) := by
          rw [Nat.pow_add, Nat.pow_add]
          ring
      _ = digits * 10 ^ (exponent + zeros).toNat * 10 ^ (-exponent).toNat := by
          rw [places, Nat.pow_add]
          ring

/-- A sign changes nothing but the sign. -/
theorem ofDecimal_negative {digits units : Nat} {exponent : Int} (negative : Bool)
    (h : ofDecimal false digits exponent = .finite false units) :
    ofDecimal negative digits exponent = .finite negative units := by
  rw [ofDecimal] at h ⊢
  split
  · next none =>
    rw [if_pos none] at h
    rw [(finite.inj h).2]
  next some =>
  rw [if_neg some] at h
  split
  · next far =>
    rw [if_pos far] at h
    cases h
  next near =>
  rw [if_neg near] at h
  split
  · next vanishes =>
    rw [if_pos vanishes] at h
    rw [(finite.inj h).2]
  next lasts =>
  simp only [if_neg lasts, ofQuotient] at h ⊢
  split at h
  · cases h
  · next fits => rw [if_neg fits, (finite.inj h).2]

/-! ## Nearest doubles -/

/-- A number of units that is a double: it is not too large and has at most 53 bits. -/
structure IsDouble (units : Nat) : Prop where
  small : units < overflow
  bits : 2 ^ lastBit units ∣ units

theorem add_le_of_dvd {w m n : Nat} (hm : w ∣ m) (hn : w ∣ n) (h : m < n) : m + w ≤ n := by
  obtain ⟨a, rfl⟩ := hm
  obtain ⟨b, rfl⟩ := hn
  have less : a < b := Nat.lt_of_mul_lt_mul_left h
  calc w * a + w = w * (a + 1) := (Nat.mul_succ w a).symm
    _ ≤ w * b := Nat.mul_le_mul_left w less

section

variable {u n d : Nat} (bits : 2 ^ lastBit u ∣ u) (above : n * 2 ^ 54 < u * d * (2 ^ 54 + 1))
  (below : u * d * (2 ^ 54 - 1) < n * 2 ^ 54)

include bits above in
/-- What is as near to a double as that has no bit in front of it. -/
theorem log2_div_le : (n / d).log2 ≤ u.log2 := by
  have positive : u ≠ 0 := by
    rintro rfl
    rw [Nat.zero_mul, Nat.zero_mul] at above
    exact Nat.not_lt_zero _ above
  have last : lastBit u ≤ u.log2 + 1 := by
    unfold lastBit
    omega
  have room : u + 2 ^ lastBit u ≤ 2 ^ (u.log2 + 1) :=
    add_le_of_dvd bits (Nat.pow_dvd_pow 2 last) Nat.lt_log2_self
  have wide : 2 ^ (u.log2 + 1) ≤ 2 ^ lastBit u * 2 ^ 53 := by
    rw [← Nat.pow_add]
    refine Nat.pow_le_pow_right (by decide) ?_
    unfold lastBit
    omega
  have small : n < 2 ^ (u.log2 + 1) * d := by
    have room' := Nat.mul_le_mul_right d room
    have wide' := Nat.mul_le_mul_right d wide
    rw [Nat.add_mul] at room'
    rw [Nat.mul_right_comm] at wide'
    omega
  have floor : n / d < 2 ^ (u.log2 + 1) := by
    have positive : 0 < d := by
      rcases Nat.eq_zero_or_pos d with rfl | h
      · exact absurd small (Nat.not_lt_zero _)
      · exact h
    rwa [Nat.div_lt_iff_lt_mul positive]
  by_cases none : n / d = 0
  · rw [none]
    exact Nat.zero_le _
  · exact Nat.le_of_lt_succ ((Nat.log2_lt none).2 floor)

include bits below in
/-- It has at most one bit less in front. -/
theorem le_pow_log2_div (hd : 0 < d) : u ≤ 2 ^ ((n / d).log2 + 1) := by
  by_contra h
  have more : 2 ^ ((n / d).log2 + 1) < u := Nat.not_le.1 h
  have positive : u ≠ 0 := Nat.ne_of_gt (Nat.lt_of_le_of_lt (Nat.zero_le _) more)
  have floor : n / d < 2 ^ ((n / d).log2 + 1) := Nat.lt_log2_self
  rw [Nat.div_lt_iff_lt_mul hd] at floor
  generalize (n / d).log2 + 1 = l at *
  have lead : l ≤ u.log2 := (Nat.le_log2 positive).2 (Nat.le_of_lt more)
  -- Either there is one more bit in front, or the next double is one unit of the last place away.
  rcases Nat.lt_or_eq_of_le lead with longer | same
  · have twice : 2 ^ (l + 1) ≤ u := (Nat.le_log2 positive).1 longer
    have twice' := Nat.mul_le_mul_right d twice
    rw [Nat.pow_succ, Nat.mul_right_comm] at twice'
    omega
  · have last : lastBit u ≤ l := by
      unfold lastBit
      omega
    have room := Nat.mul_le_mul_right d (add_le_of_dvd (Nat.pow_dvd_pow 2 last) bits more)
    have wide : 2 ^ l ≤ 2 ^ lastBit u * 2 ^ 52 := by
      rw [← Nat.pow_add]
      refine Nat.pow_le_pow_right (by decide) ?_
      unfold lastBit
      omega
    have wide' := Nat.mul_le_mul_right d wide
    rw [Nat.add_mul] at room
    rw [Nat.mul_right_comm] at wide'
    omega

include bits above below in
/-- A fraction that is near enough to a double is rounded to it. -/
theorem roundUnits_of_close (hd : 0 < d) : roundUnits n d = u := by
  have less := log2_div_le bits above
  have most := le_pow_log2_div bits below hd
  have order : lastBit (n / d) ≤ lastBit u := Nat.sub_le_sub_right less 52
  have divides : 2 ^ lastBit (n / d) ∣ u := Nat.dvd_trans (Nat.pow_dvd_pow 2 order) bits
  have room : u ≤ 2 ^ lastBit (n / d) * 2 ^ 53 := by
    rw [← Nat.pow_add]
    refine Nat.le_trans most (Nat.pow_le_pow_right (by decide) ?_)
    unfold lastBit
    omega
  simp only [roundUnits, Nat.pow_eq]
  generalize 2 ^ lastBit (n / d) = unit at *
  obtain ⟨m, rfl⟩ := divides
  have room' := Nat.mul_le_mul_right d room
  rw [Nat.mul_right_comm unit (2 ^ 53)] at room'
  have whole : m * (d * unit) = unit * m * d := by ring
  have quotient : roundQuotient n (d * unit) = m := by
    refine roundQuotient_eq ?_ ?_
    · rw [Nat.add_mul, Nat.mul_assoc, whole, Nat.one_mul]
      rw [Nat.mul_comm d unit]
      omega
    · rw [Nat.mul_assoc, whole, Nat.mul_comm d unit]
      omega
  rw [quotient, Nat.mul_comm]

end

end Gatekeeper.Number.Double

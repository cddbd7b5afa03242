import RequestSchema.Number.Binary64

/-!
# Chances are exact

One divided by a power of two loses nothing when it is rounded to a floating point
number, as long as the power is itself in the range of finite numbers. Small chances
have fewer than 53 bits of mantissa, but their last bit is never cut off.
-/
namespace RequestSchema.Binary64

/-- The number is finite and equals `num / den`. -/
def IsRatio (x : Binary64) (num den : Nat) : Prop :=
  ∃ n d, x.fraction? = some (n, d) ∧ 0 < d ∧ n * den = num * d

theorem exponentOf_half_power (k : Nat) :
    exponentOf 1 (2 ^ k) = max leastExponent (-(k + 52 : Int)) := by
  have guess : (Nat.log2 1 : Int) - Nat.log2 (2 ^ k) - 52 = -(k + 52 : Int) := by
    rw [Nat.log2_two_pow, show Nat.log2 1 = 0 from rfl]
    omega
  have scaled : scaledQuotient 1 (2 ^ k) (-(k + 52 : Int)) = (2 ^ (k + 52), 2 ^ k) := by
    rw [scaledQuotient, if_pos (by omega), Nat.one_mul]
    congr 2
  have full : 2 ^ (k + 52) / 2 ^ k = 2 ^ 52 := by
    rw [Nat.pow_add, Nat.mul_div_cancel_left _ (Nat.two_pow_pos k)]
  simp only [exponentOf, guess, scaled, full, Nat.lt_irrefl, if_false]

theorem nearestQuotient_mul (q : Nat) {den : Nat} (positive : 0 < den) :
    nearestQuotient (q * den) den = q := by
  simp only [nearestQuotient, Nat.mul_div_cancel q positive, Nat.mul_mod_left, Nat.mul_zero,
    if_pos positive]

/-- Rounding `1 / 2 ^ k` keeps the power that is left of `2 ^ t`, where `t` is the
least number of binary places that the format allows. -/
theorem round_half_power (k : Nat) (finite : k < 1024) :
    ∃ t, k ≤ t ∧ round false 1 (2 ^ k) = .finite false (2 ^ (t - k)) (-(t : Int)) := by
  obtain ⟨t, places, enough, few⟩ :
      ∃ t : Nat, exponentOf 1 (2 ^ k) = -(t : Int) ∧ k ≤ t ∧ t - k ≤ 52 := by
    rw [exponentOf_half_power, leastExponent]
    rcases Nat.le_total (k + 52) 1074 with wide | narrow
    · exact ⟨k + 52, by omega, by omega, by omega⟩
    · exact ⟨1074, by omega, by omega, by omega⟩
  refine ⟨t, enough, ?_⟩
  have scaled : scaledQuotient 1 (2 ^ k) (-(t : Int)) = (2 ^ (t - k) * 2 ^ k, 2 ^ k) := by
    rw [← Nat.pow_add, Nat.sub_add_cancel enough, scaledQuotient]
    split
    · rw [Int.natAbs_neg, Int.natAbs_natCast, Nat.one_mul]
    · have none : t = 0 := by omega
      subst none
      rw [Nat.le_zero.mp enough]
      rfl
  have small : 2 ^ (t - k) ≠ 2 ^ 53 :=
    Nat.ne_of_lt (Nat.pow_lt_pow_right (by decide) (Nat.lt_succ_of_le few))
  have inRange : ¬ greatestExponent < -(t : Int) := by
    rw [greatestExponent]
    omega
  simp only [round, places, scaled, nearestQuotient_mul _ (Nat.two_pow_pos k), if_neg small,
    if_neg inRange, Nat.one_ne_zero, if_false]

/-- One divided by a power of two below the greatest finite numbers is exact. -/
theorem isRatio_round_half_power (k : Nat) (finite : k < 1024) :
    IsRatio (round false 1 (2 ^ k)) 1 (2 ^ k) := by
  obtain ⟨t, enough, rounded⟩ := round_half_power k finite
  refine ⟨2 ^ (t - k), 2 ^ t, ?_, Nat.two_pow_pos t, ?_⟩
  · rw [rounded, fraction?, Int.min_eq_left (by omega)]
    simp [unitsAt]
  · push_cast
    rw [← Int.pow_add, Nat.sub_add_cancel enough, Int.one_mul]

end RequestSchema.Binary64

import Mathlib.Algebra.Order.Field.Power
import Mathlib.Data.Rat.Cast.Order
import Mathlib.Tactic.FieldSimp
import Mathlib.Tactic.Linarith
import Mathlib.Tactic.Positivity
import Mathlib.Tactic.Ring
import RequestSchema.Number
import RequestSchema.Proofs.Analysis.Returns

/-!
# The range of floating point numbers

A number is in range if it is finite and has a form of which the range of numbers is made
(`Binary64.Bounded`). Rounding gives a number in range unless the exact value lies beyond the
range by half a unit of the last place (`round_cases`), so numerals, sums with one and quotients
by powers of two are in range or known to be infinite (`bounded_of_float?`, `Bounded.add_unit`,
`Bounded.scale_down`). Numbers in range have integer parts (`Number.truncate_ends` and so on).
-/
namespace RequestSchema

namespace Binary64

/-! ## The exponent of a quotient -/

theorem scaledQuotient_eq (num den : Nat) (e : Int) :
    scaledQuotient num den e = (num * 2 ^ (-e).toNat, den * 2 ^ e.toNat) := by
  unfold scaledQuotient
  split
  · rw [show e.natAbs = (-e).toNat by omega, show e.toNat = 0 by omega, Nat.pow_zero, Nat.mul_one]
  · rw [show e.natAbs = e.toNat by omega, show (-e).toNat = 0 by omega, Nat.pow_zero, Nat.mul_one]

/-- A power of two is what the positive part of its exponent makes of the negative part. -/
theorem zpow_eq (e : Int) : (2 : ℚ) ^ e * 2 ^ (-e).toNat = 2 ^ e.toNat := by
  rw [← zpow_natCast, ← zpow_natCast, ← zpow_add₀ (by norm_num)]
  congr 1
  omega

/-- Comparing the parts of a quotient is comparing the quotient. -/
theorem scaled_lt_iff (num den c : Nat) (e : Int) :
    num * 2 ^ (-e).toNat < c * (den * 2 ^ e.toNat) ↔ (num : ℚ) < c * den * 2 ^ e := by
  have positive : (0 : ℚ) < 2 ^ (-e).toNat := by positivity
  have scaled : (num : ℚ) * 2 ^ (-e).toNat < c * den * 2 ^ e * 2 ^ (-e).toNat ↔
      (num : ℚ) < c * den * 2 ^ e := mul_lt_mul_iff_left₀ positive
  rw [← scaled, mul_assoc (_ * _ : ℚ), zpow_eq, mul_assoc]
  norm_cast

/-- At an exponent, the number has a mantissa of 53 bits. -/
structure FitsAt (num den : Nat) (e : Int) : Prop where
  below : (num : ℚ) < 2 ^ 53 * den * 2 ^ e
  above : 2 ^ 52 * den * 2 ^ e ≤ (num : ℚ)

/-- The first guess from the bits of both parts is at most one too large. -/
theorem guess_bounds {num den : Nat} (nonzero : num ≠ 0) (positive : 0 < den) :
    (num : ℚ) < 2 ^ 53 * den * 2 ^ ((num.log2 : Int) - den.log2 - 52) ∧
      2 ^ 51 * den * 2 ^ ((num.log2 : Int) - den.log2 - 52) ≤ (num : ℚ) := by
  have num_below : (num : ℚ) < 2 ^ (num.log2 + 1) := by exact_mod_cast Nat.lt_log2_self
  have num_above : (2 : ℚ) ^ num.log2 ≤ num := by exact_mod_cast Nat.log2_self_le nonzero
  have den_below : (den : ℚ) < 2 ^ (den.log2 + 1) := by exact_mod_cast Nat.lt_log2_self
  have den_above : (2 : ℚ) ^ den.log2 ≤ den := by
    exact_mod_cast Nat.log2_self_le (Nat.pos_iff_ne_zero.mp positive)
  generalize named : (num.log2 : Int) - den.log2 - 52 = guess
  have num_power : (2 : ℚ) ^ num.log2 = 2 ^ 52 * 2 ^ den.log2 * 2 ^ guess := by
    rw [← zpow_natCast, ← zpow_natCast 2 52, ← zpow_natCast, ← zpow_add₀ two_ne_zero,
      ← zpow_add₀ two_ne_zero]
    congr 1
    push_cast
    omega
  have unit : (0 : ℚ) < 2 ^ guess := by positivity
  constructor
  · rw [pow_succ, num_power] at num_below
    nlinarith
  · rw [pow_succ] at den_below
    rw [num_power] at num_above
    nlinarith

/-- The exponent is one at which the mantissa has 53 bits, or a larger one that is the least. -/
theorem exponentOf_eq_max {num den : Nat} (nonzero : num ≠ 0) (positive : 0 < den) :
    ∃ e, FitsAt num den e ∧ exponentOf num den = max leastExponent e := by
  obtain ⟨below, above⟩ := guess_bounds nonzero positive
  unfold exponentOf
  simp only [scaledQuotient_eq]
  generalize (num.log2 : Int) - den.log2 - 52 = guess at below above ⊢
  have few : num * 2 ^ (-guess).toNat / (den * 2 ^ guess.toNat) < 2 ^ 52 ↔
      (num : ℚ) < 2 ^ 52 * den * 2 ^ guess := by
    rw [Nat.div_lt_iff_lt_mul (by positivity), scaled_lt_iff]
    norm_cast
  have halved : (2 : ℚ) ^ guess = 2 * 2 ^ (guess - 1) := by
    rw [← zpow_one_add₀ two_ne_zero]
    congr 1
    omega
  by_cases short : num * 2 ^ (-guess).toNat / (den * 2 ^ guess.toNat) < 2 ^ 52
  · rw [if_pos short]
    have less := few.mp short
    rw [halved] at less above
    exact ⟨guess - 1, ⟨by linarith, by linarith⟩, rfl⟩
  · rw [if_neg short]
    have enough := le_of_not_gt (mt few.mpr short)
    exact ⟨guess, ⟨below, enough⟩, rfl⟩

/-- A mantissa of 53 bits at one exponent has no more bits at a larger one. -/
theorem FitsAt.below_of_le {num den : Nat} {e e' : Int} (fits : FitsAt num den e) (le : e ≤ e') :
    (num : ℚ) < 2 ^ 53 * den * 2 ^ e' := by
  have power : (2 : ℚ) ^ e ≤ 2 ^ e' := zpow_le_zpow_right₀ one_le_two le
  refine lt_of_lt_of_le fits.below ?_
  exact mul_le_mul_of_nonneg_left power (by positivity)

/-! ## Rounding -/

/-- The number is finite, and its mantissa and exponent are in range. -/
def Bounded : Binary64 → Prop
  | finite _ m e => m < 2 ^ 53 ∧ e ≤ greatestExponent
  | _ => False

/-- A quotient is rounded to one of its neighbours. -/
theorem nearestQuotient_le (num den : Nat) : nearestQuotient num den ≤ num / den + 1 := by
  unfold nearestQuotient
  dsimp only
  split
  · omega
  · split
    · have := Nat.mod_lt (num / den) two_pos
      omega
    · omega

/-- A quotient that is rounded up lies in the upper half. -/
theorem le_of_nearestQuotient {num den q : Nat} (less : num / den < q)
    (rounded : nearestQuotient num den = q) : (2 * q - 1) * den ≤ 2 * num := by
  have split := Nat.div_add_mod num den
  unfold nearestQuotient at rounded
  dsimp only at rounded
  split at rounded
  · omega
  · rename_i upper
    have next : q = num / den + 1 := by
      split at rounded
      · have := Nat.mod_lt (num / den) two_pos
        omega
      · omega
    rw [next]
    have upper' : den ≤ 2 * (num % den) := Nat.le_of_not_lt upper
    calc (2 * (num / den + 1) - 1) * den = 2 * (den * (num / den)) + den := by
          rw [show 2 * (num / den + 1) - 1 = 2 * (num / den) + 1 by omega]
          ring
      _ ≤ 2 * (den * (num / den)) + 2 * (num % den) := by omega
      _ = 2 * num := by omega

/-- From this number on, halfway to the next power of two, numbers are rounded to infinity. -/
def overflow : ℚ := (2 ^ 54 - 1) * 2 ^ (970 : Int)

/-- A mantissa that carries over at a large exponent belongs to a number that is too large. -/
theorem overflow_le_of_carried {num den : Nat} {e : Int} (large : greatestExponent ≤ e)
    (upper : (2 * 2 ^ 53 - 1) * (den * 2 ^ e.toNat) ≤ 2 * (num * 2 ^ (-e).toNat)) :
    overflow * den ≤ (num : ℚ) := by
  rw [← Nat.mul_assoc 2, ← Nat.not_lt, scaled_lt_iff, not_lt] at upper
  push_cast at upper
  have halved : (2 : ℚ) ^ e = 2 * 2 ^ (e - 1) := by
    rw [← zpow_one_add₀ two_ne_zero]
    congr 1
    omega
  have power : (2 : ℚ) ^ (970 : Int) ≤ 2 ^ (e - 1) := by
    refine zpow_le_zpow_right₀ one_le_two ?_
    unfold greatestExponent at large
    omega
  have nonneg : (0 : ℚ) ≤ den := Nat.cast_nonneg den
  have scaled := mul_le_mul_of_nonneg_right power nonneg
  rw [halved] at upper
  unfold overflow
  linarith

/-- So does a mantissa of 53 bits at an exponent that is too large. -/
theorem FitsAt.overflow_le {num den : Nat} {e : Int} (fits : FitsAt num den e)
    (large : greatestExponent < e) : overflow * den ≤ (num : ℚ) := by
  have above := fits.above
  have power : (2 : ℚ) ^ (970 : Int) * 2 ^ 2 ≤ 2 ^ e := by
    rw [← zpow_natCast, ← zpow_add₀ two_ne_zero]
    refine zpow_le_zpow_right₀ one_le_two ?_
    unfold greatestExponent at large
    push_cast
    omega
  have nonneg : (0 : ℚ) ≤ den := Nat.cast_nonneg den
  have scaled := mul_le_mul_of_nonneg_right power nonneg
  have unit : (0 : ℚ) ≤ 2 ^ (970 : Int) * den := by positivity
  unfold overflow
  linarith

/-- A quotient is rounded to a number in range, or it is too large for one. -/
theorem round_cases (negative : Bool) (num : Nat) {den : Nat} (positive : 0 < den) :
    (round negative num den).Bounded ∨
      round negative num den = infinite negative ∧ overflow * den ≤ num := by
  unfold round
  by_cases null : num = 0
  · rw [if_pos null]
    exact .inl ⟨by decide, by decide⟩
  · rw [if_neg null]
    simp only [scaledQuotient_eq]
    obtain ⟨fit, fits, largest⟩ := exponentOf_eq_max null positive
    generalize exponentOf num den = e at largest ⊢
    have quotient : num * 2 ^ (-e).toNat / (den * 2 ^ e.toNat) < 2 ^ 53 := by
      have below : (num : ℚ) < 2 ^ 53 * den * 2 ^ e :=
        fits.below_of_le (largest ▸ le_max_right _ _)
      rw [Nat.div_lt_iff_lt_mul (by positivity), scaled_lt_iff]
      exact_mod_cast below
    have mantissa := nearestQuotient_le (num * 2 ^ (-e).toNat) (den * 2 ^ e.toNat)
    by_cases carried :
        nearestQuotient (num * 2 ^ (-e).toNat) (den * 2 ^ e.toNat) = 2 ^ 53
    · simp only [if_pos carried]
      by_cases large : greatestExponent < e + 1
      · rw [if_pos large]
        have upper := le_of_nearestQuotient quotient carried
        exact .inr ⟨rfl, overflow_le_of_carried (Int.lt_add_one_iff.mp large) upper⟩
      · rw [if_neg large]
        exact .inl ⟨by decide, Int.not_lt.mp large⟩
    · simp only [if_neg carried]
      by_cases large : greatestExponent < e
      · rw [if_pos large]
        have same : fit = e := by
          unfold greatestExponent at large
          unfold leastExponent at largest
          omega
        exact .inr ⟨rfl, (same ▸ fits).overflow_le large⟩
      · rw [if_neg large]
        exact .inl ⟨by omega, Int.not_lt.mp large⟩

/-- A number that is not too large is rounded to one in range. -/
theorem round_bounded (negative : Bool) {num den : Nat} (positive : 0 < den)
    (small : (num : ℚ) < overflow * den) : (round negative num den).Bounded := by
  rcases round_cases negative num positive with bounded | ⟨-, large⟩
  · exact bounded
  · exact absurd small (not_lt.mpr large)

/-! ## Arithmetic -/

def size : Binary64 → ℚ
  | finite _ m e => m * 2 ^ e
  | _ => 0

/-- Numbers in range are below those that are too large by half a unit of the last place. -/
theorem Bounded.size_le {x : Binary64} (bounded : x.Bounded) :
    x.size + 2 ^ (970 : Int) ≤ overflow := by
  cases x with
  | finite negative m e =>
    obtain ⟨few, small⟩ := bounded
    have mantissa : (m : ℚ) ≤ 2 ^ 53 - 1 := by
      have next : (m : ℚ) + 1 ≤ 2 ^ 53 := by exact_mod_cast few
      linarith
    have power : (2 : ℚ) ^ e ≤ 2 * 2 ^ (970 : Int) := by
      rw [← zpow_one_add₀ two_ne_zero]
      exact zpow_le_zpow_right₀ one_le_two small
    have unit : (0 : ℚ) < 2 ^ e := by positivity
    have product : (m : ℚ) * 2 ^ e ≤ (2 ^ 53 - 1) * (2 * 2 ^ (970 : Int)) :=
      mul_le_mul mantissa power unit.le (by norm_num)
    unfold size overflow
    linarith
  | infinite negative => exact bounded.elim
  | nan => exact bounded.elim

theorem natAbs_unitsAt (base : Int) (negative : Bool) (m : Nat) (e : Int) :
    (unitsAt base negative m e).natAbs = m * 2 ^ (e - base).toNat := by
  unfold unitsAt
  cases negative with
  | false => exact Int.natAbs_natCast _
  | true => exact (Int.natAbs_neg _).trans (Int.natAbs_natCast _)

/-- Counting in smaller units does not change the size. -/
theorem size_unitsAt {base e : Int} (le : base ≤ e) (negative : Bool) (m : Nat) :
    ((unitsAt base negative m e).natAbs : ℚ) * 2 ^ base = size (finite negative m e) := by
  rw [natAbs_unitsAt]
  push_cast
  rw [mul_assoc, ← zpow_natCast, ← zpow_add₀ two_ne_zero]
  unfold size
  congr 2
  omega

/-- Units that are not too large together make a number in range. -/
theorem ofUnits_bounded (zeroNegative : Bool) {units base : Int}
    (small : (units.natAbs : ℚ) * 2 ^ base < overflow) :
    (ofUnits zeroNegative units base).Bounded := by
  unfold ofUnits
  by_cases parts : base < 0
  · simp only [if_pos parts]
    refine round_bounded _ (by positivity) ?_
    have inverse : (2 : ℚ) ^ base * 2 ^ base.natAbs = 1 := by
      rw [← zpow_natCast, ← zpow_add₀ two_ne_zero, ← zpow_zero (2 : ℚ)]
      congr 1
      omega
    have scaled := mul_lt_mul_of_pos_right small (show (0 : ℚ) < 2 ^ base.natAbs by positivity)
    rw [mul_assoc, inverse, mul_one] at scaled
    exact_mod_cast scaled
  · simp only [if_neg parts]
    refine round_bounded _ Nat.one_pos ?_
    have power : (2 : ℚ) ^ base = 2 ^ base.natAbs := by
      rw [← zpow_natCast]
      congr 1
      omega
    rw [power] at small
    simpa using small

/-- A sum is in range when its parts are not too large together. -/
theorem add_bounded {s t : Bool} {m n : Nat} {e f : Int}
    (small : size (finite s m e) + size (finite t n f) < overflow) :
    ((finite s m e).add (finite t n f)).Bounded := by
  refine ofUnits_bounded _ (lt_of_le_of_lt ?_ small)
  rw [← size_unitsAt (min_le_left e f) s m, ← size_unitsAt (min_le_right e f) t n, ← add_mul]
  refine mul_le_mul_of_nonneg_right ?_ (by positivity)
  exact_mod_cast Int.natAbs_add_le _ _

theorem scale_bounded {s : Bool} {m : Nat} {e power : Int}
    (small : size (finite s m e) * 2 ^ power < overflow) :
    ((finite s m e).scale power).Bounded := by
  refine ofUnits_bounded _ ?_
  have units : (if s then -(m : Int) else m).natAbs = m := by
    cases s with
    | false => exact Int.natAbs_natCast m
    | true => exact (Int.natAbs_neg _).trans (Int.natAbs_natCast m)
  rw [units, zpow_add₀ two_ne_zero, ← mul_assoc]
  exact small

/-- A step of one leaves the range of no number, up or down. -/
theorem Bounded.add_unit {x : Binary64} (bounded : x.Bounded) (negative : Bool) :
    (x.add (finite negative (2 ^ 52) (-52))).Bounded := by
  cases x with
  | finite s m e =>
    refine add_bounded ?_
    have unit : size (finite negative (2 ^ 52) (-52)) = 1 := by
      unfold size
      norm_num
    have half : (1 : ℚ) < 2 ^ (970 : Int) := one_lt_zpow₀ one_lt_two (by norm_num)
    rw [unit]
    exact lt_of_lt_of_le (add_lt_add_right half _) bounded.size_le
  | infinite s => exact bounded.elim
  | nan => exact bounded.elim

/-- Dividing by a power of two leaves the range of no number. -/
theorem Bounded.scale_down {x : Binary64} (bounded : x.Bounded) {power : Int} (down : power ≤ 0) :
    (x.scale power).Bounded := by
  cases x with
  | finite s m e =>
    have shrinks : (2 : ℚ) ^ power ≤ 1 := zpow_le_one_of_nonpos₀ one_le_two down
    have nonneg : 0 ≤ size (finite s m e) := by
      unfold size
      positivity
    have half : (0 : ℚ) < 2 ^ (970 : Int) := by positivity
    refine scale_bounded ?_
    calc size (finite s m e) * 2 ^ power ≤ size (finite s m e) :=
          mul_le_of_le_one_right nonneg shrinks
      _ < size (finite s m e) + 2 ^ (970 : Int) := lt_add_of_pos_right _ half
      _ ≤ overflow := bounded.size_le
  | infinite s => exact bounded.elim
  | nan => exact bounded.elim

/-! ## Numerals -/

/-- What is rounded is in range if it is finite. -/
theorem bounded_of_round {negative : Bool} {num den : Nat} (positive : 0 < den)
    (finite : (round negative num den).isFinite = true) : (round negative num den).Bounded := by
  rcases round_cases negative num positive with bounded | ⟨rounded, -⟩
  · exact bounded
  · rw [rounded] at finite
    cases finite

theorem bounded_of_ofDecimal (negative : Bool) (digits : Nat) (power : Int) :
    (ofDecimal negative digits power).isFinite = true →
      (ofDecimal negative digits power).Bounded := by
  have null : (zero negative).Bounded := ⟨by decide, by decide⟩
  unfold ofDecimal
  split
  · exact fun _ => null
  · split
    · exact fun finite => nomatch finite
    · split
      · exact fun _ => null
      · split
        · exact bounded_of_round (by positivity)
        · exact bounded_of_round Nat.one_pos

theorem isFinite_of_bounded {x : Binary64} (bounded : x.Bounded) : x.isFinite = true := by
  cases x with
  | finite s m e => rfl
  | infinite s => exact bounded.elim
  | nan => exact bounded.elim

end Binary64

/-- A numeral without a sign denotes a rounded decimal. -/
theorem Decimal.magnitude?_eq_some {negative : Bool} {cs : List Char} {x : Binary64}
    (read : magnitude? negative cs = some x) :
    ∃ digits power, x = .ofDecimal negative digits power := by
  unfold magnitude? at read
  simp only at read
  -- with a fraction and without one
  split at read
  all_goals
    split at read
    · cases read
    · split at read
      · exact ⟨_, _, (Option.some.inj read).symm⟩
      · split at read
        · obtain ⟨power, -, rfl⟩ := Option.map_eq_some_iff.mp read
          exact ⟨_, _, rfl⟩
        · cases read

/-- A finite number that is read is in range. -/
theorem Decimal.bounded_of_float? {s : String} {x : Binary64} (read : float? s = some x)
    (finite : x.isFinite = true) : x.Bounded := by
  unfold float? at read
  simp only at read
  split at read
  · cases read
    cases finite
  · split at read
    · cases read
      cases finite
    · obtain ⟨digits, power, rfl⟩ := magnitude?_eq_some read
      exact Binary64.bounded_of_ofDecimal _ _ _ finite

/-! ## Integer parts -/

namespace Binary64

/-- A finite number has an integer part. -/
theorem truncate_ends {x : Binary64} (finite : x.isFinite = true) :
    Succeeds x.truncate := by
  cases x with
  | finite s m e => exact ends_ok trivial
  | infinite s => cases finite
  | nan => cases finite

end Binary64

namespace Number

/-- The number is an integer, or a floating point number in range. -/
def Bounded : Number → Prop
  | int _ => True
  | float x => x.Bounded

/-- The number has a floating point number next to it. -/
def Representable (n : Number) : Prop := Succeeds n.toFloat

theorem representable_float (x : Binary64) : (float x).Representable := ends_ok trivial

variable {n : Number}

theorem truncate_ends (bounded : n.Bounded) : Succeeds n.truncate := by
  cases n with
  | int i => exact ends_ok trivial
  | float x => exact Binary64.truncate_ends (Binary64.isFinite_of_bounded bounded)

theorem ceil_ends (bounded : n.Bounded) : Succeeds n.ceil := by
  cases n with
  | int i => exact ends_ok trivial
  | float x => cases x with
    | finite s m e => exact ends_ok trivial
    | infinite s => exact bounded.elim
    | nan => exact bounded.elim

theorem floor_ends (bounded : n.Bounded) : Succeeds n.floor := by
  cases n with
  | int i => exact ends_ok trivial
  | float x => cases x with
    | finite s m e => exact ends_ok trivial
    | infinite s => exact bounded.elim
    | nan => exact bounded.elim

/-- The floating point number next to an integer is in range if there is one. -/
theorem bounded_of_toFloat {i : Int} {x : Binary64} (converted : (int i).toFloat = .ok x) :
    x.Bounded := by
  unfold toFloat at converted
  simp only at converted
  rcases Binary64.round_cases (i < 0) i.natAbs Nat.one_pos with bounded | ⟨large, -⟩
  · change (Binary64.ofInt i).Bounded at bounded
    split at converted
    · cases converted
    · cases converted
      exact bounded
  · change Binary64.ofInt i = _ at large
    rw [large] at converted
    cases converted

/-- A floating point number that a parameter denotes is in range if it is finite. -/
theorem bounded_of_parse? {s : String} {x : Binary64} (read : parse? s = some (float x))
    (finite : x.isFinite = true) : x.Bounded := by
  unfold parse? at read
  simp only at read
  split at read
  · cases read
  · split at read
    · obtain ⟨y, decimal, same⟩ := Option.map_eq_some_iff.mp read
      cases same
      exact Decimal.bounded_of_float? decimal finite
    · obtain ⟨i, -, same⟩ := Option.map_eq_some_iff.mp read
      cases same

end Number

end RequestSchema

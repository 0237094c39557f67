import Mathlib.Algebra.Order.Field.Power
import Mathlib.Tactic.FieldSimp
import Mathlib.Tactic.Linarith
import Mathlib.Tactic.Ring
import RpcContract.Decimal.Shortest

/-!
# Decimals stand for one value

The decimal that is found for a finite value lies among the reals that round to it.  No real rounds
to two values, so that values with one decimal are one value up to the sign.
-/

namespace RpcContract

/-! ## The parts of a binary value -/

namespace Binary64

variable {x y : Binary64}

theorem exponentField_eq (x : Binary64) :
    x.exponentField = x.bits.toNat / 2 ^ 52 % 2 ^ 11 := by
  rw [exponentField, UInt64.toNat_and, UInt64.toNat_shiftRight, Nat.shiftRight_eq_div_pow]
  exact Nat.and_two_pow_sub_one_eq_mod _ 11

theorem fraction_eq (x : Binary64) : x.fraction = x.bits.toNat % 2 ^ 52 := by
  rw [fraction, UInt64.toNat_and]
  exact Nat.and_two_pow_sub_one_eq_mod _ 52

theorem isNegative_iff (x : Binary64) : x.isNegative = true ↔ x.bits.toNat / 2 ^ 63 = 1 := by
  rw [isNegative, beq_iff_eq, ← UInt64.toNat_inj, UInt64.toNat_shiftRight,
    Nat.shiftRight_eq_div_pow]
  rfl

theorem fraction_lt (x : Binary64) : x.fraction < leastNormal := by
  rw [fraction_eq]
  exact Nat.mod_lt _ (by decide)

theorem eq_of_fields (hsign : x.isNegative = y.isNegative)
    (hexponent : x.exponentField = y.exponentField) (hfraction : x.fraction = y.fraction) :
    x = y := by
  have hbits : x.bits.toNat = y.bits.toNat := by
    have hx := x.bits.toNat_lt
    have hy := y.bits.toNat_lt
    have hsign := x.isNegative_iff.symm.trans ((Bool.eq_iff_iff.mp hsign).trans y.isNegative_iff)
    rw [exponentField_eq, exponentField_eq] at hexponent
    rw [fraction_eq, fraction_eq] at hfraction
    omega
  cases x
  cases y
  exact congrArg mk (UInt64.toNat_inj.mp hbits)

theorem significand_lt (x : Binary64) : x.significand < 2 * leastNormal := by
  have hfraction := x.fraction_lt
  unfold significand
  split <;> omega

theorem scale_ge (x : Binary64) : -1074 ≤ x.scale := by
  unfold scale
  split
  · exact le_rfl
  · next h =>
      have hpos : x.exponentField ≠ 0 := fun hzero => h (beq_iff_eq.mpr hzero)
      omega

theorem significand_pos (h : x.isZero = false) : 0 < x.significand := by
  have hnormal : 0 < leastNormal := by decide
  unfold significand
  split
  · next hexponent =>
      rw [isZero, hexponent, Bool.true_and] at h
      exact Nat.pos_of_ne_zero (beq_eq_false_iff_ne.mp h)
  · omega

theorem leastNormal_le_significand (h : -1074 < x.scale) : leastNormal ≤ x.significand := by
  unfold scale at h
  unfold significand
  split
  · next hexponent =>
      rw [if_pos hexponent] at h
      exact absurd h (lt_irrefl _)
  · exact Nat.le_add_right _ _

theorem eq_of_parts (hsign : x.isNegative = y.isNegative)
    (hsignificand : x.significand = y.significand) (hscale : x.scale = y.scale) : x = y := by
  have hx := x.fraction_lt
  have hy := y.fraction_lt
  have hfields : x.exponentField = y.exponentField ∧ x.fraction = y.fraction := by
    unfold significand at hsignificand
    unfold scale at hscale
    simp only [beq_iff_eq] at hsignificand hscale
    by_cases hx0 : x.exponentField = 0 <;> by_cases hy0 : y.exponentField = 0 <;>
      simp only [hx0, hy0, if_true, if_false] at hsignificand hscale <;> omega
  exact eq_of_fields hsign hfields.1 hfields.2

end Binary64

/-! ## Exact comparisons -/

theorem pow_toNat {b : ℚ} (hb : b ≠ 0) (i : ℤ) : b ^ i.toNat = b ^ i * b ^ (-i).toNat := by
  rcases le_total 0 i with hi | hi
  · obtain ⟨n, rfl⟩ := Int.eq_ofNat_of_zero_le hi
    simp
  · obtain ⟨n, hn⟩ := Int.eq_ofNat_of_zero_le (neg_nonneg.mpr hi)
    obtain rfl : i = -n := by omega
    simp [hb]

namespace Decimal

def value (d : Decimal) : ℚ := d.digits * 10 ^ d.exponent

theorem exists_compareScaled (a : Nat) (i : ℤ) (n : Nat) (j : ℤ) : ∃ c : ℚ, 0 < c ∧
    ((a * Nat.pow 10 i.toNat * Nat.pow 2 (-j).toNat : Nat) : ℚ) = a * 10 ^ i * c ∧
    ((n * Nat.pow 2 j.toNat * Nat.pow 10 (-i).toNat : Nat) : ℚ) = n * 2 ^ j * c := by
  refine ⟨10 ^ (-i).toNat * 2 ^ (-j).toNat, by positivity, ?_, ?_⟩
  · push_cast [Nat.pow_eq]
    rw [pow_toNat (b := 10) (by norm_num)]
    ring
  · push_cast [Nat.pow_eq]
    rw [pow_toNat (b := 2) (by norm_num)]
    ring

section Compare

variable {a n : Nat} {i j : ℤ}

theorem compareScaled_eq_lt : compareScaled a i n j = .lt ↔ (a : ℚ) * 10 ^ i < n * 2 ^ j := by
  obtain ⟨c, hc, ha, hn⟩ := exists_compareScaled a i n j
  rw [compareScaled, compare_lt_iff_lt, ← Rat.natCast_lt_natCast, ha, hn, mul_lt_mul_iff_left₀ hc]

theorem compareScaled_eq_gt : compareScaled a i n j = .gt ↔ (n : ℚ) * 2 ^ j < a * 10 ^ i := by
  obtain ⟨c, hc, ha, hn⟩ := exists_compareScaled a i n j
  rw [compareScaled, compare_gt_iff_gt, ← Rat.natCast_lt_natCast, ha, hn, mul_lt_mul_iff_left₀ hc]

theorem compareScaled_eq_eq : compareScaled a i n j = .eq ↔ (a : ℚ) * 10 ^ i = n * 2 ^ j := by
  obtain ⟨c, hc, ha, hn⟩ := exists_compareScaled a i n j
  rw [compareScaled, compare_eq_iff_eq, ← Rat.natCast_inj, ha, hn, mul_left_inj' hc.ne']

end Compare

/-! ## The reals that round to a value -/

section Rounds

open Binary64 (leastNormal)

variable {x y : Binary64} {v : ℚ}

/-- The ends of the range of reals that round to a magnitude, in quarters of its last digit. -/
def low (x : Binary64) : Nat :=
  if narrowBelow x then 4 * x.significand - 1 else 4 * x.significand - 2

def high (x : Binary64) : Nat := 4 * x.significand + 2

/-- A positive real rounds to the magnitude of a value; the ends of the range do so where the
significand is even. -/
def Rounds (x : Binary64) (v : ℚ) : Prop :=
  (low x * 2 ^ (x.scale - 2) < v ∨ x.significand % 2 = 0 ∧ v = low x * 2 ^ (x.scale - 2)) ∧
  (v < high x * 2 ^ (x.scale - 2) ∨ x.significand % 2 = 0 ∧ v = high x * 2 ^ (x.scale - 2))

theorem readsBack_iff {d : Decimal} : readsBack x d = true ↔ Rounds x d.value := by
  simp only [readsBack, Bool.and_eq_true, Bool.or_eq_true, beq_iff_eq, compareScaled_eq_lt,
    compareScaled_eq_gt, compareScaled_eq_eq]
  rfl

def Less (x y : Binary64) : Prop :=
  x.scale < y.scale ∨ x.scale = y.scale ∧ x.significand < y.significand

/-- Above the least scale the range below the least significand is narrow. -/
theorem low_of_scale (h : -1074 < y.scale) (hleast : y.significand = leastNormal) :
    low y = 4 * y.significand - 1 := by
  have hnarrow : narrowBelow y = true := by
    unfold Binary64.scale at h
    unfold Binary64.significand at hleast
    simp only [beq_iff_eq] at h hleast
    have hpos : y.exponentField ≠ 0 := fun hzero => by simp [hzero] at h
    rw [if_neg hpos] at h hleast
    simp only [narrowBelow, Bool.and_eq_true, beq_iff_eq, decide_eq_true_eq]
    omega
  rw [low, if_pos hnarrow]

theorem le_low (y : Binary64) : 4 * y.significand - 2 ≤ low y := by
  unfold low
  split <;> omega

/-- The ranges of two magnitudes meet at most at their ends, and then not both of them hold it. -/
theorem Less.high_le (h : Less x y) :
    high x ≤ low y * 2 ^ (y.scale - x.scale).toNat ∧
      (high x = low y * 2 ^ (y.scale - x.scale).toNat →
        x.significand % 2 = 0 → y.significand % 2 ≠ 0) := by
  have hx := x.significand_lt
  have hlow := le_low y
  have hnormal : leastNormal = 2 ^ 52 := rfl
  rcases h with hscale | ⟨hscale, hless⟩
  · have hy : -1074 < y.scale := lt_of_le_of_lt x.scale_ge hscale
    have hleast := Binary64.leastNormal_le_significand hy
    have hnarrow := low_of_scale hy
    have htwo : 2 ≤ 2 ^ (y.scale - x.scale).toNat :=
      Nat.le_self_pow (by omega) 2
    have hdouble : low y * 2 ≤ low y * 2 ^ (y.scale - x.scale).toNat := Nat.mul_le_mul_left _ htwo
    unfold high
    omega
  · rw [hscale, sub_self, Int.toNat_zero, pow_zero, mul_one]
    have hless' : low y = 4 * y.significand - 1 ∨ low y = 4 * y.significand - 2 := by
      unfold low
      split <;> simp
    unfold high
    omega

theorem Less.not_rounds (h : Less x y) (hx : Rounds x v) : ¬ Rounds y v := by
  rintro ⟨hlow, -⟩
  have hhigh := hx.2
  obtain ⟨hle, heven⟩ := h.high_le
  have hscale : y.scale - 2 = ((y.scale - x.scale).toNat : ℤ) + (x.scale - 2) := by
    unfold Less at h
    omega
  have hunit : (0 : ℚ) < 2 ^ (x.scale - 2) := by positivity
  have hend : (low y : ℚ) * 2 ^ (y.scale - 2) =
      (low y * 2 ^ (y.scale - x.scale).toNat : Nat) * 2 ^ (x.scale - 2) := by
    rw [hscale, zpow_add₀ (by norm_num), zpow_natCast]
    push_cast
    ring
  have hends : (high x : ℚ) * 2 ^ (x.scale - 2) ≤ low y * 2 ^ (y.scale - 2) := by
    rw [hend]
    gcongr
  rcases hlow with hlow | ⟨hyeven, hlow⟩
  · rcases hhigh with hhigh | ⟨-, hhigh⟩ <;> linarith
  · rcases hhigh with hhigh | ⟨hxeven, hhigh⟩
    · linarith
    · have hmeet := hhigh.symm.trans hlow
      rw [hend, mul_left_inj' hunit.ne', Nat.cast_inj] at hmeet
      exact heven hmeet hxeven hyeven

theorem Rounds.unique (hx : Rounds x v) (hy : Rounds y v) :
    x.significand = y.significand ∧ x.scale = y.scale := by
  have hxy : ¬ Less x y := fun h => h.not_rounds hx hy
  have hyx : ¬ Less y x := fun h => h.not_rounds hy hx
  unfold Less at hxy hyx
  omega

end Rounds

/-! ## The decimal that is found -/

theorem value_strip_go (steps digits : Nat) (exponent : ℤ) :
    (strip.go steps digits exponent).value = digits * 10 ^ exponent := by
  induction steps generalizing digits exponent with
  | zero => rfl
  | succ steps ih =>
      rw [strip.go]
      split
      · next h =>
          have hdigits : (digits : ℚ) = (digits / 10 : Nat) * 10 := by
            exact_mod_cast (Nat.div_mul_cancel (Nat.dvd_of_mod_eq_zero h.2)).symm
          rw [ih, zpow_add_one₀ (by norm_num), hdigits]
          ring
      · rfl

@[simp] theorem value_strip (d : Decimal) : (strip d).value = d.value := value_strip_go _ _ _

theorem value_exact (x : Binary64) : (exact x).value = x.significand * 2 ^ x.scale := by
  unfold exact value
  split
  · next h =>
      obtain ⟨n, hn⟩ := Int.eq_ofNat_of_zero_le (show 0 ≤ -x.scale by omega)
      obtain hscale : x.scale = -n := by omega
      have hten : (10 : ℚ) ^ n = 5 ^ n * 2 ^ n := by rw [← mul_pow]; norm_num
      simp only [hscale, neg_neg, Int.toNat_natCast, zpow_neg, zpow_natCast, Nat.pow_eq, hten]
      push_cast
      field_simp
  · next h =>
      obtain ⟨n, hn⟩ := Int.eq_ofNat_of_zero_le (not_lt.mp h)
      simp [hn, Nat.pow_eq]

theorem rounds_exact {x : Binary64} (hpos : 0 < x.significand) : Rounds x (exact x).value := by
  have hunit : (0 : ℚ) < 2 ^ (x.scale - 2) := by positivity
  have hvalue : (exact x).value = (4 * x.significand : Nat) * 2 ^ (x.scale - 2) := by
    rw [value_exact, zpow_sub₀ (by norm_num)]
    push_cast
    ring
  have hlow : low x < 4 * x.significand := by
    unfold low
    split <;> omega
  rw [hvalue]
  refine ⟨.inl ?_, .inl ?_⟩
  · gcongr
  · unfold high
    gcongr
    omega

theorem rounds_shortest (tie : Tie) {x : Binary64} (h : x.isZero = false) :
    Rounds x (shortest tie x).value := by
  rw [shortest, value_strip]
  cases hfound : (List.range 17).findSome? fun n : Nat =>
    (neighbours x (decimalSize x - (n + 1 : Nat)) tie).find? fun d =>
      d.digits ≠ 0 && readsBack x d with
  | none => exact rounds_exact (Binary64.significand_pos h)
  | some d =>
      obtain ⟨n, -, hn⟩ := List.exists_of_findSome?_eq_some hfound
      have hreads := List.find?_some hn
      rw [Bool.and_eq_true] at hreads
      exact readsBack_iff.mp hreads.2

theorem value_shortest_pos {tie : Tie} {x : Binary64} (h : x.isZero = false) :
    0 < (shortest tie x).value := by
  have hlow : 0 < low x := by
    have hpos := Binary64.significand_pos h
    have hle := le_low x
    omega
  have hend : (0 : ℚ) < low x * 2 ^ (x.scale - 2) := by positivity
  rcases (rounds_shortest tie h).1 with hvalue | ⟨-, hvalue⟩
  · exact hend.trans hvalue
  · exact hvalue ▸ hend

/-- A decimal is found for one magnitude only. -/
theorem eq_of_value_shortest {x y : Binary64} {tie : Tie} (hx : x.isZero = false)
    (hy : y.isZero = false) (hsign : x.isNegative = y.isNegative)
    (hvalue : (shortest tie x).value = (shortest tie y).value) : x = y := by
  have hrounds := rounds_shortest tie hx
  rw [hvalue] at hrounds
  obtain ⟨hsignificand, hscale⟩ := hrounds.unique (rounds_shortest tie hy)
  exact Binary64.eq_of_parts hsign hsignificand hscale

end Decimal

end RpcContract

import Mathlib.Data.Int.Log
import Mathlib.Data.Rat.Floor
import Mathlib.Tactic.Linarith
import Mathlib.Tactic.Positivity
import Mathlib.Tactic.Ring

namespace Rounding

-- The nearest integer, and of two that are as near the even one.
def nearest (value : ℚ) : ℤ :=
  if value < ⌊value⌋ + 1 / 2 then ⌊value⌋
  else if ⌊value⌋ + 1 / 2 < value then ⌊value⌋ + 1
  else if Even ⌊value⌋ then ⌊value⌋ else ⌊value⌋ + 1

-- The distance of two neighbours, where there are `places` digits behind the leading one.
def unit (places : ℕ) (value : ℚ) : ℚ := 2 ^ (Int.log 2 |value| - places)

def rounded (places : ℕ) (value : ℚ) : ℚ := nearest (value / unit places value) * unit places value

theorem nearest_le_iff (value : ℚ) (bound : ℤ) :
    nearest value ≤ bound ↔ value < bound + 1 / 2 ∨ value = bound + 1 / 2 ∧ Even bound := by
  have hlow := Int.floor_le value
  have hhigh := Int.lt_floor_add_one value
  rcases lt_trichotomy bound ⌊value⌋ with hless | rfl | hmore
  · have hcast : (bound : ℚ) + 1 ≤ ⌊value⌋ := by exact_mod_cast hless
    have hfloor : ⌊value⌋ ≤ nearest value := by
      unfold nearest
      split_ifs <;> omega
    refine iff_of_false (by omega) ?_
    rintro (h | ⟨h, _⟩)
    · linarith
    · linarith
  · unfold nearest
    split_ifs with hbelow habove heven
    · exact iff_of_true le_rfl (.inl hbelow)
    · refine iff_of_false (by omega) ?_
      rintro (h | ⟨h, _⟩)
      · linarith
      · linarith
    · exact iff_of_true le_rfl (.inr ⟨le_antisymm (not_lt.mp habove) (not_lt.mp hbelow), heven⟩)
    · exact iff_of_false (by omega) (not_or.mpr ⟨hbelow, fun h => heven h.2⟩)
  · have hcast : (⌊value⌋ : ℚ) + 1 ≤ bound := by exact_mod_cast hmore
    refine iff_of_true ?_ (.inl (by linarith))
    unfold nearest
    split_ifs <;> omega

theorem le_nearest (value : ℚ) (bound : ℤ) (h : (bound : ℚ) ≤ value) : bound ≤ nearest value := by
  by_contra hless
  rcases (nearest_le_iff value (bound - 1)).mp (by omega) with hlt | ⟨heq, _⟩
  · push_cast at hlt
    linarith
  · push_cast at heq
    linarith

theorem nearest_le (value : ℚ) (bound : ℤ) (h : value ≤ bound) : nearest value ≤ bound :=
  (nearest_le_iff value bound).mpr (.inl (by linarith))

theorem nearest_intCast (value : ℤ) : nearest value = value :=
  le_antisymm (nearest_le _ _ le_rfl) (le_nearest _ _ le_rfl)

section Rounded

variable {places : ℕ} {value : ℚ}

theorem unit_pos (places : ℕ) (value : ℚ) : 0 < unit places value := zpow_pos (by norm_num) _

theorem pow_mul_unit (places : ℕ) (value : ℚ) :
    2 ^ places * unit places value = 2 ^ Int.log 2 |value| := by
  rw [unit, ← zpow_natCast, ← zpow_add₀ (by norm_num)]
  congr 1
  omega

-- A multiple of the distance is exact.
theorem rounded_of_multiple (count : ℤ) (h : value = count * unit places value) :
    rounded places value = value := by
  have hquotient : value / unit places value = count := (div_eq_iff (unit_pos places value).ne').mpr h
  rw [rounded, hquotient, nearest_intCast]
  exact h.symm

theorem rounded_of_lt (count exponent : ℤ) (h : |count| < 2 ^ (places + 1)) :
    rounded places (count * 2 ^ exponent) = count * 2 ^ exponent := by
  by_cases hzero : count = 0
  · subst hzero
    exact rounded_of_multiple 0 (by simp)
  have hpow : (0 : ℚ) < 2 ^ exponent := zpow_pos (by norm_num) _
  have habs : |(count : ℚ) * 2 ^ exponent| = |count| * 2 ^ exponent := by
    rw [abs_mul, abs_of_pos hpow, Int.cast_abs]
  have hpos : 0 < |(count : ℚ) * 2 ^ exponent| :=
    abs_pos.mpr (mul_ne_zero (by exact_mod_cast hzero) hpow.ne')
  have hlog : Int.log 2 |(count : ℚ) * 2 ^ exponent| < places + 1 + exponent := by
    refine (Int.lt_zpow_iff_log_lt Nat.one_lt_two hpos).mp ?_
    rw [habs, Nat.cast_ofNat, zpow_add₀ (by norm_num)]
    refine mul_lt_mul_of_pos_right ?_ hpow
    exact_mod_cast h
  obtain ⟨shift, hshift⟩ := Int.eq_ofNat_of_zero_le (show
    0 ≤ exponent - (Int.log 2 |(count : ℚ) * 2 ^ exponent| - places) by omega)
  refine rounded_of_multiple (count * 2 ^ shift) ?_
  rw [unit]
  push_cast
  rw [mul_assoc, ← zpow_natCast, ← zpow_add₀ (by norm_num), ← hshift, sub_add_cancel]

-- All integers of one digit more are exact, at every power of two.
theorem rounded_of_le (count exponent : ℤ) (h : |count| ≤ 2 ^ (places + 1)) :
    rounded places (count * 2 ^ exponent) = count * 2 ^ exponent := by
  rcases h.lt_or_eq with hlt | heq
  · exact rounded_of_lt count exponent hlt
  -- The count itself is a power of two, up to its sign.
  obtain ⟨half, hhalf, rfl⟩ : ∃ half, |half| < 2 ^ (places + 1) ∧ count = half * 2 := by
    have hless : (2 : ℤ) ^ places < 2 ^ (places + 1) := Int.pow_lt_pow_of_lt (by omega) (by omega)
    rcases (abs_eq (by positivity)).mp heq with hpos | hneg
    · exact ⟨2 ^ places, by rwa [abs_of_nonneg (by positivity)], by rw [hpos, pow_succ]⟩
    · exact ⟨-2 ^ places, by rwa [abs_neg, abs_of_nonneg (by positivity)], by rw [hneg, pow_succ]; ring⟩
  have hnext := rounded_of_lt half (exponent + 1) hhalf
  rw [zpow_add_one₀ (by norm_num)] at hnext
  push_cast
  rw [mul_assoc, mul_comm 2]
  exact hnext

theorem rounded_intCast (count : ℤ) (h : |count| ≤ 2 ^ (places + 1)) : rounded places count = count := by
  simpa using rounded_of_le count 0 h

theorem nearest_abs_le (places : ℕ) (value : ℚ) :
    |nearest (value / unit places value)| ≤ 2 ^ (places + 1) := by
  have hunit := unit_pos places value
  have habs : |value / unit places value| ≤ ((2 ^ (places + 1) : ℤ) : ℚ) := by
    rw [abs_div, abs_of_pos hunit, div_le_iff₀ hunit]
    push_cast
    rw [pow_succ', mul_assoc, pow_mul_unit, mul_comm, ← zpow_add_one₀ (by norm_num)]
    simpa using (Int.lt_zpow_succ_log_self Nat.one_lt_two |value|).le
  obtain ⟨hlow, hhigh⟩ := abs_le.mp habs
  refine abs_le.mpr ⟨le_nearest _ _ ?_, nearest_le _ _ hhigh⟩
  push_cast at hlow ⊢
  exact hlow

theorem rounded_rounded (places : ℕ) (value : ℚ) :
    rounded places (rounded places value) = rounded places value :=
  rounded_of_le _ _ (nearest_abs_le places value)

end Rounded

end Rounding

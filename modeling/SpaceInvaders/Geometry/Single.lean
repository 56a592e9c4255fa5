import SpaceInvaders.Geometry
import SpaceInvaders.Library.Rounding

namespace SpaceInvaders

-- A float has 23 digits behind the leading one. Its exponent has no bounds here: the pixels
-- and the sizes of a window stay far away from them.
@[ext] structure Single where
  value : ℚ
  exact : Rounding.rounded 23 value = value
  deriving DecidableEq, Repr

namespace Single

-- Every operation gives the float that is nearest to its exact result.
def of (value : ℚ) : Single := ⟨Rounding.rounded 23 value, Rounding.rounded_rounded 23 value⟩

end Single

instance Coord.single : Coord Single where
  zero := Single.of 0
  add first second := Single.of (first.value + second.value)
  sub first second := Single.of (first.value - second.value)
  neg value := Single.of (-value.value)
  mul first second := Single.of (first.value * second.value)
  div first second := Single.of (first.value / second.value)
  intCast value := Single.of value
  lt first second := first.value < second.value
  le first second := first.value ≤ second.value
  decEq := inferInstance
  decLT first second := inferInstanceAs (Decidable (first.value < second.value))
  decLE first second := inferInstanceAs (Decidable (first.value ≤ second.value))
  trunc value := Coord.trunc value.value

namespace Single

@[simp] theorem of_value (value : ℚ) : (of value).value = Rounding.rounded 23 value := rfl

@[simp] theorem add_value (first second : Single) :
    (first + second).value = Rounding.rounded 23 (first.value + second.value) := rfl

@[simp] theorem sub_value (first second : Single) :
    (first - second).value = Rounding.rounded 23 (first.value - second.value) := rfl

@[simp] theorem mul_value (first second : Single) :
    (first * second).value = Rounding.rounded 23 (first.value * second.value) := rfl

@[simp] theorem div_value (first second : Single) :
    (first / second).value = Rounding.rounded 23 (first.value / second.value) := rfl

@[simp] theorem intCast_value (value : Int) : (value : Single).value = Rounding.rounded 23 value := rfl

theorem lt_iff (first second : Single) : first < second ↔ first.value < second.value := Iff.rfl

-- Integers of up to 24 binary digits are floats.
theorem intCast_exact (value : Int) (h : |value| ≤ 2 ^ 24) : (value : Single).value = value := by
  rw [intCast_value, Rounding.rounded_intCast value h]

section Integers

variable {first second : Int} (hfirst : |first| ≤ 2 ^ 24) (hsecond : |second| ≤ 2 ^ 24)

include hfirst hsecond

theorem intCast_sub : (first : Single) - (second : Single) = ((first - second : Int) : Single) := by
  ext
  rw [sub_value, intCast_exact first hfirst, intCast_exact second hsecond, intCast_value]
  push_cast
  rfl

theorem intCast_add : (first : Single) + (second : Single) = ((first + second : Int) : Single) := by
  ext
  rw [add_value, intCast_exact first hfirst, intCast_exact second hsecond, intCast_value]
  push_cast
  rfl

theorem intCast_mul : (first : Single) * (second : Single) = ((first * second : Int) : Single) := by
  ext
  rw [mul_value, intCast_exact first hfirst, intCast_exact second hsecond, intCast_value]
  push_cast
  rfl

end Integers

example : ((16777217 : Int) : Single) = ((16777216 : Int) : Single) := by decide +kernel

example : Coord.trunc (((640 : Int) : Single) / ((7 : Int) : Single)) = 91 := by decide +kernel

end Single

-- Boxes of the sizes of the program's images. A root is rounded down to a multiple of 1/8192,
-- so that it is exact on squares.
def arcadeSingle : Platform Single where
  shipBounds := FloatRect.ofSize ⟨((100 : Int) : Single), ((100 : Int) : Single)⟩
  monsterBounds := FloatRect.ofSize ⟨((50 : Int) : Single), ((50 : Int) : Single)⟩
  bulletBounds := FloatRect.ofSize ⟨((10 : Int) : Single), ((10 : Int) : Single)⟩
  intersects := FloatRect.overlaps
  sqrt value := Single.of ((Nat.sqrt (⌊value.value⌋.toNat * 2 ^ 26) : ℚ) / 2 ^ 13)

-- Neighbours below 2 ^ 22 have roots that are more than 1/8192 apart.
theorem arcadeSingle_sqrt_lt_iff (first second : Nat) (hfirst : first < 2 ^ 22) (hsecond : second < 2 ^ 22) :
    arcadeSingle.sqrt ((first : Int) : Single) < arcadeSingle.sqrt ((second : Int) : Single) ↔
      first < second := by
  have hroot : ∀ value : Nat, value < 2 ^ 22 → (arcadeSingle.sqrt ((value : Int) : Single)).value =
      (Nat.sqrt (value * 2 ^ 26) : ℚ) / 2 ^ 13 := by
    intro value hvalue
    have hsmall : Nat.sqrt (value * 2 ^ 26) < 2 ^ 24 := Nat.sqrt_lt'.mpr (by omega)
    have hdigits : |(Nat.sqrt (value * 2 ^ 26) : ℤ)| < 2 ^ (23 + 1) := by
      rw [abs_of_nonneg (by positivity)]
      exact_mod_cast hsmall
    have hexact := Rounding.rounded_of_lt _ (-13) hdigits
    simp only [arcadeSingle, Single.of_value, Single.intCast_exact (value : Int)
      (by rw [abs_of_nonneg (by positivity)]; omega), Int.floor_intCast, Int.toNat_natCast]
    rw [zpow_neg] at hexact
    exact_mod_cast hexact
  have hstep : ∀ low high : Nat, low < high → Nat.sqrt (low * 2 ^ 26) ≤ 2 ^ 24 →
      Nat.sqrt (low * 2 ^ 26) < Nat.sqrt (high * 2 ^ 26) := by
    intro low high hless hroot
    rw [Nat.lt_iff_add_one_le, Nat.le_sqrt]
    have hlow := Nat.sqrt_le (low * 2 ^ 26)
    nlinarith
  have hsmall : ∀ value : Nat, value < 2 ^ 22 → Nat.sqrt (value * 2 ^ 26) ≤ 2 ^ 24 :=
    fun value hvalue => (Nat.sqrt_lt'.mpr (by omega)).le
  rw [Single.lt_iff, hroot first hfirst, hroot second hsecond, div_lt_div_iff_of_pos_right (by norm_num),
    Nat.cast_lt]
  constructor
  · intro h
    by_contra hle
    rcases (Nat.le_of_not_lt hle).lt_or_eq with hless | rfl
    · exact lt_asymm h (hstep second first hless (hsmall second hsecond))
    · exact lt_irrefl _ h
  · exact fun h => hstep first second h (hsmall first hfirst)

end SpaceInvaders

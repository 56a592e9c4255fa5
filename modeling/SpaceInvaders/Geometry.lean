import Mathlib.Data.Rat.Floor
import Mathlib.Tactic.Linarith
import Mathlib.Tactic.NormNum

namespace SpaceInvaders

-- The arithmetic of coordinates. No laws are assumed, so a result about every
-- `Coord` holds of floats as well. `trunc` is the conversion to int.
class Coord (α : Type) extends
    Zero α, Add α, Sub α, Neg α, Mul α, Div α, IntCast α, LT α, LE α where
  decEq : DecidableEq α
  decLT : DecidableLT α
  decLE : DecidableLE α
  trunc : α → Int

-- Exact coordinates.
instance Coord.rational : Coord ℚ where
  decEq := inferInstance
  decLT := inferInstance
  decLE := inferInstance
  trunc value := value.num.tdiv value.den

-- sf::Vector2
structure Vector2 (α : Type) where
  x : α
  y : α
  deriving DecidableEq, Repr

-- sf::Rect
structure FloatRect (α : Type) where
  left : α
  top : α
  width : α
  height : α
  deriving DecidableEq, Repr

-- What the program takes from SFML and the C++ library: the global bounds of
-- a sprite or a circle at a position, the intersection test and the square root.
structure Platform (α : Type) where
  shipBounds : Vector2 α → FloatRect α
  monsterBounds : Vector2 α → FloatRect α
  bulletBounds : Vector2 α → FloatRect α
  intersects : FloatRect α → FloatRect α → Bool
  sqrt : α → α

section Arithmetic

variable {α : Type} [Coord α]

instance Coord.instDecidableEq : DecidableEq α := Coord.decEq
instance Coord.instDecidableLT : DecidableLT α := Coord.decLT
instance Coord.instDecidableLE : DecidableLE α := Coord.decLE

def stdAbs (value : α) : α := if value < 0 then -value else value

def stdMin (first second : α) : α := if second < first then second else first

def stdMax (first second : α) : α := if first < second then second else first

-- The bounds of a drawable of size `size` whose local bounds start at its position.
def FloatRect.ofSize (size position : Vector2 α) : FloatRect α :=
  ⟨position.x, position.y, size.x, size.y⟩

-- Strict overlap: a common edge does not count.
def FloatRect.overlaps (first second : FloatRect α) : Bool :=
  stdMax first.left second.left < stdMin (first.left + first.width) (second.left + second.width) &&
    stdMax first.top second.top < stdMin (first.top + first.height) (second.top + second.height)

end Arithmetic

-- Exact boxes of the sizes of the program's images, for concrete runs. The
-- square root is exact on squares.
def arcade : Platform ℚ where
  shipBounds := FloatRect.ofSize ⟨100, 100⟩
  monsterBounds := FloatRect.ofSize ⟨50, 50⟩
  bulletBounds := FloatRect.ofSize ⟨10, 10⟩
  intersects := FloatRect.overlaps
  sqrt value := (Nat.sqrt value.num.toNat : ℚ) / (Nat.sqrt value.den : ℚ)

theorem arcade_sqrt (value : ℚ) (h : 0 ≤ value) : arcade.sqrt (value * value) = value := by
  have hnum := Int.toNat_of_nonneg (Rat.num_nonneg.mpr h)
  change ((Nat.sqrt (value * value).num.toNat : ℕ) : ℚ) / (Nat.sqrt (value * value).den : ℕ) = value
  rw [Rat.mul_self_num, Rat.mul_self_den, ← hnum, ← Int.natCast_mul, Int.toNat_natCast,
    Nat.sqrt_eq, Nat.sqrt_eq]
  have hcast : ((value.num.toNat : ℕ) : ℚ) = value.num := by exact_mod_cast hnum
  rw [hcast, Rat.num_div_den]

theorem stdMin_eq_min (first second : ℚ) : stdMin first second = min first second := by
  unfold stdMin
  split
  · rename_i h
    exact (min_eq_right (le_of_lt h)).symm
  · rename_i h
    exact (min_eq_left (le_of_not_gt h)).symm

theorem stdMax_eq_max (first second : ℚ) : stdMax first second = max first second := by
  unfold stdMax
  split
  · rename_i h
    exact (max_eq_right (le_of_lt h)).symm
  · rename_i h
    exact (max_eq_left (le_of_not_gt h)).symm

theorem stdAbs_eq_abs (value : ℚ) : stdAbs value = |value| := by
  unfold stdAbs
  split
  · rename_i h
    exact (abs_of_neg h).symm
  · rename_i h
    exact (abs_of_nonneg (le_of_not_gt h)).symm

theorem overlaps_iff (first second : FloatRect ℚ) : first.overlaps second = true ↔
    max first.left second.left < min (first.left + first.width) (second.left + second.width) ∧
    max first.top second.top < min (first.top + first.height) (second.top + second.height) := by
  simp only [FloatRect.overlaps, stdMin_eq_min, stdMax_eq_max, Bool.and_eq_true, decide_eq_true_eq]

theorem trunc_of_nonneg (value : ℚ) (h : 0 ≤ value) : Coord.trunc value = ⌊value⌋ := by
  rw [Rat.floor_def']
  exact Int.tdiv_eq_ediv_of_nonneg (Rat.num_nonneg.mpr h)

theorem trunc_neg (value : ℚ) : Coord.trunc (-value) = -Coord.trunc value := by
  change (-value).num.tdiv (-value).den = -value.num.tdiv value.den
  rw [Rat.neg_num, Rat.neg_den, Int.neg_tdiv]

-- Truncation toward zero keeps the comparison with a positive integer.
theorem trunc_lt_iff (value : ℚ) (bound : Int) (hb : 0 < bound) :
    Coord.trunc value < bound ↔ value < bound := by
  rcases le_total 0 value with h | h
  · rw [trunc_of_nonneg value h, Int.floor_lt]
  · have hn : Coord.trunc value ≤ 0 := by
      have ht := trunc_neg (-value)
      rw [neg_neg, trunc_of_nonneg (-value) (by linarith)] at ht
      have hf : 0 ≤ ⌊-value⌋ := Int.floor_nonneg.mpr (by linarith)
      omega
    have hb' : (0 : ℚ) < bound := by exact_mod_cast hb
    exact ⟨fun _ => by linarith, fun _ => by omega⟩

theorem neg_lt_trunc_iff (value : ℚ) (bound : Int) (hb : 0 < bound) :
    -bound < Coord.trunc value ↔ -(bound : ℚ) < value := by
  have h := trunc_lt_iff (-value) bound hb
  rw [trunc_neg] at h
  constructor
  · intro hlt
    linarith [h.mp (by omega)]
  · intro hlt
    have := h.mpr (by linarith)
    omega

end SpaceInvaders

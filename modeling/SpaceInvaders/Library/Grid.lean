import Mathlib.Algebra.Order.Field.Basic
import Mathlib.Data.Nat.Cast.Order.Field
import Mathlib.Order.MinMax
import Mathlib.Tactic.Linarith
import Mathlib.Tactic.Ring

namespace Grid

variable {K : Type*} [Field K]

-- Rows of cells of one size with gaps of the same size. Each row is centred.

-- How far a row of `length` cells reaches from the first cell to the last.
def extent (width : K) (length : Nat) : K := (2 * length - 1) * width

def left (center width : K) (length col : Nat) : K :=
  center - extent width length / 2 + 2 * width * col

def top (first height : K) (row : Nat) : K := first + 2 * height * row

theorem left_zero (center width : K) (length : Nat) :
    left center width length 0 = center - extent width length / 2 := by
  simp [left]

theorem left_add (center offset width : K) (length col : Nat) :
    left (center + offset) width length col = left center width length col + offset := by
  unfold left
  ring

theorem top_add (first offset height : K) (row : Nat) :
    top (first + offset) height row = top first height row + offset := by
  unfold top
  ring

variable [LinearOrder K] [IsStrictOrderedRing K] (center width : K) (length col : Nat)

-- The right side of the last cell.
theorem left_last (h : 0 < length) :
    left center width length (length - 1) + width = center + extent width length / 2 := by
  obtain ⟨count, rfl⟩ := Nat.exists_eq_add_of_lt h
  simp only [left, extent, Nat.zero_add, Nat.add_sub_cancel]
  push_cast
  ring

theorem extent_le (longest : Nat) (hw : 0 ≤ width) (h : length ≤ longest) :
    extent width length ≤ extent width longest := by
  have hcast : (length : K) ≤ longest := by exact_mod_cast h
  exact mul_le_mul_of_nonneg_right (by linarith) hw

theorem left_le_left (other : Nat) (hw : 0 ≤ width) (h : col ≤ other) :
    left center width length col ≤ left center width length other := by
  have hcast : (col : K) ≤ other := by exact_mod_cast h
  have := mul_le_mul_of_nonneg_left hcast (by linarith : (0 : K) ≤ 2 * width)
  unfold left
  linarith

-- No cell of a row sticks out of a longer row.
theorem extent_le_left (longest : Nat) (hw : 0 ≤ width) (h : length ≤ longest) :
    center - extent width longest / 2 ≤ left center width length col := by
  have hle := left_le_left center width length 0 col hw (Nat.zero_le col)
  have hextent := extent_le width length longest hw h
  rw [left_zero] at hle
  linarith

theorem left_le_extent (longest : Nat) (hw : 0 ≤ width) (hcol : col < length)
    (h : length ≤ longest) :
    left center width length col + width ≤ center + extent width longest / 2 := by
  have hle := left_le_left center width length col (length - 1) hw (Nat.le_sub_one_of_lt hcol)
  have hlast := left_last center width length (Nat.zero_lt_of_lt hcol)
  have hextent := extent_le width length longest hw h
  linarith

-- Intervals that begin at different multiples of twice their length are apart.
theorem apart {origin size : K} (hsize : 0 < size) {first second : Nat} (h : first ≠ second) :
    ¬max (origin + 2 * size * first) (origin + 2 * size * second) <
      min (origin + 2 * size * first + size) (origin + 2 * size * second + size) := by
  have hordered (low high : Nat) (hlt : low < high) :
      origin + 2 * size * low + size ≤ origin + 2 * size * high := by
    have hcast : (low : K) + 1 ≤ high := by exact_mod_cast hlt
    have hmul := mul_le_mul_of_nonneg_left hcast (by linarith : (0 : K) ≤ 2 * size)
    linarith
  intro hlt
  rw [max_lt_iff, lt_min_iff, lt_min_iff] at hlt
  rcases Nat.lt_or_gt_of_ne h with hc | hc
  · linarith [hordered first second hc]
  · linarith [hordered second first hc]

end Grid

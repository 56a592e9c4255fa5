import SpaceInvaders.Geometry.Single
import SpaceInvaders.HandTracking.Snapshot

namespace SpaceInvaders

namespace HandTracker

-- The tips that the thumb is compared with.
def fingerTips : List Nat := [8, 12, 16, 20]

def pixel (published : List (Vector2 Int)) (point : Nat) : Vector2 Int :=
  published[point]?.getD ⟨-1, -1⟩

-- The square of the distance from the wrist, exactly.
def reach (published : List (Vector2 Int)) (point : Nat) : Int :=
  ((pixel published point).x - (pixel published 0).x) * ((pixel published point).x - (pixel published 0).x) +
    ((pixel published point).y - (pixel published 0).y) * ((pixel published point).y - (pixel published 0).y)

-- The rule of the comment above isFistClosed.
def ThumbReachesFarther (published : List (Vector2 Int)) : Prop :=
  ∀ tip ∈ fingerTips, reach published tip < reach published 4

-- No finger reaches farther than the thumb, and one reaches as far.
def ThumbTies (published : List (Vector2 Int)) : Prop :=
  (∀ tip ∈ fingerTips, reach published tip ≤ reach published 4) ∧
    ∃ tip ∈ fingerTips, reach published tip = reach published 4

theorem reach_nonneg (published : List (Vector2 Int)) (point : Nat) : 0 ≤ reach published point :=
  Int.add_nonneg (mul_self_nonneg _) (mul_self_nonneg _)

section Maximum

variable {α : Type} [Coord α]

-- The best index only grows: it is the one at hand or comes later.
theorem maxElement_cases (largest : α) (best next : Nat) (values : List α) :
    maxElement largest best next values = best ∨ next ≤ maxElement largest best next values := by
  induction values generalizing largest best next with
  | nil => exact .inl rfl
  | cons value rest ih =>
      unfold maxElement
      split_ifs
      · right
        rcases ih value next (next + 1) with h | h <;> omega
      · rcases ih largest best (next + 1) with h | h
        · exact .inl h
        · exact .inr (by omega)

-- The first element is the answer when nothing is greater, equal values included.
theorem maxElement_eq_best_iff (largest : α) (best next : Nat) (h : best < next) (values : List α) :
    maxElement largest best next values = best ↔ ∀ value ∈ values, ¬largest < value := by
  induction values generalizing next with
  | nil => simp [maxElement]
  | cons value rest ih =>
      have hrest := ih (next + 1) (by omega)
      unfold maxElement
      by_cases hgreater : largest < value
      · rw [if_pos hgreater]
        refine iff_of_false (fun hbest => ?_) fun hnone => hnone value (by simp) hgreater
        rcases maxElement_cases value next (next + 1) rest with hc | hc <;> omega
      · rw [if_neg hgreater, hrest]
        simp [hgreater]

end Maximum

-- The distance from the wrist as the call computes it.
def distance (platform : Platform Single) (published : List (Vector2 Int)) (point : Nat) : Single :=
  euclideanDistance platform (getHandLandmark (frameHandLandmarks published) 0)
    (getHandLandmark (frameHandLandmarks published) point)

-- No finger tip is farther than the thumb by the rounded distances, and one is at least as
-- far as the thumb.
def ThumbCatchesUp (platform : Platform Single) (published : List (Vector2 Int)) : Prop :=
  (∀ tip ∈ fingerTips, ¬distance platform published 4 < distance platform published tip) ∧
    ∃ tip ∈ fingerTips, reach published 4 ≤ reach published tip

-- A finger tip is farther than the thumb by the rounded distances, and all are nearer.
def ThumbFallsBack (platform : Platform Single) (published : List (Vector2 Int)) : Prop :=
  (∃ tip ∈ fingerTips, distance platform published 4 < distance platform published tip) ∧
    ∀ tip ∈ fingerTips, reach published tip < reach published 4

-- The pixels are floats, and their squared distances stay below the first two neighbours
-- with the same rounded root.
structure WithinPicture (published : List (Vector2 Int)) : Prop where
  exact : ∀ point ∈ 0 :: 4 :: fingerTips,
    |(pixel published point).x| ≤ 2 ^ 24 ∧ |(pixel published point).y| ≤ 2 ^ 24
  near : ∀ point ∈ 4 :: fingerTips, reach published point < 2 ^ 22

-- The call answers whether no finger is farther than the thumb.
theorem fistOn_iff (platform : Platform Single) (published : List (Vector2 Int)) (hne : published ≠ []) :
    fistOn platform published = true ↔
      ∀ tip ∈ fingerTips, ¬distance platform published 4 < distance platform published tip := by
  have hlength : (frameHandLandmarks (α := Single) published).length ≠ 0 := by
    simpa [frameHandLandmarks] using hne
  have hmax := maxElement_eq_best_iff (distance platform published 4) 0 1 Nat.zero_lt_one
    (fingerTips.map (distance platform published))
  rw [List.forall_mem_map] at hmax
  simp only [fistOn, isFistClosed, hlength, ite_false, thumbIsFarthest, beq_iff_eq]
  exact hmax

theorem getHandLandmark_pixel (published : List (Vector2 Int)) (point : Nat) :
    getHandLandmark (frameHandLandmarks published) point =
      (⟨((pixel published point).x : Single), ((pixel published point).y : Single)⟩ : Vector2 Single) := by
  simp only [getHandLandmark, frameHandLandmarks, pixel, List.getElem?_map]
  cases published[point]? with
  | none => decide +kernel
  | some found => rfl

-- A side of a square that is within bounds is within them.
theorem side_le {side other : Int} (h : side * side + other * other < 2 ^ 22) :
    |side| ≤ 2 ^ 24 ∧ |side * side| ≤ 2 ^ 24 := by
  have hside := mul_self_nonneg side
  have hother := mul_self_nonneg other
  rw [abs_of_nonneg hside]
  exact ⟨abs_le.mpr ⟨by nlinarith, by nlinarith⟩, by linarith⟩

-- Nothing but the root is rounded.
theorem distance_eq_sqrt (platform : Platform Single) {published : List (Vector2 Int)}
    (h : WithinPicture published) {point : Nat} (hpoint : point ∈ 4 :: fingerTips) :
    distance platform published point = platform.sqrt (reach published point : Single) := by
  obtain ⟨hwristX, hwristY⟩ := h.exact 0 (List.mem_cons_self ..)
  obtain ⟨hx, hy⟩ := h.exact point (List.mem_cons_of_mem _ hpoint)
  have hreach := h.near point hpoint
  unfold reach at hreach
  obtain ⟨hsideX, hsquareX⟩ := side_le hreach
  obtain ⟨hsideY, hsquareY⟩ := side_le ((add_comm _ _).trans_lt hreach)
  rw [distance, getHandLandmark_pixel, getHandLandmark_pixel, euclideanDistance, reach]
  simp only
  rw [Single.intCast_sub hx hwristX, Single.intCast_sub hy hwristY, Single.intCast_mul hsideX hsideX,
    Single.intCast_mul hsideY hsideY, Single.intCast_add hsquareX hsquareY]

theorem distance_lt_iff (platform : Platform Single)
    (hsqrt : ∀ first second : Nat, first < 2 ^ 22 → second < 2 ^ 22 →
      (platform.sqrt ((first : Int) : Single) < platform.sqrt ((second : Int) : Single) ↔ first < second))
    {published : List (Vector2 Int)} (h : WithinPicture published) {near far : Nat}
    (hnear : near ∈ 4 :: fingerTips) (hfar : far ∈ 4 :: fingerTips) :
    distance platform published near < distance platform published far ↔
      reach published near < reach published far := by
  have hfirst := h.near near hnear
  have hsecond := h.near far hfar
  rw [distance_eq_sqrt platform h hnear, distance_eq_sqrt platform h hfar]
  obtain ⟨first, heq⟩ := Int.eq_ofNat_of_zero_le (reach_nonneg published near)
  obtain ⟨second, heq'⟩ := Int.eq_ofNat_of_zero_le (reach_nonneg published far)
  rw [heq] at hfirst
  rw [heq'] at hsecond
  rw [heq, heq', Int.ofNat_lt]
  exact hsqrt first second (by omega) (by omega)

-- The documented rule decides if and only if the thumb does not catch up by a rounded or an
-- equal distance, nor fall back by a rounded one. Within a picture that is: it does not tie.
theorem fistRule_iff (platform : Platform Single)
    (hsqrt : ∀ first second : Nat, first < 2 ^ 22 → second < 2 ^ 22 →
      (platform.sqrt ((first : Int) : Single) < platform.sqrt ((second : Int) : Single) ↔ first < second))
    (published : List (Vector2 Int)) (hlength : 21 ≤ published.length) :
    ((fistOn platform published = true ↔ ThumbReachesFarther published) ↔
        ¬ThumbCatchesUp platform published ∧ ¬ThumbFallsBack platform published) ∧
      (WithinPicture published →
        ((fistOn platform published = true ↔ ThumbReachesFarther published) ↔ ¬ThumbTies published)) := by
  have hne : published ≠ [] := List.ne_nil_of_length_pos (by omega)
  rw [fistOn_iff platform published hne]
  refine ⟨?_, fun hwithin => ?_⟩
  · have hmiss : (∃ tip ∈ fingerTips, distance platform published 4 < distance platform published tip) ↔
        ¬∀ tip ∈ fingerTips, ¬distance platform published 4 < distance platform published tip := by
      simp only [not_forall, not_not, exists_prop]
    have hreach : (∃ tip ∈ fingerTips, reach published 4 ≤ reach published tip) ↔
        ¬∀ tip ∈ fingerTips, reach published tip < reach published 4 := by
      simp only [not_forall, not_lt, exists_prop]
    rw [ThumbCatchesUp, ThumbFallsBack, ThumbReachesFarther, hmiss, hreach]
    tauto
  have hnearer : (∀ tip ∈ fingerTips, ¬distance platform published 4 < distance platform published tip) ↔
      ∀ tip ∈ fingerTips, reach published tip ≤ reach published 4 :=
    forall₂_congr fun tip htip => by
      rw [distance_lt_iff platform hsqrt hwithin (by decide) (List.mem_cons_of_mem _ htip), not_lt]
  rw [hnearer]
  constructor
  · rintro hrule ⟨hnone, tip, htip, htie⟩
    have hless := hrule.mp hnone tip htip
    omega
  · intro hties
    constructor
    · intro hnone tip htip
      rcases Int.lt_or_eq_of_le (hnone tip htip) with hless | htie
      · exact hless
      · exact absurd ⟨hnone, tip, htip, htie⟩ hties
    · exact fun hrule tip htip => Int.le_of_lt (hrule tip htip)

-- All distances in the open hand are roots of squares.
theorem fistRule_iff_openLandmarks :
    fistOn arcadeSingle openLandmarks = true ↔ ThumbReachesFarther openLandmarks := by
  refine ((fistRule_iff arcadeSingle arcadeSingle_sqrt_lt_iff openLandmarks (by decide)).2
    ⟨by decide, by decide⟩).mpr ?_
  unfold ThumbTies
  decide

-- All points in one place: what is published of any hand for an empty camera frame.
theorem still_hand_is_fist :
    pixels 0 0 (List.replicate 21 (⟨Single.of (1 / 2), Single.of (1 / 2)⟩ : Vector2 Single)) =
        List.replicate 21 ⟨0, 0⟩ ∧
      ¬(fistOn arcadeSingle (List.replicate 21 ⟨0, 0⟩) = true ↔
        ThumbReachesFarther (List.replicate 21 ⟨0, 0⟩)) := by
  unfold ThumbReachesFarther
  decide +kernel

end HandTracker

end SpaceInvaders

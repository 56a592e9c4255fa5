import Mathlib.Algebra.Order.Floor.Semiring
import SpaceInvaders.Library.DeadBand
import SpaceInvaders.Entity.Player.Confine
import SpaceInvaders.Entity.Player.Lemmas
import SpaceInvaders.HandTracking.HandTracker

namespace SpaceInvaders

open DeadBand (Drive Settles)

-- The point that setDestination stores for this wrist pixel.
def HandTracker.goal (tracker : HandTracker ℚ) (wrist : Vector2 ℚ) : Vector2 Int :=
  ⟨Coord.trunc (tracker.convert wrist).x, Coord.trunc (tracker.convert wrist).y⟩

-- The tracker of a window of this size over a camera of the given frame size.
def HandTracker.ofWindow (windowSize : Vector2 Nat) (cameraSize : Vector2 ℚ) : HandTracker ℚ :=
  HandTracker.new ⟨(windowSize.x : ℚ), (windowSize.y : ℚ)⟩ cameraSize

namespace Player

-- One pass under an open hand at the wrist pixel, with no key and no button pressed.
def follow (platform : Platform ℚ) (tracker : HandTracker ℚ) (windowSize : Vector2 Nat)
    (wrist : Vector2 ℚ) (player : Player ℚ) : Player ℚ :=
  (player.setDestination (tracker.convert wrist)).update platform .none windowSize

-- On each axis the ship is a drive with a margin of 10 and strides of 10 * 0.95.
def axis (room : ℚ) (h : 0 ≤ room) : Drive ℚ where
  margin := 10
  stride := 19 / 2
  low := 0
  high := room
  stride_pos := by norm_num
  stride_le := by norm_num
  track := h

theorem limit_of_gt (velocity : ℚ) (h : 10 < velocity) : limit velocity = 10 := by
  have habs : 10 < |velocity| := by rwa [abs_of_pos (by linarith)]
  have hpos : ¬velocity < 0 := by linarith
  simp [limit, stdAbs_eq_abs, maxVelocity, habs, hpos]

theorem limit_of_lt (velocity : ℚ) (h : velocity < -10) : limit velocity = -10 := by
  have habs : 10 < |velocity| := by
    rw [abs_of_neg (by linarith)]
    linarith
  have hneg : velocity < 0 := by linarith
  simp [limit, stdAbs_eq_abs, maxVelocity, habs, hneg]

-- A difference of ten or more takes the velocity to its limit in one step, from
-- any velocity the ship can have.
theorem approach_eq (velocity offset : ℚ) (hv : |velocity| ≤ 10) :
    approach velocity (Coord.trunc offset) =
      if |offset| < 10 then 0 else if 0 < offset then 10 else -10 := by
  obtain ⟨hlow, hhigh⟩ := abs_le.mp hv
  have hbelow := trunc_lt_iff offset 10 (by norm_num)
  have habove := neg_lt_trunc_iff offset 10 (by norm_num)
  have hnear : (Coord.trunc offset < 10 ∧ Coord.trunc offset > -10) ↔ |offset| < 10 := by
    rw [abs_lt, hbelow, gt_iff_lt, habove, and_comm]
    norm_cast
  simp only [approach, hnear]
  split_ifs with hin hpos
  · rfl
  · have hfar : (10 : ℤ) ≤ Coord.trunc offset := by
      rw [← not_lt, hbelow, not_lt]
      rw [abs_of_pos hpos] at hin
      exact_mod_cast le_of_not_gt hin
    have hcast : (10 : ℚ) ≤ (Coord.trunc offset : ℤ) := by exact_mod_cast hfar
    exact limit_of_gt _ (by simp only [acceleration]; push_cast; linarith)
  · have hfar : Coord.trunc offset ≤ (-10 : ℤ) := by
      rw [← not_lt, habove, not_lt]
      rw [abs_of_nonpos (le_of_not_gt hpos)] at hin
      push_cast
      linarith
    have hcast : ((Coord.trunc offset : ℤ) : ℚ) ≤ -10 := by exact_mod_cast hfar
    exact limit_of_lt _ (by simp only [acceleration]; push_cast; linarith)

theorem damp_approach (room : ℚ) (h : 0 ≤ room) (velocity offset : ℚ) (hv : |velocity| ≤ 10) :
    damp (approach velocity (Coord.trunc offset)) = (axis room h).push offset := by
  have hrest : damp (0 : ℚ) = 0 := by norm_num [damp, stdAbs_eq_abs, minVelocity]
  have hup : damp (10 : ℚ) = 19 / 2 := by norm_num [damp, stdAbs_eq_abs, minVelocity, slow]
  have hdown : damp (-10 : ℚ) = -(19 / 2) := by norm_num [damp, stdAbs_eq_abs, minVelocity, slow]
  rw [approach_eq velocity offset hv]
  by_cases hin : |offset| < 10
  · rw [if_pos hin, hrest]
    exact ((axis room h).push_of_near hin).symm
  · rw [if_neg hin]
    refine Eq.trans ?_ ((axis room h).push_of_far hin).symm
    by_cases hpos : 0 < offset
    · rw [if_pos hpos, if_pos hpos]
      exact hup
    · rw [if_neg hpos, if_neg hpos]
      exact hdown

-- The destination is in the window for every wrist pixel in the picture.
theorem goal_mem (windowSize : Vector2 Nat) (cameraSize wrist : Vector2 ℚ)
    (hx : 0 ≤ wrist.x ∧ wrist.x ≤ cameraSize.x) (hy : 0 ≤ wrist.y ∧ wrist.y ≤ cameraSize.y)
    (hcamera : 0 < cameraSize.x ∧ 0 < cameraSize.y) :
    0 ≤ ((HandTracker.ofWindow windowSize cameraSize).goal wrist).x ∧
      0 ≤ ((HandTracker.ofWindow windowSize cameraSize).goal wrist).y := by
  have hw : (0 : ℚ) ≤ windowSize.x := Nat.cast_nonneg _
  have hh : (0 : ℚ) ≤ windowSize.y := Nat.cast_nonneg _
  have hseen : ¬(wrist.x = -((1 : Int) : ℚ) ∧ wrist.y = -((1 : Int) : ℚ)) := by
    rintro ⟨hnone, _⟩
    push_cast at hnone
    linarith [hx.1]
  have hposx : (0 : ℚ) ≤ (cameraSize.x - wrist.x) * (windowSize.x / cameraSize.x) :=
    mul_nonneg (by linarith [hx.2]) (div_nonneg hw (le_of_lt hcamera.1))
  have hposy : (0 : ℚ) ≤ wrist.y * (windowSize.y / cameraSize.y) :=
    mul_nonneg hy.1 (div_nonneg hh (le_of_lt hcamera.2))
  simp only [HandTracker.goal, HandTracker.convert, HandTracker.ofWindow,
    HandTracker.new, if_neg hseen]
  rw [trunc_of_nonneg _ hposx, trunc_of_nonneg _ hposy]
  exact ⟨Int.floor_nonneg.mpr hposx, Int.floor_nonneg.mpr hposy⟩

-- What a pass needs of the ship, and leaves of it.
structure Steerable (size : Vector2 ℚ) (windowSize : Vector2 Nat) (player : Player ℚ) : Prop where
  inside : Inside size windowSize player.position
  speedX : |player.velocity.x| ≤ 10
  speedY : |player.velocity.y| ≤ 10

theorem updateMovement_setDestination (platform : Platform ℚ) (tracker : HandTracker ℚ)
    (wrist : Vector2 ℚ) (hgoal : 0 ≤ (tracker.goal wrist).x) (player : Player ℚ) :
    (player.setDestination (tracker.convert wrist)).updateMovement platform .none =
      (player.setDestination (tracker.convert wrist)).move := by
  rw [updateMovement_idle]
  apply if_pos
  change (tracker.goal wrist).x ≠ -1
  omega

variable {platform : Platform ℚ} {size : Vector2 ℚ} {windowSize : Vector2 Nat}

theorem follow_position (hsize : platform.ShipSize size) (tracker : HandTracker ℚ)
    (wrist : Vector2 ℚ) (hx : 0 ≤ (windowSize.x : ℚ) - size.x)
    (hy : 0 ≤ (windowSize.y : ℚ) - size.y) (hgoal : 0 ≤ (tracker.goal wrist).x) (player : Player ℚ)
    (h : Steerable size windowSize player) :
    (player.follow platform tracker windowSize wrist).position =
      ⟨(axis _ hx).step (tracker.goal wrist).x player.position.x,
        (axis _ hy).step (tracker.goal wrist).y player.position.y⟩ := by
  have hmoves := updateMovement_setDestination platform tracker wrist hgoal player
  have hpushx := damp_approach _ hx player.velocity.x ((tracker.goal wrist).x - player.position.x)
    h.speedX
  have hpushy := damp_approach _ hy player.velocity.y ((tracker.goal wrist).y - player.position.y)
    h.speedY
  rw [follow, update_position hsize, hmoves]
  change nearest size windowSize
    ⟨player.position.x + damp (approach player.velocity.x
        (Coord.trunc (((tracker.goal wrist).x : ℚ) - player.position.x))),
      player.position.y + damp (approach player.velocity.y
        (Coord.trunc (((tracker.goal wrist).y : ℚ) - player.position.y)))⟩ = _
  rw [hpushx, hpushy]
  rfl

theorem follow_steerable (hsize : platform.ShipSize size) (tracker : HandTracker ℚ)
    (wrist : Vector2 ℚ) (hx : 0 ≤ (windowSize.x : ℚ) - size.x)
    (hy : 0 ≤ (windowSize.y : ℚ) - size.y) (hgoal : 0 ≤ (tracker.goal wrist).x) (player : Player ℚ)
    (h : Steerable size windowSize player) :
    Steerable size windowSize (player.follow platform tracker windowSize wrist) := by
  have hmoves := updateMovement_setDestination platform tracker wrist hgoal player
  have hslow (offset velocity : ℚ) (hv : |velocity| ≤ 10) :
      |damp (approach velocity (Coord.trunc offset))| ≤ 10 := by
    rw [damp_approach _ hx velocity offset hv]
    exact ((axis _ hx).abs_push_le offset).trans (by norm_num [axis])
  obtain ⟨hvx, hvy⟩ := confine_velocity platform windowSize
    (player.setDestination (tracker.convert wrist)).move.updatePhysics
  have hvelocity : (player.follow platform tracker windowSize wrist).velocity =
      ((player.setDestination (tracker.convert wrist)).move.updatePhysics.confine platform
        windowSize).velocity := by
    simp only [follow, update, updateBullets, hmoves, coolDown]
    split_ifs <;> rfl
  refine ⟨?_, ?_, ?_⟩
  · rw [follow, update_position hsize]
    exact inside_nearest size windowSize _ (by linarith) (by linarith)
  · rw [hvelocity]
    rcases hvx with hv | hv <;> rw [hv]
    · norm_num
    · exact hslow _ _ h.speedX
  · rw [hvelocity]
    rcases hvy with hv | hv <;> rw [hv]
    · norm_num
    · exact hslow _ _ h.speedY

-- The passes under a resting hand are the steps of two drives, one for each axis.
theorem iterate_follow_position (hsize : platform.ShipSize size) (tracker : HandTracker ℚ)
    (wrist : Vector2 ℚ) (hx : 0 ≤ (windowSize.x : ℚ) - size.x)
    (hy : 0 ≤ (windowSize.y : ℚ) - size.y) (hgoal : 0 ≤ (tracker.goal wrist).x) (player : Player ℚ)
    (h : Steerable size windowSize player) (n : ℕ) :
    Steerable size windowSize ((follow platform tracker windowSize wrist)^[n] player) ∧
    ((follow platform tracker windowSize wrist)^[n] player).position =
      ⟨((axis _ hx).step (tracker.goal wrist).x)^[n] player.position.x,
        ((axis _ hy).step (tracker.goal wrist).y)^[n] player.position.y⟩ := by
  induction n with
  | zero => exact ⟨h, rfl⟩
  | succ n ih =>
      obtain ⟨hsteer, hposition⟩ := ih
      simp only [Function.iterate_succ_apply']
      refine ⟨follow_steerable hsize tracker wrist hx hy hgoal _ hsteer, ?_⟩
      rw [follow_position hsize tracker wrist hx hy hgoal _ hsteer, hposition]

-- Under a hand at rest the ship settles within ten pixels of the point that it
-- can reach, in as many passes as strides of 9.5 cover the first distance, and
-- on each axis it neither retreats nor crosses the destination on the way.
theorem settles_on_hand (hsize : platform.ShipSize size) (cameraSize wrist : Vector2 ℚ)
    (hcamera : 0 < cameraSize.x ∧ 0 < cameraSize.y) (hwx : 0 ≤ wrist.x ∧ wrist.x ≤ cameraSize.x)
    (hwy : 0 ≤ wrist.y ∧ wrist.y ≤ cameraSize.y) (player : Player ℚ)
    (h : Steerable size windowSize player) :
    let handTracker := HandTracker.ofWindow windowSize cameraSize
    let goal := handTracker.goal wrist
    let distance := max |player.position.x - goal.x| |player.position.y - goal.y|
    let ship := fun n => ((follow platform handTracker windowSize wrist)^[n] player).position
    Settles 10 (goal.x : ℚ) (min (goal.x : ℚ) (windowSize.x - size.x)) ⌈distance / (19 / 2)⌉₊
      (fun n => (ship n).x) ∧
    Settles 10 (goal.y : ℚ) (min (goal.y : ℚ) (windowSize.y - size.y)) ⌈distance / (19 / 2)⌉₊
      (fun n => (ship n).y) := by
  intro handTracker goal distance ship
  have hx : 0 ≤ (windowSize.x : ℚ) - size.x := by linarith [h.inside.left, h.inside.right]
  have hy : 0 ≤ (windowSize.y : ℚ) - size.y := by linarith [h.inside.top, h.inside.bottom]
  obtain ⟨hgx, hgy⟩ := goal_mem windowSize cameraSize wrist hwx hwy hcamera
  have hship (n : ℕ) := (iterate_follow_position hsize handTracker wrist hx hy hgx player h n).2
  have hceil : distance ≤ ⌈distance / (19 / 2)⌉₊ * (19 / 2) := by
    have hle := Nat.le_ceil (distance / (19 / 2))
    rwa [div_le_iff₀ (by norm_num)] at hle
  have hsettles (room value : ℚ) (hroom : 0 ≤ room) (target : Int) (htarget : 0 ≤ target)
      (hvalue : 0 ≤ value ∧ value ≤ room) (hdistance : |value - target| ≤ distance) :
      Settles 10 (target : ℚ) (min (target : ℚ) room) ⌈distance / (19 / 2)⌉₊
        (fun n => ((axis room hroom).step target)^[n] value) := by
    have hclamp : (axis room hroom).clamp target = min (target : ℚ) room := by
      have hpos : (0 : ℚ) ≤ target := by exact_mod_cast htarget
      exact congrArg (min · room) (max_eq_right hpos)
    rw [← hclamp]
    refine (axis room hroom).settles hvalue _ ?_
    rw [abs_sub_comm]
    exact hdistance.trans hceil
  constructor
  · simp only [ship, hship]
    refine hsettles _ _ hx goal.x hgx ⟨h.inside.left, by linarith [h.inside.right]⟩ ?_
    exact le_max_left ..
  · simp only [ship, hship]
    refine hsettles _ _ hy goal.y hgy ⟨h.inside.top, by linarith [h.inside.bottom]⟩ ?_
    exact le_max_right ..

-- The wrist in the middle of the picture brings the ship from the corner to the
-- middle of the window.
theorem settles_on_hand_from_corner :
    |((follow arcade (HandTracker.ofWindow ⟨1920, 1080⟩ ⟨640, 480⟩) ⟨1920, 1080⟩ ⟨320, 240⟩)^[102]
      (Player.new arcade ⟨0, 0⟩ .alive)).position.x - 960| < 10 := by
  have hgoal : (HandTracker.ofWindow ⟨1920, 1080⟩ ⟨640, 480⟩).goal ⟨320, 240⟩ = ⟨960, 540⟩ := by
    decide +kernel
  have hsteer : Steerable ⟨100, 100⟩ ⟨1920, 1080⟩ (Player.new arcade ⟨0, 0⟩ .alive) := by
    refine ⟨⟨le_refl _, ?_, le_refl _, ?_⟩, ?_, ?_⟩ <;> norm_num [Player.new]
  have hsize : arcade.ShipSize ⟨100, 100⟩ := fun _ => rfl
  have h := (settles_on_hand hsize ⟨640, 480⟩ ⟨320, 240⟩
    (by norm_num) (by norm_num) (by norm_num) _ hsteer).1
  have hsteps : ⌈max |(0 : ℚ) - 960| |(0 : ℚ) - 540| / (19 / 2)⌉₊ ≤ 102 := by
    rw [Nat.ceil_le]
    norm_num
  simp only [hgoal] at h
  have hnear := h.near 102 (by simpa [Player.new] using hsteps)
  norm_num at hnear
  exact hnear

end Player

end SpaceInvaders

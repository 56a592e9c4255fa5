import SpaceInvaders.Library.Run
import SpaceInvaders.Entity.Player.Confine

namespace SpaceInvaders.Player

open Transition

-- A destination from the hand, or an update.
inductive Command where
  | setDestination (destination : Vector2 ℚ)
  | update (controls : Controls)

def obey (platform : Platform ℚ) (windowSize : Vector2 Nat) : Command → Player ℚ → Option (Player ℚ)
  | .setDestination destination, player => some (player.setDestination destination)
  | .update controls, player => some (player.update platform controls windowSize)

-- One component of the velocity after an update: at rest, or between the cut-off
-- and the damped limit.
def Cruises (velocity : ℚ) : Prop := velocity = 0 ∨ 1 ≤ |velocity| ∧ |velocity| ≤ 19 / 2

structure Limited (before after : Player ℚ) : Prop where
  speedX : Cruises after.velocity.x
  speedY : Cruises after.velocity.y
  strideX : |after.position.x - before.position.x| ≤ 19 / 2
  strideY : |after.position.y - before.position.y| ≤ 19 / 2

-- What all contributions to the velocity keep.
structure Slow (player : Player ℚ) : Prop where
  x : |player.velocity.x| ≤ 10
  y : |player.velocity.y| ≤ 10

theorem abs_limit_le (velocity : ℚ) : |limit velocity| ≤ 10 := by
  unfold limit
  simp only [stdAbs_eq_abs, maxVelocity]
  split_ifs with hover hneg
  · norm_num
  · norm_num
  · push_cast at hover
    exact le_of_not_gt hover

theorem abs_approach_le (velocity : ℚ) (dir : Int) : |approach velocity dir| ≤ 10 := by
  unfold approach
  split_ifs
  · norm_num
  · exact abs_limit_le _

theorem cruises_abs_le {velocity : ℚ} (h : Cruises velocity) : |velocity| ≤ 19 / 2 := by
  rcases h with rfl | ⟨_, hle⟩
  · norm_num
  · exact hle

theorem damp_cruises (velocity : ℚ) (h : |velocity| ≤ 10) : Cruises (damp velocity) := by
  unfold damp
  simp only [stdAbs_eq_abs, minVelocity, slow]
  push_cast
  split_ifs with hslow
  · exact .inl rfl
  · refine .inr ⟨le_of_not_gt hslow, ?_⟩
    rw [abs_mul, abs_of_pos (by norm_num : (0 : ℚ) < 19 / 20)]
    linarith

theorem move_slow (player : Player ℚ) : Slow player.move :=
  ⟨abs_approach_le _ _, abs_approach_le _ _⟩

theorem pressKey_slow (pressed : Bool) (dirX dirY : ℚ) (player : Player ℚ) (h : Slow player) :
    Slow (player.pressKey pressed dirX dirY) := by
  cases pressed with
  | true => exact ⟨abs_limit_le _, abs_limit_le _⟩
  | false => exact h

theorem pressMouse_slow (mouse : Option (Vector2 Int)) (player : Player ℚ) (h : Slow player) :
    Slow (player.pressMouse mouse) := by
  cases mouse with
  | some pointer => exact ⟨h.x, h.y⟩
  | none => exact h

-- Each key adds to the velocity and limits it again, and so does the destination.
theorem updateMovement_slow (platform : Platform ℚ) (controls : Controls) (player : Player ℚ)
    (h : Slow player) : Slow (player.updateMovement platform controls) := by
  have hsteer : Slow (player.steer controls) := by
    have hkeys := pressKey_slow controls.keyD 1 0 _ (pressKey_slow controls.keyA (-1) 0 _
      (pressKey_slow controls.keyS 0 (2 / 5) _ (pressKey_slow controls.keyW 0 (-(2 / 5)) _
        (pressMouse_slow controls.mouse player h))))
    unfold steer
    push_cast
    split_ifs
    · exact move_slow _
    · exact hkeys
  unfold updateMovement
  split_ifs
  · unfold shoot
    split_ifs
    · exact hsteer
    · exact ⟨hsteer.x, hsteer.y⟩
  · exact hsteer

@[simp] theorem updateMovement_position (platform : Platform ℚ) (controls : Controls)
    (player : Player ℚ) : (player.updateMovement platform controls).position = player.position := by
  have hsteer : (player.steer controls).position = player.position :=
    steer_keeps position (fun _ _ _ => rfl) controls player
  unfold updateMovement shoot
  split_ifs <;> exact hsteer

theorem update_velocity (platform : Platform ℚ) (controls : Controls) (windowSize : Vector2 Nat)
    (player : Player ℚ) :
    (player.update platform controls windowSize).velocity =
      ((player.updateMovement platform controls).updatePhysics.confine platform windowSize).velocity := by
  simp only [update, updateBullets, coolDown]
  split_ifs <;> rfl

variable {platform : Platform ℚ} {size : Vector2 ℚ} {windowSize : Vector2 Nat}

-- One update: the contributions, the damping, the step and then the walls.
theorem update_limited (hsize : platform.ShipSize size) (controls : Controls) (player : Player ℚ)
    (hslow : Slow player) (hinside : Inside size windowSize player.position) :
    Limited player (player.update platform controls windowSize) := by
  have hsteered := updateMovement_slow platform controls player hslow
  have hdampX := damp_cruises _ hsteered.x
  have hdampY := damp_cruises _ hsteered.y
  obtain ⟨hvelocityX, hvelocityY⟩ := confine_velocity platform windowSize
    (player.updateMovement platform controls).updatePhysics
  obtain ⟨hstrideX, hstrideY⟩ := nearest_stride size windowSize player.position
    (player.updateMovement platform controls).updatePhysics.position hinside
  have hmoved : (player.updateMovement platform controls).updatePhysics.position =
      ⟨player.position.x + damp (player.updateMovement platform controls).velocity.x,
        player.position.y + damp (player.updateMovement platform controls).velocity.y⟩ := by
    simp only [updatePhysics, updateMovement_position]
  rw [hmoved] at hstrideX hstrideY
  simp only [add_sub_cancel_left] at hstrideX hstrideY
  rw [← hmoved, ← update_position hsize] at hstrideX hstrideY
  refine ⟨?_, ?_, hstrideX.trans (cruises_abs_le hdampX), hstrideY.trans (cruises_abs_le hdampY)⟩
  · rw [update_velocity]
    rcases hvelocityX with hzero | hsame
    · exact .inl hzero
    · rw [hsame]
      exact hdampX
  · rw [update_velocity]
    rcases hvelocityY with hzero | hsame
    · exact .inl hzero
    · rw [hsame]
      exact hdampY

-- What a command needs of the ship, and leaves of it.
structure Cruising (size : Vector2 ℚ) (windowSize : Vector2 Nat) (player : Player ℚ) : Prop where
  slow : Slow player
  inside : Inside size windowSize player.position

theorem obey_cruising (hsize : platform.ShipSize size) (command : Command) (player next : Player ℚ)
    (hplayer : Cruising size windowSize player)
    (h : obey platform windowSize command player = some next) : Cruising size windowSize next := by
  cases command with
  | setDestination destination =>
      cases h
      exact ⟨⟨hplayer.slow.x, hplayer.slow.y⟩, hplayer.inside⟩
  | update controls =>
      cases h
      have hlimited := update_limited hsize controls player hplayer.slow hplayer.inside
      have hx : size.x ≤ windowSize.x := by linarith [hplayer.inside.left, hplayer.inside.right]
      have hy : size.y ≤ windowSize.y := by linarith [hplayer.inside.top, hplayer.inside.bottom]
      refine ⟨⟨?_, ?_⟩, ?_⟩
      · linarith [cruises_abs_le hlimited.speedX]
      · linarith [cruises_abs_le hlimited.speedY]
      · rw [update_position hsize]
        exact inside_nearest size windowSize _ hx hy

-- Whatever keys are pressed and whatever destinations are set in between, a ship that
-- starts at rest is never faster than 9.5 on an axis and never goes farther in an update.
theorem speed_limit (hsize : platform.ShipSize size) (first : Player ℚ)
    (hinside : Inside size windowSize first.position) (hrest : first.velocity = ⟨0, 0⟩)
    (commands : List Command) (before after : Player ℚ) (controls : Controls)
    (hvisit : Visits (obey platform windowSize) first commands before (.update controls) after) :
    Limited before after := by
  have hfirst : Cruising size windowSize first := by
    refine ⟨⟨?_, ?_⟩, hinside⟩ <;> rw [hrest] <;> norm_num
  have hbefore := hvisit.invariant (Cruising size windowSize)
    (fun player command next hstep hplayer => obey_cruising hsize command player next hplayer
      hstep.step_eq) hfirst
  cases hvisit.step_eq
  exact update_limited hsize controls before hbefore.slow hbefore.inside

-- All four keys together, with a destination that the mouse has just set.
def allKeys : Controls := ⟨some ⟨700, 20⟩, true, true, true, true, true⟩

theorem speed_limit_allKeys :
    Limited ((Player.new arcade ⟨0, 0⟩ .alive).setPosition 200 200)
      (((Player.new arcade ⟨0, 0⟩ .alive).setPosition 200 200).update arcade allKeys ⟨640, 480⟩) := by
  have hinside : Inside ⟨100, 100⟩ ⟨640, 480⟩
      ((Player.new arcade ⟨0, 0⟩ .alive).setPosition 200 200).position := by
    constructor <;> norm_num [setPosition]
  exact speed_limit (fun _ => rfl) _ hinside rfl [.update allKeys] _ _ allKeys (visits_head _ _ _ [] rfl)

end SpaceInvaders.Player

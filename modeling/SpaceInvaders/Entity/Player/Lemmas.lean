import SpaceInvaders.Entity.Player

namespace SpaceInvaders.Player

variable {α : Type} [Coord α]

-- The members that steering the ship neither reads nor writes.
def withRest (bulletVec : List (Bullet α)) (lives : Int) (state : State) (player : Player α) :
    Player α :=
  { player with bulletVec := bulletVec, lives := lives, state := state }

-- The bullet that a call of shoot appends.
def shot (platform : Platform α) (player : Player α) : List (Bullet α) :=
  if player.isFiring then
    []
  else
    [Bullet.new (player.position.x + (player.getPlayerBounds platform).width / ((2 : Int) : α))
      player.position.y 5]

-- The bullet that an update appends for the Space key.
def spaceShot (platform : Platform α) (controls : Controls) (player : Player α) : List (Bullet α) :=
  if controls.keySpace then (player.steer controls).shot platform else []

-- Steering writes the velocity and the destination only.
theorem steer_keeps {β : Type} (view : Player α → β)
    (hview : ∀ (player : Player α) (velocity : Vector2 α) (destination : Vector2 Int),
      view { player with velocity := velocity, destination := destination } = view player)
    (controls : Controls) (player : Player α) : view (player.steer controls) = view player := by
  have hmouse : view (player.pressMouse controls.mouse) = view player := by
    cases controls.mouse with
    | some pointer => exact hview player player.velocity _
    | none => rfl
  have hkey (pressed : Bool) (dirX dirY : α) (p : Player α) :
      view (p.pressKey pressed dirX dirY) = view p := by
    cases pressed with
    | true => exact hview p _ _
    | false => rfl
  have hmove (p : Player α) : view (if p.destination.x ≠ -1 then p.move else p) = view p := by
    split_ifs
    · exact hview p _ p.destination
    · rfl
  simp only [steer, hmove, hkey, hmouse]

variable (bulletVec : List (Bullet α)) (lives : Int) (state : State)

omit [Coord α] in
theorem withRest_self (player : Player α) :
    player.withRest player.bulletVec player.lives player.state = player := rfl

omit [Coord α] in
@[simp] theorem withRest_position (player : Player α) :
    (player.withRest bulletVec lives state).position = player.position := rfl

theorem shoot_withRest (platform : Platform α) (player : Player α) :
    (player.withRest bulletVec lives state).shoot platform =
      (player.shoot platform).withRest (bulletVec ++ player.shot platform) lives state := by
  unfold shoot shot
  cases h : player.isFiring <;> simp [withRest, h, getPlayerBounds]

theorem pressKey_withRest (pressed : Bool) (dirX dirY : α) (player : Player α) :
    (player.withRest bulletVec lives state).pressKey pressed dirX dirY =
      (player.pressKey pressed dirX dirY).withRest bulletVec lives state := by
  cases pressed <;> rfl

theorem steer_withRest (controls : Controls) (player : Player α) :
    (player.withRest bulletVec lives state).steer controls =
      (player.steer controls).withRest bulletVec lives state := by
  have hmouse : (player.withRest bulletVec lives state).pressMouse controls.mouse =
      (player.pressMouse controls.mouse).withRest bulletVec lives state := by
    cases h : controls.mouse <;> rfl
  have hmove (p : Player α) :
      (if (p.withRest bulletVec lives state).destination.x ≠ -1 then
        (p.withRest bulletVec lives state).move else p.withRest bulletVec lives state) =
      (if p.destination.x ≠ -1 then p.move else p).withRest bulletVec lives state := by
    change (if p.destination.x ≠ -1 then _ else _) = _
    split_ifs <;> rfl
  simp only [steer, hmouse, pressKey_withRest, hmove]

theorem updateMovement_withRest (platform : Platform α) (controls : Controls) (player : Player α) :
    (player.withRest bulletVec lives state).updateMovement platform controls =
      (player.updateMovement platform controls).withRest
        (bulletVec ++ player.spaceShot platform controls) lives state := by
  unfold updateMovement spaceShot
  cases controls.keySpace with
  | true =>
      simp only [ite_true, steer_withRest]
      exact shoot_withRest bulletVec lives state platform (player.steer controls)
  | false => simp [steer_withRest]

-- With no key and no button pressed only the destination is left to steer to.
theorem updateMovement_idle (platform : Platform α) (player : Player α) :
    player.updateMovement platform .none =
      if player.destination.x ≠ -1 then player.move else player := by
  simp only [updateMovement, Controls.none, Bool.false_eq_true, ite_false]
  rfl

theorem confine_withRest (platform : Platform α) (windowSize : Vector2 Nat) (player : Player α) :
    (player.withRest bulletVec lives state).confine platform windowSize =
      (player.confine platform windowSize).withRest bulletVec lives state := by
  have hleft (p : Player α) : (p.withRest bulletVec lives state).clampLeft =
      p.clampLeft.withRest bulletVec lives state := by
    unfold clampLeft
    change (if p.position.x < 0 then _ else _) = _
    split_ifs <;> rfl
  have hup (p : Player α) : (p.withRest bulletVec lives state).clampUp =
      p.clampUp.withRest bulletVec lives state := by
    unfold clampUp
    change (if p.position.y < 0 then _ else _) = _
    split_ifs <;> rfl
  have hbottom (p : Player α) : (p.withRest bulletVec lives state).clampBottom platform windowSize =
      (p.clampBottom platform windowSize).withRest bulletVec lives state := by
    unfold clampBottom
    change (let bounds := p.getPlayerBounds platform
      if ((windowSize.y : Int) : α) < bounds.top + bounds.height then _ else _) = _
    dsimp only
    split_ifs <;> rfl
  have hright (p : Player α) : (p.withRest bulletVec lives state).clampRight platform windowSize =
      (p.clampRight platform windowSize).withRest bulletVec lives state := by
    unfold clampRight
    change (let bounds := p.getPlayerBounds platform
      if ((windowSize.x : Int) : α) < bounds.left + bounds.width then _ else _) = _
    dsimp only
    split_ifs <;> rfl
  simp only [confine, hleft, hup, hbottom, hright]

omit [Coord α] in
theorem coolDown_withRest (player : Player α) :
    (player.withRest bulletVec lives state).coolDown =
      player.coolDown.withRest bulletVec lives state := by
  unfold coolDown
  change (if player.cooldown < 10 ∧ player.isFiring = true then _
    else if player.cooldown = 10 then _ else _) = _
  split_ifs <;> rfl

-- An update moves the ship without looking at the bullets, the lives and the state.
theorem update_withRest (platform : Platform α) (controls : Controls) (windowSize : Vector2 Nat)
    (player : Player α) :
    (player.withRest bulletVec lives state).update platform controls windowSize =
      (player.update platform controls windowSize).withRest
        ((bulletVec ++ player.spaceShot platform controls).map Bullet.updateBullet) lives state := by
  have hphysics (p : Player α) (bullets : List (Bullet α)) :
      (p.withRest bullets lives state).updatePhysics = p.updatePhysics.withRest bullets lives state := rfl
  simp only [update, updateMovement_withRest, hphysics, confine_withRest, coolDown_withRest]
  rfl

theorem update_bulletVec (platform : Platform α) (controls : Controls) (windowSize : Vector2 Nat)
    (player : Player α) :
    (player.update platform controls windowSize).bulletVec =
      (player.bulletVec ++ player.spaceShot platform controls).map Bullet.updateBullet := by
  have h := update_withRest player.bulletVec player.lives player.state platform controls windowSize player
  rw [withRest_self] at h
  exact congrArg Player.bulletVec h

@[simp] theorem update_lives (platform : Platform α) (controls : Controls) (windowSize : Vector2 Nat)
    (player : Player α) : (player.update platform controls windowSize).lives = player.lives := by
  have h := update_withRest player.bulletVec player.lives player.state platform controls windowSize player
  rw [withRest_self] at h
  have hlives := congrArg Player.lives h
  exact hlives

@[simp] theorem update_state (platform : Platform α) (controls : Controls) (windowSize : Vector2 Nat)
    (player : Player α) : (player.update platform controls windowSize).state = player.state := by
  have h := update_withRest player.bulletVec player.lives player.state platform controls windowSize player
  rw [withRest_self] at h
  have hstate := congrArg Player.state h
  exact hstate

theorem shoot_bulletVec (platform : Platform α) (player : Player α) :
    (player.shoot platform).bulletVec = player.bulletVec ++ player.shot platform :=
  congrArg Player.bulletVec
    (shoot_withRest player.bulletVec player.lives player.state platform player)

@[simp] theorem shoot_lives (platform : Platform α) (player : Player α) :
    (player.shoot platform).lives = player.lives := by
  unfold shoot
  split_ifs <;> rfl

@[simp] theorem shoot_state (platform : Platform α) (player : Player α) :
    (player.shoot platform).state = player.state := by
  unfold shoot
  split_ifs <;> rfl

-- A shot is one bullet that starts alive and flies upwards.
theorem mem_shot (platform : Platform α) (player : Player α) (bullet : Bullet α)
    (h : bullet ∈ player.shot platform) : ∃ x y, bullet = Bullet.new x y 5 := by
  unfold shot at h
  split at h
  · simp at h
  · exact ⟨_, _, List.mem_singleton.mp h⟩

theorem mem_spaceShot (platform : Platform α) (controls : Controls) (player : Player α)
    (bullet : Bullet α) (h : bullet ∈ player.spaceShot platform controls) :
    ∃ x y, bullet = Bullet.new x y 5 := by
  unfold spaceShot at h
  split at h
  · exact mem_shot platform _ bullet h
  · simp at h

end SpaceInvaders.Player

import Mathlib.Algebra.Order.Group.MinMax
import SpaceInvaders.Entity.Player.Lemmas

namespace SpaceInvaders

-- The ship's global bounds are its position and a fixed size.
def Platform.ShipSize (platform : Platform ℚ) (size : Vector2 ℚ) : Prop :=
  ∀ position, platform.shipBounds position = FloatRect.ofSize size position

-- A ship of the size at the position lies in the window.
structure Inside (size : Vector2 ℚ) (windowSize : Vector2 Nat) (position : Vector2 ℚ) : Prop where
  left : 0 ≤ position.x
  right : position.x + size.x ≤ windowSize.x
  top : 0 ≤ position.y
  bottom : position.y + size.y ≤ windowSize.y

-- The nearest position inside the window.
def nearest (size : Vector2 ℚ) (windowSize : Vector2 Nat) (position : Vector2 ℚ) : Vector2 ℚ :=
  ⟨min (max 0 position.x) (windowSize.x - size.x), min (max 0 position.y) (windowSize.y - size.y)⟩

theorem inside_nearest (size : Vector2 ℚ) (windowSize : Vector2 Nat) (position : Vector2 ℚ)
    (hx : size.x ≤ windowSize.x) (hy : size.y ≤ windowSize.y) :
    Inside size windowSize (nearest size windowSize position) where
  left := le_min (le_max_left _ _) (by linarith)
  right := by
    have h := min_le_right (max 0 position.x) ((windowSize.x : ℚ) - size.x)
    simp only [nearest]
    linarith
  top := le_min (le_max_left _ _) (by linarith)
  bottom := by
    have h := min_le_right (max 0 position.y) ((windowSize.y : ℚ) - size.y)
    simp only [nearest]
    linarith

-- For a ship inside the window the walls shorten its way and never lengthen it.
theorem nearest_stride (size : Vector2 ℚ) (windowSize : Vector2 Nat) (position moved : Vector2 ℚ)
    (h : Inside size windowSize position) :
    |(nearest size windowSize moved).x - position.x| ≤ |moved.x - position.x| ∧
    |(nearest size windowSize moved).y - position.y| ≤ |moved.y - position.y| := by
  have hstride (place value room : ℚ) (hlow : 0 ≤ place) (hhigh : place ≤ room) :
      |min (max 0 value) room - place| ≤ |value - place| := by
    have hsame : min (max 0 place) room = place := by rw [max_eq_right hlow, min_eq_left hhigh]
    calc |min (max 0 value) room - place|
      _ = |min (max 0 value) room - min (max 0 place) room| := by rw [hsame]
      _ ≤ |max 0 value - max 0 place| := by
        simpa using abs_min_sub_min_le_max (max 0 value) room (max 0 place) room
      _ ≤ |value - place| := by simpa using abs_max_sub_max_le_max 0 value 0 place
  exact ⟨hstride _ _ _ h.left (by linarith [h.right]), hstride _ _ _ h.top (by linarith [h.bottom])⟩

namespace Player

theorem clampLeft_position (player : Player ℚ) :
    player.clampLeft.position = ⟨max 0 player.position.x, player.position.y⟩ := by
  unfold clampLeft
  split_ifs with h
  · rw [max_eq_left (le_of_lt h)]
    rfl
  · rw [max_eq_right (le_of_not_gt h)]

theorem clampUp_position (player : Player ℚ) :
    player.clampUp.position = ⟨player.position.x, max 0 player.position.y⟩ := by
  unfold clampUp
  split_ifs with h
  · rw [max_eq_left (le_of_lt h)]
    rfl
  · rw [max_eq_right (le_of_not_gt h)]

variable {platform : Platform ℚ} {size : Vector2 ℚ}

theorem clampBottom_position (hsize : platform.ShipSize size) (windowSize : Vector2 Nat)
    (player : Player ℚ) :
    (player.clampBottom platform windowSize).position =
      ⟨player.position.x, min player.position.y (windowSize.y - size.y)⟩ := by
  unfold clampBottom
  simp only [getPlayerBounds, hsize player.position, FloatRect.ofSize, Int.cast_natCast]
  split_ifs with h
  · rw [min_eq_right (by linarith)]
    rfl
  · rw [min_eq_left (by linarith)]

theorem clampRight_position (hsize : platform.ShipSize size) (windowSize : Vector2 Nat)
    (player : Player ℚ) :
    (player.clampRight platform windowSize).position =
      ⟨min player.position.x (windowSize.x - size.x), player.position.y⟩ := by
  unfold clampRight
  simp only [getPlayerBounds, hsize player.position, FloatRect.ofSize, Int.cast_natCast]
  split_ifs with h
  · rw [min_eq_right (by linarith)]
    rfl
  · rw [min_eq_left (by linarith)]

-- The four wall tests together take the ship to the nearest position inside.
theorem confine_position (hsize : platform.ShipSize size) (windowSize : Vector2 Nat)
    (player : Player ℚ) :
    (player.confine platform windowSize).position = nearest size windowSize player.position := by
  unfold confine
  rw [clampRight_position hsize, clampBottom_position hsize, clampUp_position, clampLeft_position]
  rfl

end Player

namespace Player

variable {α : Type} [Coord α]

-- A wall test sets the spawn position to the new position, or changes neither.
def Anchored (before after : Player α) : Prop :=
  after.spawnPosition = after.position ∨
    (after.spawnPosition = before.spawnPosition ∧ after.position = before.position)

omit [Coord α] in
theorem Anchored.trans {first second third : Player α} (h : Anchored first second)
    (h' : Anchored second third) : Anchored first third := by
  rcases h' with h' | ⟨hs, hp⟩
  · exact .inl h'
  · rcases h with h | ⟨hs', hp'⟩
    · exact .inl (hs.trans (h.trans hp.symm))
    · exact .inr ⟨hs.trans hs', hp.trans hp'⟩

theorem clampLeft_anchored (player : Player α) : Anchored player player.clampLeft := by
  unfold clampLeft
  split_ifs
  · exact .inl rfl
  · exact .inr ⟨rfl, rfl⟩

theorem clampUp_anchored (player : Player α) : Anchored player player.clampUp := by
  unfold clampUp
  split_ifs
  · exact .inl rfl
  · exact .inr ⟨rfl, rfl⟩

theorem clampBottom_anchored (platform : Platform α) (windowSize : Vector2 Nat) (player : Player α) :
    Anchored player (player.clampBottom platform windowSize) := by
  unfold clampBottom
  dsimp only
  split_ifs
  · exact .inl rfl
  · exact .inr ⟨rfl, rfl⟩

theorem clampRight_anchored (platform : Platform α) (windowSize : Vector2 Nat) (player : Player α) :
    Anchored player (player.clampRight platform windowSize) := by
  unfold clampRight
  dsimp only
  split_ifs
  · exact .inl rfl
  · exact .inr ⟨rfl, rfl⟩

theorem confine_anchored (platform : Platform α) (windowSize : Vector2 Nat) (player : Player α) :
    Anchored player (player.confine platform windowSize) :=
  (((clampLeft_anchored _).trans (clampUp_anchored _)).trans
    (clampBottom_anchored platform windowSize _)).trans (clampRight_anchored platform windowSize _)

omit [Coord α] in
theorem Anchored.settled {before after : Player α} (h : Anchored before after)
    (hbefore : before.spawnPosition = before.position) : after.spawnPosition = after.position := by
  rcases h with h | ⟨hs, hp⟩
  · exact h
  · rw [hs, hp, hbefore]

omit [Coord α] in
@[simp] theorem coolDown_position (player : Player α) : player.coolDown.position = player.position := by
  unfold coolDown
  split_ifs <;> rfl

omit [Coord α] in
@[simp] theorem coolDown_spawnPosition (player : Player α) :
    player.coolDown.spawnPosition = player.spawnPosition := by
  unfold coolDown
  split_ifs <;> rfl

@[simp] theorem shoot_spawnPosition (platform : Platform α) (player : Player α) :
    (player.shoot platform).spawnPosition = player.spawnPosition := by
  unfold shoot
  split_ifs <;> rfl

@[simp] theorem steer_spawnPosition (controls : Controls) (player : Player α) :
    (player.steer controls).spawnPosition = player.spawnPosition :=
  steer_keeps spawnPosition (fun _ _ _ => rfl) controls player

@[simp] theorem updateMovement_spawnPosition (platform : Platform α) (controls : Controls)
    (player : Player α) :
    (player.updateMovement platform controls).spawnPosition = player.spawnPosition := by
  unfold updateMovement
  split_ifs <;> simp

-- An update leaves the spawn position or makes it the position it ends in.
theorem update_spawnPosition (platform : Platform α) (controls : Controls) (windowSize : Vector2 Nat)
    (player : Player α) :
    (player.update platform controls windowSize).spawnPosition = player.spawnPosition ∨
    (player.update platform controls windowSize).spawnPosition =
      (player.update platform controls windowSize).position := by
  rcases confine_anchored platform windowSize
      (player.updateMovement platform controls).updatePhysics with h | ⟨h, _⟩
  · right
    simp only [update, updateBullets, coolDown_spawnPosition, coolDown_position]
    exact h
  · left
    simp only [update, updateBullets, coolDown_spawnPosition]
    exact h.trans (updateMovement_spawnPosition platform controls player)

-- The wall tests stop the ship or leave its velocity.
theorem confine_velocity (platform : Platform ℚ) (windowSize : Vector2 Nat) (player : Player ℚ) :
    ((player.confine platform windowSize).velocity.x = 0 ∨
      (player.confine platform windowSize).velocity.x = player.velocity.x) ∧
    ((player.confine platform windowSize).velocity.y = 0 ∨
      (player.confine platform windowSize).velocity.y = player.velocity.y) := by
  unfold confine clampLeft clampUp clampBottom clampRight
  dsimp only
  split_ifs <;> simp [setPosition, stopX, stopY]

theorem update_position {platform : Platform ℚ} {size : Vector2 ℚ} (hsize : platform.ShipSize size)
    (controls : Controls) (windowSize : Vector2 Nat) (player : Player ℚ) :
    (player.update platform controls windowSize).position =
      nearest size windowSize (player.updateMovement platform controls).updatePhysics.position := by
  simp only [update, updateBullets, coolDown_position]
  exact confine_position hsize windowSize _

variable {platform : Platform ℚ} {size : Vector2 ℚ}

end Player

end SpaceInvaders

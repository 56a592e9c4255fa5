import SpaceInvaders.Main.Lemmas
import SpaceInvaders.Entity.Player.Confine
import SpaceInvaders.GameProcessing.Collisions.Lemmas

namespace SpaceInvaders

open Transition Collisions

-- A check takes the ship to its spawn position or leaves it, and keeps the spawn position.
theorem checkCollisions_position {α : Type} (platform : Platform α) (game : Collisions α) :
    (checkCollisions platform game).player.spawnPosition = game.player.spawnPosition ∧
    ((checkCollisions platform game).player.position = game.player.position ∨
      (checkCollisions platform game).player.position = game.player.spawnPosition) := by
  rcases checkCollisions_cases platform game with ⟨_, _, _, hcheck⟩ |
    ⟨_, _, _, _, _, _, _, _, hcheck⟩ | ⟨_, _, _, hcheck⟩ | ⟨_, _, _, hcheck⟩ |
    ⟨_, _, _, hcheck⟩ <;> rw [hcheck]
  · exact ⟨rfl, .inl rfl⟩
  · by_cases hlives : 0 < game.player.lives
    · simp [struck, Player.die, hlives, Player.setPosition]
    · simp [struck, Player.die, hlives]
  · exact ⟨rfl, .inl rfl⟩
  · exact ⟨rfl, .inl rfl⟩
  · exact ⟨rfl, .inl rfl⟩

@[simp] theorem detectHandMovement_spawnPosition {α : Type} [Coord α] (platform : Platform α)
    (handTracker : HandTracker α) (hand : Nat → List (Vector2 α)) (player : Player α) :
    (detectHandMovement platform handTracker hand player).spawnPosition = player.spawnPosition := by
  unfold detectHandMovement
  dsimp only
  split_ifs
  · rw [Player.shoot_spawnPosition]
    rfl
  · rfl

-- The ship and the point that a death takes it to are both in the window. The
-- wall tests may pass through points outside, but never leave one stored.
structure ShipInside (size : Vector2 ℚ) (windowSize : Vector2 Nat) (game : Collisions ℚ) : Prop where
  position : Inside size windowSize game.player.position
  spawnPosition : Inside size windowSize game.player.spawnPosition

variable {platform : Platform ℚ} {size : Vector2 ℚ} {windowSize : Vector2 Nat}

theorem advance_inside (hsize : platform.ShipSize size) (hx : size.x ≤ windowSize.x)
    (hy : size.y ≤ windowSize.y) (handTracker : HandTracker ℚ) (input : FrameInput ℚ)
    (hwindow : input.windowSize = windowSize) (game entering : Collisions ℚ)
    (hspawn : Inside size windowSize game.player.spawnPosition)
    (h : advance platform handTracker input game = some entering) :
    ShipInside size windowSize entering := by
  obtain ⟨cluster, _, rfl⟩ := advance_eq_some platform handTracker input game entering h
  have hposition : Inside size windowSize (playerPass platform handTracker input game.player).position := by
    rw [playerPass, Player.update_position hsize, hwindow]
    exact inside_nearest size windowSize _ hx hy
  refine ⟨hposition, ?_⟩
  rcases Player.update_spawnPosition platform input.controls input.windowSize
      (detectHandMovement platform handTracker input.hand game.player) with hs | hs
  · simp only [playerPass, hs, detectHandMovement_spawnPosition]
    exact hspawn
  · simp only [playerPass] at hposition ⊢
    rw [hs]
    exact hposition

theorem checkCollisions_inside (entering : Collisions ℚ)
    (hentering : ShipInside size windowSize entering) :
    ShipInside size windowSize (checkCollisions platform entering) := by
  obtain ⟨hspawn, hposition⟩ := checkCollisions_position platform entering
  refine ⟨?_, hspawn ▸ hentering.spawnPosition⟩
  rcases hposition with hp | hp <;> rw [hp]
  · exact hentering.position
  · exact hentering.spawnPosition

theorem frame_inside (hsize : platform.ShipSize size) (hx : size.x ≤ windowSize.x)
    (hy : size.y ≤ windowSize.y) (handTracker : HandTracker ℚ) (input : FrameInput ℚ)
    (hwindow : input.windowSize = windowSize) (game next : Collisions ℚ)
    (hinside : ShipInside size windowSize game)
    (h : frame platform handTracker input game = some next) : ShipInside size windowSize next := by
  obtain ⟨entering, ha, rfl⟩ := frame_eq_some platform handTracker input game next h
  exact checkCollisions_inside entering
    (advance_inside hsize hx hy handTracker input hwindow game entering hinside.spawnPosition ha)

theorem center_inside (hx : 2 * size.x ≤ windowSize.x) (hy : 2 * size.y ≤ windowSize.y) :
    Inside size windowSize ⟨windowSize.x / 2, windowSize.y / 2⟩ where
  left := by positivity
  right := by
    dsimp only
    linarith
  top := by positivity
  bottom := by
    dsimp only
    linarith

theorem run_inside (hsize : platform.ShipSize size) (hx : 2 * size.x ≤ windowSize.x)
    (hy : 2 * size.y ≤ windowSize.y) (handTracker : HandTracker ℚ) (inputs : List (FrameInput ℚ))
    (hwindow : ∀ input ∈ inputs, input.windowSize = windowSize) (first game : Collisions ℚ)
    (hfirst : ShipInside size windowSize first)
    (hrun : run (frame platform handTracker) first inputs = some game) :
    ShipInside size windowSize game := by
  have hw : (0 : ℚ) ≤ windowSize.x := Nat.cast_nonneg _
  have hh : (0 : ℚ) ≤ windowSize.y := Nat.cast_nonneg _
  apply run_invariant (ShipInside size windowSize) inputs first game ?_ hfirst hrun
  intro before input after hvisit hinv
  exact frame_inside hsize (by linarith) (by linarith) handTracker input
    (hwindow input hvisit.mem) before after hinv hvisit.step_eq

-- From the middle of the window the ship is inside at the end of every pass,
-- whatever the rest of the game is.
theorem ship_inside (hsize : platform.ShipSize size) (hx : 2 * size.x ≤ windowSize.x)
    (hy : 2 * size.y ≤ windowSize.y) (handTracker : HandTracker ℚ) (windowPosition : Vector2 Int)
    (state : State) (first game : Collisions ℚ)
    (hfirst : first.player = (Player.new platform windowPosition state).setPosition
      ((windowSize.x : ℚ) / 2) ((windowSize.y : ℚ) / 2))
    (inputs : List (FrameInput ℚ)) (hwindow : ∀ input ∈ inputs, input.windowSize = windowSize)
    (hrun : run (frame platform handTracker) first inputs = some game) :
    Inside size windowSize game.player.position := by
  have hcenter : Inside size windowSize _ := center_inside hx hy
  have hinside : ShipInside size windowSize first := by
    constructor <;> rw [hfirst] <;> exact hcenter
  exact (run_inside hsize hx hy handTracker inputs hwindow first game hinside hrun).position

theorem start_player (platform : Platform ℚ) (windowPosition : Vector2 Int)
    (windowSize : Vector2 Nat) (state : State) :
    (start platform windowPosition windowSize state).player =
      (Player.new platform windowPosition state).setPosition
        ((windowSize.x : ℚ) / 2) ((windowSize.y : ℚ) / 2) := by
  simp [start, Collisions.new]

theorem ship_inside_arcade :
    ∃ game, run (frame arcade arcadeTracker) arcadeStart (List.replicate 3 (openHand 0)) = some game ∧
      Inside ⟨100, 100⟩ ⟨1920, 1080⟩ game.player.position := by
  have hsize : arcade.ShipSize ⟨100, 100⟩ := fun _ => rfl
  have hsome : (run (frame arcade arcadeTracker) arcadeStart
      (List.replicate 3 (openHand 0))).isSome = true := by
    decide +kernel
  obtain ⟨game, hrun⟩ := Option.isSome_iff_exists.mp hsome
  refine ⟨game, hrun, ship_inside hsize
    (by norm_num) (by norm_num) arcadeTracker ⟨0, 0⟩ .alive arcadeStart game
    (start_player arcade ⟨0, 0⟩ ⟨1920, 1080⟩ .alive) _ ?_ hrun⟩
  intro input hi
  rw [List.eq_of_mem_replicate hi]
  rfl

end SpaceInvaders

import SpaceInvaders.Main
import SpaceInvaders.Library.Run
import SpaceInvaders.Entity.Player.Lemmas
import SpaceInvaders.Entity.MonsterCluster.Lemmas

namespace SpaceInvaders

open Transition

variable {α : Type} [Coord α]

-- The bullets that the player's part of a pass appends: for the fist, then for Space.
def newBullets (platform : Platform α) (handTracker : HandTracker α) (input : FrameInput α)
    (player : Player α) : List (Bullet α) :=
  (if HandTracker.isFistClosed platform fun read => input.hand (read + 1) then
    (player.setDestination (handTracker.convert (HandTracker.getWrist (input.hand 0)))).shot platform
  else []) ++
  (detectHandMovement platform handTracker input.hand player).spaceShot platform input.controls

theorem detectHandMovement_withRest (platform : Platform α) (handTracker : HandTracker α)
    (hand : Nat → List (Vector2 α)) (bulletVec : List (Bullet α)) (lives : Int) (state : State)
    (player : Player α) :
    detectHandMovement platform handTracker hand (player.withRest bulletVec lives state) =
      (detectHandMovement platform handTracker hand player).withRest
        (bulletVec ++ if HandTracker.isFistClosed platform fun read => hand (read + 1) then
          (player.setDestination (handTracker.convert (HandTracker.getWrist (hand 0)))).shot platform
        else []) lives state := by
  unfold detectHandMovement
  dsimp only
  split_ifs
  · exact Player.shoot_withRest bulletVec lives state platform
      (player.setDestination (handTracker.convert (HandTracker.getWrist (hand 0))))
  · rw [List.append_nil]
    rfl

-- The ship moves without looking at the bullets, the lives and the state.
theorem playerPass_withRest (platform : Platform α) (handTracker : HandTracker α)
    (input : FrameInput α) (bulletVec : List (Bullet α)) (lives : Int) (state : State)
    (player : Player α) :
    playerPass platform handTracker input (player.withRest bulletVec lives state) =
      (playerPass platform handTracker input player).withRest
        ((bulletVec ++ newBullets platform handTracker input player).map Bullet.updateBullet)
        lives state := by
  simp only [playerPass, detectHandMovement_withRest, Player.update_withRest, newBullets,
    List.append_assoc]

theorem playerPass_eq (platform : Platform α) (handTracker : HandTracker α)
    (input : FrameInput α) (player : Player α) :
    playerPass platform handTracker input player =
      (playerPass platform handTracker input player).withRest
        ((player.bulletVec ++ newBullets platform handTracker input player).map Bullet.updateBullet)
        player.lives player.state := by
  have h := playerPass_withRest platform handTracker input player.bulletVec player.lives player.state player
  rwa [Player.withRest_self] at h

theorem playerPass_bulletVec (platform : Platform α) (handTracker : HandTracker α)
    (input : FrameInput α) (player : Player α) :
    (playerPass platform handTracker input player).bulletVec =
      (player.bulletVec ++ newBullets platform handTracker input player).map Bullet.updateBullet := by
  rw [playerPass_eq]
  rfl

@[simp] theorem playerPass_lives (platform : Platform α) (handTracker : HandTracker α)
    (input : FrameInput α) (player : Player α) :
    (playerPass platform handTracker input player).lives = player.lives := by
  rw [playerPass_eq]
  rfl

@[simp] theorem playerPass_state (platform : Platform α) (handTracker : HandTracker α)
    (input : FrameInput α) (player : Player α) :
    (playerPass platform handTracker input player).state = player.state := by
  rw [playerPass_eq]
  rfl

theorem playerPass_withBullets (platform : Platform α) (handTracker : HandTracker α)
    (input : FrameInput α) (bulletVec : List (Bullet α)) (player : Player α) :
    playerPass platform handTracker input { player with bulletVec := bulletVec } =
      { playerPass platform handTracker input player with
        bulletVec := (bulletVec ++ newBullets platform handTracker input player).map
          Bullet.updateBullet } := by
  have h := playerPass_withRest platform handTracker input bulletVec player.lives player.state player
  rw [← playerPass_lives platform handTracker input player,
    ← playerPass_state platform handTracker input player] at h
  refine Eq.trans ?_ h
  rw [playerPass_lives, playerPass_state]
  rfl

theorem playerPass_withState (platform : Platform α) (handTracker : HandTracker α)
    (input : FrameInput α) (state : State) (player : Player α) :
    playerPass platform handTracker input { player with state := state } =
      { playerPass platform handTracker input player with state := state } := by
  have h := playerPass_withRest platform handTracker input player.bulletVec player.lives state player
  rw [← playerPass_bulletVec, ← playerPass_lives platform handTracker input player] at h
  refine Eq.trans ?_ h
  rw [playerPass_lives]
  rfl

theorem mem_newBullets (platform : Platform α) (handTracker : HandTracker α) (input : FrameInput α)
    (player : Player α) (bullet : Bullet α)
    (h : bullet ∈ newBullets platform handTracker input player) : ∃ x y, bullet = Bullet.new x y 5 := by
  rcases List.mem_append.mp h with h | h
  · split_ifs at h
    · exact Player.mem_shot platform _ bullet h
    · simp at h
  · exact Player.mem_spaceShot platform input.controls _ bullet h

theorem frame_eq_some (platform : Platform α) (handTracker : HandTracker α) (input : FrameInput α)
    (game next : Collisions α) (h : frame platform handTracker input game = some next) :
    ∃ entering, advance platform handTracker input game = some entering ∧
      next = Collisions.checkCollisions platform entering := by
  obtain ⟨entering, ha, rfl⟩ := Option.map_eq_some_iff.mp h
  exact ⟨entering, ha, rfl⟩

theorem advance_eq_some (platform : Platform α) (handTracker : HandTracker α) (input : FrameInput α)
    (game entering : Collisions α) (h : advance platform handTracker input game = some entering) :
    ∃ cluster, clusterPass platform input game.monsterCluster = some cluster ∧
      entering = { game with
        player := playerPass platform handTracker input game.player
        monsterCluster := cluster } := by
  obtain ⟨cluster, hc, rfl⟩ := Option.map_eq_some_iff.mp h
  exact ⟨cluster, hc, rfl⟩

theorem advance_lives (platform : Platform α) (handTracker : HandTracker α)
    (input : FrameInput α) (game entering : Collisions α)
    (h : advance platform handTracker input game = some entering) :
    entering.player.lives = game.player.lives := by
  obtain ⟨cluster, _, rfl⟩ := advance_eq_some platform handTracker input game entering h
  exact playerPass_lives platform handTracker input game.player

-- The games that the passes of a run hand to checkCollisions.
def Enters (platform : Platform α) (handTracker : HandTracker α) (first : Collisions α)
    (inputs : List (FrameInput α)) (entering : Collisions α) : Prop :=
  ∃ game input next, Visits (frame platform handTracker) first inputs game input next ∧
    advance platform handTracker input game = some entering

theorem enters_cons (platform : Platform α) (handTracker : HandTracker α)
    (first next entering : Collisions α) (input : FrameInput α) (rest : List (FrameInput α))
    (ha : advance platform handTracker input first = some entering)
    (hnext : frame platform handTracker input first = some next) (other : Collisions α) :
    Enters platform handTracker first (input :: rest) other ↔
      other = entering ∨ Enters platform handTracker next rest other := by
  constructor
  · rintro ⟨game, input', after, ⟨done, tail, hinputs, hrun, hstep⟩, hother⟩
    cases done with
    | nil =>
        obtain ⟨rfl, rfl⟩ := List.cons.inj hinputs
        obtain rfl := Option.some.inj hrun
        rw [ha] at hother
        exact .inl (Option.some.inj hother).symm
    | cons head done =>
        obtain ⟨rfl, rfl⟩ := List.cons.inj hinputs
        rw [run_cons, hnext] at hrun
        exact .inr ⟨game, input', after, ⟨done, tail, rfl, hrun, hstep⟩, hother⟩
  · rintro (rfl | ⟨game, input', after, hvisit, hother⟩)
    · exact ⟨first, input, next, visits_head first next input rest hnext, ha⟩
    · exact ⟨game, input', after, hvisit.tail hnext, hother⟩

theorem not_enters_of_fault (platform : Platform α) (handTracker : HandTracker α)
    (first entering : Collisions α) (input : FrameInput α) (rest : List (FrameInput α))
    (hfault : frame platform handTracker input first = none) :
    ¬Enters platform handTracker first (input :: rest) entering := by
  rintro ⟨game, input', after, ⟨done, tail, hinputs, hrun, hstep⟩, _⟩
  cases done with
  | nil =>
      obtain ⟨rfl, rfl⟩ := List.cons.inj hinputs
      obtain rfl := Option.some.inj hrun
      rw [hfault] at hstep
      cases hstep
  | cons head done =>
      obtain ⟨rfl, rfl⟩ := List.cons.inj hinputs
      rw [run_cons, hfault] at hrun
      cases hrun

end SpaceInvaders

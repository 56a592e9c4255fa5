import SpaceInvaders.GameProcessing.Collisions
import SpaceInvaders.HandTracking.HandTracker

namespace SpaceInvaders

variable {α : Type} [Coord α]

-- What one pass of the main loop takes from outside. `hand read` is the list of
-- landmarks that is current at the locked read number `read` of the pass.
structure FrameInput (α : Type) where
  hand : Nat → List (Vector2 α)
  controls : Controls
  windowSize : Vector2 Nat
  elapsed : α
  random : Nat

def SPRITE_SPEED : Int := 400

def detectHandMovement (platform : Platform α) (handTracker : HandTracker α)
    (hand : Nat → List (Vector2 α)) (player : Player α) : Player α :=
  let wrist := HandTracker.getWrist (hand 0)
  let player := player.setDestination (handTracker.convert wrist)
  if HandTracker.isFistClosed platform fun read => hand (read + 1) then
    player.shoot platform
  else
    player

-- The player's part of a pass of the loop.
def playerPass (platform : Platform α) (handTracker : HandTracker α) (input : FrameInput α)
    (player : Player α) : Player α :=
  (detectHandMovement platform handTracker input.hand player).update platform input.controls
    input.windowSize

-- The cluster's part of a pass of the loop.
def clusterPass (platform : Platform α) (input : FrameInput α) (cluster : MonsterCluster α) :
    Option (MonsterCluster α) :=
  cluster.move platform (((SPRITE_SPEED / 3 : Int) : α) * input.elapsed) input.windowSize.x
    input.random

-- The game as the pass hands it to checkCollisions.
def advance (platform : Platform α) (handTracker : HandTracker α) (input : FrameInput α)
    (game : Collisions α) : Option (Collisions α) :=
  (clusterPass platform input game.monsterCluster).map fun monsterCluster =>
    { game with
      player := playerPass platform handTracker input game.player
      monsterCluster := monsterCluster }

def frame (platform : Platform α) (handTracker : HandTracker α) (input : FrameInput α)
    (game : Collisions α) : Option (Collisions α) :=
  (advance platform handTracker input game).map (Collisions.checkCollisions platform)

-- The game that main sets up, with the member state of the player left open.
def start (platform : Platform α) (windowPosition : Vector2 Int) (windowSize : Vector2 Nat)
    (state : State) : Collisions α :=
  let width : α := ((windowSize.x : Int) : α)
  let height : α := ((windowSize.y : Int) : α)
  let player := (Player.new platform windowPosition state).setPosition
    (width / ((2 : Int) : α)) (height / ((2 : Int) : α))
  let cluster := MonsterCluster.new platform
  let cluster := cluster.addRow platform 15
  let cluster := cluster.addRow platform 15
  let cluster := cluster.addRow platform 15
  let cluster := cluster.setPosition platform (width / ((2 : Int) : α)) (height / ((10 : Int) : α))
  Collisions.new player cluster Score.new

-- A 1920 by 1080 window over a 640 by 480 camera.
def arcadeTracker : HandTracker ℚ := HandTracker.new ⟨1920, 1080⟩ ⟨640, 480⟩

def arcadeStart : Collisions ℚ := start arcade ⟨0, 0⟩ ⟨1920, 1080⟩ .alive

-- No hand and no key for a pass of 1/64 s.
def waiting (random : Nat) : FrameInput ℚ :=
  { hand := fun _ => [], controls := .none, windowSize := ⟨1920, 1080⟩, elapsed := 1 / 64, random := random }

-- An open hand at the pixel (320, 350), for which the ship steers to (960, 787).
def openHand (random : Nat) : FrameInput ℚ :=
  { waiting random with hand := fun _ => (List.replicate 21 ⟨320, 350⟩).set 8 ⟨320, 351⟩ }

end SpaceInvaders

import SpaceInvaders.Entity.Bullet

namespace SpaceInvaders

-- The keys and the left mouse button as one update sees them.
structure Controls where
  mouse : Option (Vector2 Int)
  keyW : Bool
  keyS : Bool
  keyA : Bool
  keyD : Bool
  keySpace : Bool
  deriving DecidableEq, Repr

def Controls.none : Controls := ⟨Option.none, false, false, false, false, false⟩

-- The ship's sprite is kept as its position.
structure Player (α : Type) where
  isFiring : Bool
  cooldown : Int
  velocity : Vector2 α
  lives : Int
  state : State
  offset : Vector2 Int
  destination : Vector2 Int
  spawnPosition : Vector2 α
  position : Vector2 α
  bulletVec : List (Bullet α)
  deriving DecidableEq, Repr

namespace Player

variable {α : Type} [Coord α]

def maxVelocity : α := ((10 : Int) : α)

def minVelocity : α := ((1 : Int) : α)

def acceleration : α := ((3 : Int) : α)

def slow : α := ((19 : Int) : α) / ((20 : Int) : α)

-- The constructor does not assign the member state.
def new (platform : Platform α) (windowPosition : Vector2 Int) (state : State) : Player α :=
  let bounds := platform.shipBounds ⟨0, 0⟩
  { isFiring := false
    cooldown := 0
    velocity := ⟨0, 0⟩
    lives := 3
    state := state
    offset := ⟨Coord.trunc ((windowPosition.x : α) + bounds.width / ((2 : Int) : α)),
      Coord.trunc (((windowPosition.y + 40 : Int) : α) + bounds.height / ((2 : Int) : α))⟩
    destination := ⟨-1, -1⟩
    spawnPosition := ⟨0, 0⟩
    position := ⟨0, 0⟩
    bulletVec := [] }

def getPlayerBounds (platform : Platform α) (player : Player α) : FloatRect α :=
  platform.shipBounds player.position

def setPosition (x y : α) (player : Player α) : Player α :=
  { player with spawnPosition := ⟨x, y⟩, position := ⟨x, y⟩ }

def shoot (platform : Platform α) (player : Player α) : Player α :=
  if player.isFiring then
    player
  else
    let bullet := Bullet.new
      (player.position.x + (player.getPlayerBounds platform).width / ((2 : Int) : α))
      player.position.y 5
    { player with isFiring := true, bulletVec := player.bulletVec ++ [bullet] }

-- The velocity limit that both overloads of move apply to each component.
def limit (velocity : α) : α :=
  if maxVelocity < stdAbs velocity then
    if velocity < 0 then maxVelocity * -((1 : Int) : α) else maxVelocity
  else
    velocity

-- move(float, float)
def moveKey (dirX dirY : α) (player : Player α) : Player α :=
  { player with
    velocity := ⟨limit (player.velocity.x + dirX * acceleration),
      limit (player.velocity.y + dirY * acceleration)⟩ }

-- One component of move(): no velocity within MOVEMENT_MARGIN of the destination.
def approach (velocity : α) (dir : Int) : α :=
  if dir < 10 ∧ dir > -10 then 0 else limit (velocity + (dir : α) * acceleration)

-- move()
def move (player : Player α) : Player α :=
  let dirX := Coord.trunc ((player.destination.x : α) - player.position.x)
  let dirY := Coord.trunc ((player.destination.y : α) - player.position.y)
  { player with velocity := ⟨approach player.velocity.x dirX, approach player.velocity.y dirY⟩ }

-- A pressed movement key drops the destination.
def pressKey (pressed : Bool) (dirX dirY : α) (player : Player α) : Player α :=
  if pressed then
    ({ player with destination := ⟨-1, player.destination.y⟩ } : Player α).moveKey dirX dirY
  else
    player

def pressMouse (mouse : Option (Vector2 Int)) (player : Player α) : Player α :=
  match mouse with
  | some pointer =>
      { player with destination := ⟨pointer.x - player.offset.x, pointer.y - player.offset.y⟩ }
  | none => player

-- The mouse, the movement keys and the destination: updateMovement up to the Space key.
def steer (controls : Controls) (player : Player α) : Player α :=
  let vertical : α := ((2 : Int) : α) / ((5 : Int) : α)
  let horizontal : α := ((1 : Int) : α)
  let player := player.pressMouse controls.mouse
  let player := player.pressKey controls.keyW 0 (-vertical)
  let player := player.pressKey controls.keyS 0 vertical
  let player := player.pressKey controls.keyA (-horizontal) 0
  let player := player.pressKey controls.keyD horizontal 0
  if player.destination.x ≠ -1 then player.move else player

def updateMovement (platform : Platform α) (controls : Controls) (player : Player α) : Player α :=
  if controls.keySpace then (player.steer controls).shoot platform else player.steer controls

-- One component of the damping and of the cut-off in updatePhysics.
def damp (velocity : α) : α :=
  if stdAbs (velocity * slow) < minVelocity then 0 else velocity * slow

def updatePhysics (player : Player α) : Player α :=
  let velocity : Vector2 α := ⟨damp player.velocity.x, damp player.velocity.y⟩
  { player with
    velocity := velocity
    position := ⟨player.position.x + velocity.x, player.position.y + velocity.y⟩ }

def updateBullets (player : Player α) : Player α :=
  { player with bulletVec := player.bulletVec.map Bullet.updateBullet }

def stopX (player : Player α) : Player α :=
  { player with velocity := ⟨0, player.velocity.y⟩ }

def stopY (player : Player α) : Player α :=
  { player with velocity := ⟨player.velocity.x, 0⟩ }

def clampLeft (player : Player α) : Player α :=
  if player.position.x < 0 then player.stopX.setPosition 0 player.position.y else player

def clampUp (player : Player α) : Player α :=
  if player.position.y < 0 then player.stopY.setPosition player.position.x 0 else player

def clampBottom (platform : Platform α) (windowSize : Vector2 Nat) (player : Player α) : Player α :=
  let bounds := player.getPlayerBounds platform
  if ((windowSize.y : Int) : α) < bounds.top + bounds.height then
    player.stopY.setPosition bounds.left (((windowSize.y : Int) : α) - bounds.height)
  else
    player

def clampRight (platform : Platform α) (windowSize : Vector2 Nat) (player : Player α) : Player α :=
  let bounds := player.getPlayerBounds platform
  if ((windowSize.x : Int) : α) < bounds.left + bounds.width then
    player.stopX.setPosition (((windowSize.x : Int) : α) - bounds.width) bounds.top
  else
    player

-- The four wall tests of update, each on the position the one before left.
def confine (platform : Platform α) (windowSize : Vector2 Nat) (player : Player α) : Player α :=
  ((player.clampLeft.clampUp).clampBottom platform windowSize).clampRight platform windowSize

def coolDown (player : Player α) : Player α :=
  if player.cooldown < 10 ∧ player.isFiring = true then
    { player with cooldown := player.cooldown + 1 }
  else if player.cooldown = 10 then
    { player with isFiring := false, cooldown := 0 }
  else
    player

def update (platform : Platform α) (controls : Controls) (windowSize : Vector2 Nat)
    (player : Player α) : Player α :=
  let player := player.updateMovement platform controls
  let player := player.updatePhysics
  let player := player.confine platform windowSize
  let player := player.coolDown
  player.updateBullets

def setDestination (destination : Vector2 α) (player : Player α) : Player α :=
  { player with destination := ⟨Coord.trunc destination.x, Coord.trunc destination.y⟩ }

def die (player : Player α) : Player α :=
  if 0 < player.lives then
    { player.setPosition player.spawnPosition.x player.spawnPosition.y with
      lives := player.lives - 1
      state := .destroyed }
  else
    player

end Player

end SpaceInvaders

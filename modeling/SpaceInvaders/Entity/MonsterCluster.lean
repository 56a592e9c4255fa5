import SpaceInvaders.Library.Erase
import SpaceInvaders.Entity.Monster

namespace SpaceInvaders

inductive Direction where
  | left
  | right
  | down
  deriving DecidableEq, Repr

structure MonsterCluster (α : Type) where
  gap : Vector2 α
  rows : List (List (Monster α))
  position : Vector2 α
  leftEdge : α
  rightEdge : α
  nextDir : Direction
  destroyedCount : Int
  totalCount : Int
  cooldown : Int
  bulletVec : List (Bullet α)
  deriving DecidableEq, Repr

namespace MonsterCluster

variable {α : Type} [Coord α]

def new (platform : Platform α) : MonsterCluster α :=
  { gap := ⟨(Monster.new platform).getWidth, (Monster.new platform).getHeight⟩
    rows := []
    position := ⟨0, 0⟩
    leftEdge := 0
    rightEdge := 0
    nextDir := .right
    destroyedCount := 0
    totalCount := 0
    cooldown := 0
    bulletVec := [] }

def rowLength (platform : Platform α) (gap : Vector2 α) (currentRowSize : Nat) : α :=
  ((currentRowSize : Int) : α) * (Monster.new platform).getWidth +
    gap.x * (((currentRowSize : Int) - 1 : Int) : α)

-- The edges after the rows: those of the first row of the greatest length.
def edges (platform : Platform α) (gap : Vector2 α) (xPos : α) :
    Nat → α × α → List (List (Monster α)) → α × α
  | _, found, [] => found
  | longestRowLength, found, row :: rest =>
      if longestRowLength < row.length then
        let length := rowLength platform gap row.length
        edges platform gap xPos row.length
          (xPos - length / ((2 : Int) : α), xPos + length / ((2 : Int) : α)) rest
      else
        edges platform gap xPos longestRowLength found rest

def placeRow (platform : Platform α) (gap : Vector2 α) (xPos yPos : α) (rowIndex : Nat)
    (row : List (Monster α)) : List (Monster α) :=
  row.mapIdx fun monsterIndex monster =>
    monster.setPosition
      (xPos + (monster.getWidth + gap.x) * ((monsterIndex : Int) : α) -
        rowLength platform gap row.length / ((2 : Int) : α))
      (yPos + (monster.getHeight + gap.y) * ((rowIndex : Int) : α))

-- The loop of the source fixes the edges and places the monsters in one pass.
def setPosition (platform : Platform α) (xPos yPos : α) (cluster : MonsterCluster α) :
    MonsterCluster α :=
  let found := edges platform cluster.gap xPos 0 (cluster.leftEdge, cluster.rightEdge) cluster.rows
  { cluster with
    position := ⟨xPos, yPos⟩
    leftEdge := found.1
    rightEdge := found.2
    rows := cluster.rows.mapIdx (placeRow platform cluster.gap xPos yPos) }

-- A count below one adds an empty row.
def addRow (platform : Platform α) (numberOfMonsters : Int) (cluster : MonsterCluster α) :
    MonsterCluster α :=
  let row := List.replicate numberOfMonsters.toNat (Monster.new platform)
  setPosition platform cluster.position.x cluster.position.y
    { cluster with
      totalCount := cluster.totalCount + numberOfMonsters.toNat
      rows := cluster.rows ++ [row] }

-- Indices that are not valid are undefined behaviour. `monstersRow` is a copy, so
-- that what is left of it is only asked whether it is empty.
def removeMonster (row col : Nat) (cluster : MonsterCluster α) : Option (MonsterCluster α) :=
  match cluster.rows[row]? with
  | none => none
  | some monstersRow =>
      if col < monstersRow.length then
        if (Erase.erase Monster.assign col monstersRow).length = 0 then
          some { cluster with rows := Erase.erase (fun _ next => next) row cluster.rows }
        else
          some cluster
      else
        none

-- The downward search of shoot: `index` rows are still to be looked at.
def shooter (rows : List (List (Monster α))) (randomPosition : Nat) : Nat → Option (Monster α)
  | 0 => none
  | index + 1 =>
      match (rows[index]?).bind fun row => row[randomPosition]? with
      | some monster =>
          if monster.state = .alive then some monster else shooter rows randomPosition index
      | none => shooter rows randomPosition index

-- An empty cluster has no last row, and an empty last row is a remainder by zero.
def shoot (platform : Platform α) (random : Nat) (cluster : MonsterCluster α) :
    Option (MonsterCluster α) :=
  match cluster.rows.getLast? with
  | none => none
  | some last =>
      if last.length = 0 then
        none
      else
        match shooter cluster.rows (random % last.length) cluster.rows.length with
        | none => some cluster
        | some monster =>
            let bullet := Bullet.new
              (monster.position.x + (monster.getMonsterBounds platform).width / ((2 : Int) : α))
              monster.position.y (-5)
            some { cluster with bulletVec := cluster.bulletVec ++ [bullet] }

def updateBullets (cluster : MonsterCluster α) : MonsterCluster α :=
  { cluster with bulletVec := cluster.bulletVec.map Bullet.updateBullet }

-- The displacement of every monster in one move.
def displacement (velocity : α) : Direction → Vector2 α
  | .down => ⟨0, velocity * ((4 : Int) : α)⟩
  | .right => ⟨velocity, 0⟩
  | .left => ⟨-velocity, 0⟩

def moveMonsters (velocity : α) (cluster : MonsterCluster α) : MonsterCluster α :=
  { cluster with
    rows := cluster.rows.map fun row => row.map (Monster.move (displacement velocity cluster.nextDir)) }

def coolDown (platform : Platform α) (random : Nat) (cluster : MonsterCluster α) :
    Option (MonsterCluster α) :=
  if cluster.cooldown < 50 then
    some { cluster with cooldown := cluster.cooldown + 1 }
  else if cluster.cooldown = 50 then
    (cluster.shoot platform random).map fun next => { next with cooldown := 0 }
  else
    some cluster

def turn (velocity : α) (windowWidth : Nat) (cluster : MonsterCluster α) : MonsterCluster α :=
  match cluster.nextDir with
  | .right =>
      let rightEdge := cluster.rightEdge + velocity
      { cluster with
        leftEdge := cluster.leftEdge + velocity
        rightEdge := rightEdge
        nextDir := if ((windowWidth : Int) : α) ≤ rightEdge then .down else .right }
  | .left =>
      let leftEdge := cluster.leftEdge - velocity
      { cluster with
        leftEdge := leftEdge
        rightEdge := cluster.rightEdge - velocity
        nextDir := if leftEdge ≤ 0 then .down else .left }
  | .down =>
      { cluster with
        nextDir :=
          if cluster.leftEdge ≤ 0 then .right
          else if ((windowWidth : Int) : α) ≤ cluster.rightEdge then .left
          else .down }

def move (platform : Platform α) (velocity : α) (windowWidth random : Nat)
    (cluster : MonsterCluster α) : Option (MonsterCluster α) :=
  ((cluster.moveMonsters velocity).coolDown platform random).map fun next =>
    next.updateBullets.turn velocity windowWidth

end MonsterCluster

end SpaceInvaders

import SpaceInvaders.Library.FirstMatch
import SpaceInvaders.Entity.Player
import SpaceInvaders.Entity.MonsterCluster
import SpaceInvaders.GameProcessing.Score

namespace SpaceInvaders

open FirstMatch (updateFirst)

-- The objects that the class points to are part of the record.
structure Collisions (α : Type) where
  player : Player α
  monsterCluster : MonsterCluster α
  score : Score
  deathCooldown : Int
  deriving DecidableEq, Repr

namespace Collisions

variable {α : Type} [Coord α]

def new (player : Player α) (monsterCluster : MonsterCluster α) (score : Score) : Collisions α :=
  { player := player, monsterCluster := monsterCluster, score := score, deathCooldown := 0 }

-- The three loops over player bullets, rows and monsters, innermost first.
def hitMonster (platform : Platform α) (bulletBoundingBox : FloatRect α) (monster : Monster α) :
    Option (Monster α × Unit) :=
  if monster.state ≠ .alive then
    none
  else if platform.intersects bulletBoundingBox (monster.getMonsterBounds platform) then
    some (monster.kill, ())
  else
    none

def hitRow (platform : Platform α) (bulletBoundingBox : FloatRect α) (row : List (Monster α)) :
    Option (List (Monster α) × Unit) :=
  updateFirst (hitMonster platform bulletBoundingBox) row

def hitRows (platform : Platform α) (rows : List (List (Monster α))) (bullet : Bullet α) :
    Option (Bullet α × List (List (Monster α))) :=
  if bullet.state ≠ .alive then
    none
  else
    (updateFirst (hitRow platform (bullet.getBoundingBox platform)) rows).map fun found =>
      (bullet.hide, found.1)

-- The loop over the enemy bullets does not ask for their state.
def hitShip (platform : Platform α) (playerBoundingBox : FloatRect α) (bullet : Bullet α) :
    Option (Bullet α × Unit) :=
  if platform.intersects (bullet.getBoundingBox platform) playerBoundingBox then
    some (bullet.hide, ())
  else
    none

-- The part of checkCollisions that a kill skips.
def checkDamage (platform : Platform α) (game : Collisions α) : Collisions α :=
  if game.player.state = .alive ∧ game.deathCooldown = 0 then
    match updateFirst (hitShip platform (game.player.getPlayerBounds platform))
        game.monsterCluster.bulletVec with
    | some (bulletVec, _) =>
        { game with
          player := game.player.die
          monsterCluster := { game.monsterCluster with bulletVec := bulletVec }
          deathCooldown := game.deathCooldown + 1 }
    | none => game
  else if game.deathCooldown < 50 then
    { game with deathCooldown := game.deathCooldown + 1 }
  else
    { game with player := { game.player with state := .alive }, deathCooldown := 0 }

def checkCollisions (platform : Platform α) (game : Collisions α) : Collisions α :=
  match updateFirst (hitRows platform game.monsterCluster.rows) game.player.bulletVec with
  | some (bulletVec, rows) =>
      { game with
        player := { game.player with bulletVec := bulletVec }
        monsterCluster :=
          { game.monsterCluster with
            rows := rows
            destroyedCount := game.monsterCluster.destroyedCount + 1 }
        score := game.score.addEnemyKilled.addScore 100 }
  | none => checkDamage platform game

end Collisions

end SpaceInvaders

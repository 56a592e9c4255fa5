import SpaceInvaders.Geometry

namespace SpaceInvaders

inductive State where
  | alive
  | destroyed
  deriving DecidableEq, Repr

-- The circle is kept as its position.
structure Bullet (α : Type) where
  position : Vector2 α
  speed : Int
  state : State
  deriving DecidableEq, Repr

namespace Bullet

variable {α : Type}

def new [Coord α] (x y : α) (speed : Int) : Bullet α :=
  { position := ⟨x - ((5 : Int) : α), y⟩, speed := speed, state := .alive }

def updateBullet [Coord α] (bullet : Bullet α) : Bullet α :=
  { bullet with position := ⟨bullet.position.x, bullet.position.y - (bullet.speed : α)⟩ }

def getBoundingBox (platform : Platform α) (bullet : Bullet α) : FloatRect α :=
  platform.bulletBounds bullet.position

def hide (bullet : Bullet α) : Bullet α :=
  { bullet with state := .destroyed }

@[simp] theorem new_state [Coord α] (x y : α) (speed : Int) : (new x y speed).state = .alive := rfl

@[simp] theorem new_speed [Coord α] (x y : α) (speed : Int) : (new x y speed).speed = speed := rfl

@[simp] theorem updateBullet_state [Coord α] (bullet : Bullet α) :
    bullet.updateBullet.state = bullet.state := rfl

@[simp] theorem updateBullet_speed [Coord α] (bullet : Bullet α) :
    bullet.updateBullet.speed = bullet.speed := rfl

@[simp] theorem hide_state (bullet : Bullet α) : bullet.hide.state = .destroyed := rfl

@[simp] theorem hide_speed (bullet : Bullet α) : bullet.hide.speed = bullet.speed := rfl

@[simp] theorem hide_position (bullet : Bullet α) : bullet.hide.position = bullet.position := rfl

end Bullet

end SpaceInvaders

import SpaceInvaders.Entity.Bullet

namespace SpaceInvaders

-- The sprite is kept as its position.
structure Monster (α : Type) where
  position : Vector2 α
  spriteSize : Vector2 α
  state : State
  deriving DecidableEq, Repr

namespace Monster

variable {α : Type}

def new [Coord α] (platform : Platform α) : Monster α :=
  let bounds := platform.monsterBounds ⟨0, 0⟩
  { position := ⟨0, 0⟩, spriteSize := ⟨bounds.width, bounds.height⟩, state := .alive }

def move [Coord α] (velocity : Vector2 α) (monster : Monster α) : Monster α :=
  { monster with
    position := ⟨monster.position.x + velocity.x, monster.position.y + velocity.y⟩ }

def setPosition (x y : α) (monster : Monster α) : Monster α :=
  { monster with position := ⟨x, y⟩ }

def getHeight (monster : Monster α) : α := monster.spriteSize.y

def getWidth (monster : Monster α) : α := monster.spriteSize.x

def getMonsterBounds (platform : Platform α) (monster : Monster α) : FloatRect α :=
  platform.monsterBounds monster.position

-- The object after `monster = other`: operator= returns a copy and assigns nothing.
def assign (monster _other : Monster α) : Monster α := monster

def kill (monster : Monster α) : Monster α :=
  { monster with state := .destroyed }

@[simp] theorem new_state [Coord α] (platform : Platform α) : (new platform).state = .alive := rfl

@[simp] theorem move_state [Coord α] (velocity : Vector2 α) (monster : Monster α) :
    (monster.move velocity).state = monster.state := rfl

@[simp] theorem setPosition_state (x y : α) (monster : Monster α) :
    (monster.setPosition x y).state = monster.state := rfl

@[simp] theorem kill_state (monster : Monster α) : monster.kill.state = .destroyed := rfl

@[simp] theorem kill_position (monster : Monster α) : monster.kill.position = monster.position := rfl

end Monster

end SpaceInvaders

import SpaceInvaders.Main.Window

namespace SpaceInvaders

open Transition Collisions

variable {platform : Platform ℚ} {size : Vector2 ℚ}

end SpaceInvaders

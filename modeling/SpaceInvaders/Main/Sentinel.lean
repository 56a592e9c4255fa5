import SpaceInvaders.Main
import SpaceInvaders.Entity.Player.Lemmas
import SpaceInvaders.Geometry.Single

namespace SpaceInvaders

section Steering

variable {α : Type} [Coord α]

namespace Player

end Player

end Steering

section Encoding

variable (platform : Platform Single) (windowSize cameraSize : Vector2 Single)

variable (hwindow : 0 < windowSize.x) (hcamera : 0 < cameraSize.x)

include hwindow hcamera

end Encoding

-- A ship that stands to the right of its destination.
def resting (platform : Platform Single) : Player Single :=
  { Player.new platform ⟨0, 0⟩ .alive with position := ⟨((100 : Int) : Single), 0⟩ }

end SpaceInvaders

import SpaceInvaders.Geometry

namespace SpaceInvaders

structure HandTracker (α : Type) where
  windowSize : Vector2 α
  cameraSize : Vector2 α
  scale : Vector2 α
  deriving DecidableEq, Repr

namespace HandTracker

variable {α : Type} [Coord α]

-- The constructor with conversionInit, for a camera of the given frame size.
def new (windowSize cameraSize : Vector2 α) : HandTracker α :=
  { windowSize := windowSize
    cameraSize := cameraSize
    scale := ⟨windowSize.x / cameraSize.x, windowSize.y / cameraSize.y⟩ }

def noLandmark : Vector2 α := ⟨-((1 : Int) : α), -((1 : Int) : α)⟩

-- One locked read: `frameHandLandmarks` is the list that is current at that moment.
def getHandLandmark (frameHandLandmarks : List (Vector2 α)) (point : Nat) : Vector2 α :=
  frameHandLandmarks[point]?.getD noLandmark

def getWrist (frameHandLandmarks : List (Vector2 α)) : Vector2 α := getHandLandmark frameHandLandmarks 0

def getThumbTip (frameHandLandmarks : List (Vector2 α)) : Vector2 α := getHandLandmark frameHandLandmarks 4

def getFingerTip (frameHandLandmarks : List (Vector2 α)) : Vector2 α := getHandLandmark frameHandLandmarks 8

def getMiddleFingerTip (frameHandLandmarks : List (Vector2 α)) : Vector2 α :=
  getHandLandmark frameHandLandmarks 12

def getRingFingerTip (frameHandLandmarks : List (Vector2 α)) : Vector2 α :=
  getHandLandmark frameHandLandmarks 16

def getPinkyTip (frameHandLandmarks : List (Vector2 α)) : Vector2 α :=
  getHandLandmark frameHandLandmarks 20

-- What the tracking thread publishes for one packet and one camera frame.
def pixels (cols rows : Int) (handLandmarks : List (Vector2 α)) : List (Vector2 Int) :=
  handLandmarks.map fun landmark =>
    ⟨Coord.trunc (landmark.x * (cols : α)), Coord.trunc (landmark.y * (rows : α))⟩

def frameHandLandmarks (published : List (Vector2 Int)) : List (Vector2 α) :=
  published.map fun pixel => ⟨(pixel.x : α), (pixel.y : α)⟩

def convert (tracker : HandTracker α) (wristCoord : Vector2 α) : Vector2 α :=
  if wristCoord.x = -((1 : Int) : α) ∧ wristCoord.y = -((1 : Int) : α) then
    wristCoord
  else
    ⟨(tracker.cameraSize.x - wristCoord.x) * tracker.scale.x, wristCoord.y * tracker.scale.y⟩

def euclideanDistance (platform : Platform α) (point1 point2 : Vector2 α) : α :=
  let distanceX := point2.x - point1.x
  let distanceY := point2.y - point1.y
  platform.sqrt (distanceX * distanceX + distanceY * distanceY)

-- std::max_element keeps the first of equal values. The answer is an index:
-- `best` is that of `largest`, and `next` that of the head of the rest.
def maxElement (largest : α) (best next : Nat) : List α → Nat
  | [] => best
  | value :: rest =>
      if largest < value then maxElement value next (next + 1) rest
      else maxElement largest best (next + 1) rest

-- The test of isFistClosed on the wrist and the tips of the thumb and the fingers.
def thumbIsFarthest (platform : Platform α) (wrist thumb : Vector2 α) (fingers : List (Vector2 α)) :
    Bool :=
  maxElement (euclideanDistance platform wrist thumb) 0 1
    (fingers.map (euclideanDistance platform wrist)) == 0

-- `current read` is the list that the locked read number `read` of the call sees.
def isFistClosed (platform : Platform α) (current : Nat → List (Vector2 α)) : Bool :=
  if (current 0).length = 0 then
    false
  else
    thumbIsFarthest platform (getWrist (current 1)) (getThumbTip (current 2))
      [getFingerTip (current 3), getMiddleFingerTip (current 4), getRingFingerTip (current 5),
        getPinkyTip (current 6)]

end HandTracker

end SpaceInvaders

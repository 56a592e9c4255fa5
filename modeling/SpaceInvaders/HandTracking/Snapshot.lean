import SpaceInvaders.HandTracking.HandTracker
import SpaceInvaders.Library.Snapshot
import Mathlib.Data.List.GetD
import Mathlib.Tactic.IntervalCases

namespace SpaceInvaders

namespace HandTracker

open Snapshot

section Coordinates

variable {α : Type} [Coord α]

-- isFistClosed without interruption while `published` is the current list.
def fistOn (platform : Platform α) (published : List (Vector2 Int)) : Bool :=
  isFistClosed platform fun _ => frameHandLandmarks published

-- isFistClosed while the tracking thread publishes: `events` are the locked
-- regions of the two threads in the order in which they are entered.
def fistDuring (platform : Platform α) (current : List (Vector2 Int))
    (events : List (Event (List (Vector2 Int)))) : Bool :=
  isFistClosed platform fun read => frameHandLandmarks ((seen current events).getD read [])

-- The decision is the one on a list that was current during the call.
def OneSnapshot (platform : Platform α) (current : List (Vector2 Int))
    (events : List (Event (List (Vector2 Int)))) : Prop :=
  ∃ published ∈ during current events, fistDuring platform current events = fistOn platform published

-- A shot needs a closed fist that was current during the call.
def NoPhantom (platform : Platform α) (current : List (Vector2 Int))
    (events : List (Event (List (Vector2 Int)))) : Prop :=
  fistDuring platform current events = true →
    ∃ published ∈ during current events, fistOn platform published = true

theorem OneSnapshot.noPhantom {platform : Platform α} {current : List (Vector2 Int)}
    {events : List (Event (List (Vector2 Int)))} (h : OneSnapshot platform current events) :
    NoPhantom platform current events := by
  obtain ⟨published, hmem, heq⟩ := h
  exact fun hfist => ⟨published, hmem, heq ▸ hfist⟩

-- The call makes seven reads.
theorem isFistClosed_congr (platform : Platform α) (first second : Nat → List (Vector2 α))
    (h : ∀ read < 7, first read = second read) :
    isFistClosed platform first = isFistClosed platform second := by
  simp only [isFistClosed, h 0 (by omega), h 1 (by omega), h 2 (by omega), h 3 (by omega),
    h 4 (by omega), h 5 (by omega), h 6 (by omega)]

theorem fistDuring_of_seen (platform : Platform α) (current published : List (Vector2 Int))
    (events : List (Event (List (Vector2 Int))))
    (h : seen current events = List.replicate 7 published) :
    fistDuring platform current events = fistOn platform published := by
  refine isFistClosed_congr platform _ _ fun read hread => ?_
  rw [h, List.getD_replicate published hread]

theorem oneSnapshot_of_uninterrupted (platform : Platform α) (current : List (Vector2 Int))
    (events : List (Event (List (Vector2 Int))))
    (h : Uninterrupted 7 (events.map Event.forget)) : OneSnapshot platform current events := by
  obtain ⟨published, hmem, hseen⟩ := seen_uninterrupted 7 current events h
  exact ⟨published, hmem, fistDuring_of_seen platform current published events hseen⟩

end Coordinates

-- An open hand: the tip of the little finger is the farthest from the wrist.
def openLandmarks : List (Vector2 Int) :=
  [⟨2, 3⟩, ⟨0, 0⟩, ⟨0, 0⟩, ⟨0, 0⟩, ⟨8, 11⟩, ⟨0, 0⟩, ⟨0, 0⟩, ⟨0, 0⟩, ⟨5, 7⟩, ⟨0, 0⟩, ⟨0, 0⟩,
    ⟨0, 0⟩, ⟨5, 7⟩, ⟨0, 0⟩, ⟨0, 0⟩, ⟨0, 0⟩, ⟨5, 7⟩, ⟨0, 0⟩, ⟨0, 0⟩, ⟨0, 0⟩, ⟨11, 15⟩]

section Phantom

variable (platform : Platform ℚ)
  (hsqrt : ∀ value : ℚ, 0 ≤ value → platform.sqrt (value * value) = value)

include hsqrt

-- What remains of the test when the coordinates are numbers.
theorem distance_of_square (point1 point2 : Vector2 ℚ) (distance : ℚ) (h : 0 ≤ distance)
    (hsquare : (point2.x - point1.x) * (point2.x - point1.x) +
      (point2.y - point1.y) * (point2.y - point1.y) = distance * distance) :
    euclideanDistance platform point1 point2 = distance := by
  change platform.sqrt ((point2.x - point1.x) * (point2.x - point1.x) +
    (point2.y - point1.y) * (point2.y - point1.y)) = distance
  rw [hsquare, hsqrt distance h]

theorem fistOn_openLandmarks : fistOn platform openLandmarks = false := by
  have hthumb := distance_of_square platform hsqrt ⟨2, 3⟩ ⟨8, 11⟩ 10 (by norm_num) (by norm_num)
  have hfinger := distance_of_square platform hsqrt ⟨2, 3⟩ ⟨5, 7⟩ 5 (by norm_num) (by norm_num)
  have hpinky := distance_of_square platform hsqrt ⟨2, 3⟩ ⟨11, 15⟩ 15 (by norm_num) (by norm_num)
  simp [fistOn, isFistClosed, frameHandLandmarks, openLandmarks, thumbIsFarthest, getWrist,
    getThumbTip, getFingerTip, getMiddleFingerTip, getRingFingerTip, getPinkyTip, getHandLandmark,
    maxElement, hthumb, hfinger, hpinky]
  norm_num

-- Once the list has been cleared, the missing points are as far from the wrist
-- as the fingers of the open hand and the thumb is farthest or ties.
theorem fistDuring_torn (current : List (Vector2 Int)) (events : List (Event (List (Vector2 Int))))
    (early late : Nat) (hcount : early + late + 2 = 7)
    (h : seen current events =
      List.replicate (early + 1) openLandmarks ++ List.replicate (late + 1) []) :
    fistDuring platform current events = true := by
  have hthumb := distance_of_square platform hsqrt ⟨2, 3⟩ ⟨8, 11⟩ 10 (by norm_num) (by norm_num)
  have hfinger := distance_of_square platform hsqrt ⟨2, 3⟩ ⟨5, 7⟩ 5 (by norm_num) (by norm_num)
  have hmissing := distance_of_square platform hsqrt ⟨2, 3⟩ ⟨-1, -1⟩ 5 (by norm_num) (by norm_num)
  have hnone := distance_of_square platform hsqrt ⟨-1, -1⟩ ⟨-1, -1⟩ 0 (by norm_num) (by norm_num)
  obtain rfl : late = 5 - early := by omega
  have hearly : early ≤ 5 := by omega
  interval_cases early <;>
    simp [fistDuring, h, isFistClosed, frameHandLandmarks, openLandmarks, thumbIsFarthest, getWrist,
      getThumbTip, getFingerTip, getMiddleFingerTip, getRingFingerTip, getPinkyTip, getHandLandmark,
      noLandmark, maxElement, hthumb, hfinger, hmissing, hnone, List.replicate]
  all_goals norm_num

theorem not_noPhantom_of_interrupted (schedule : List (Event Unit))
    (hreads : schedule.count .read = 7) (h : ¬ Uninterrupted 7 schedule) :
    ¬ NoPhantom platform openLandmarks (tear openLandmarks [] schedule) := by
  rw [← hreads] at h
  obtain ⟨early, late, hcount, hseen⟩ := seen_tear openLandmarks [] schedule (by omega) h
  intro hphantom
  obtain ⟨published, hmem, hfist⟩ := hphantom
    (fistDuring_torn platform hsqrt openLandmarks _ early late (by omega) hseen)
  rcases during_tear openLandmarks [] schedule published hmem with rfl | rfl
  · rw [fistOn_openLandmarks platform hsqrt] at hfist
    cases hfist
  · cases hfist

end Phantom

-- An order of the locked regions gives the decision of one snapshot, whatever
-- is published, if and only if nothing is published between the first of the
-- seven reads and the last. The same orders are those without phantom shots.
theorem snapshot_iff (platform : Platform ℚ)
    (hsqrt : ∀ value : ℚ, 0 ≤ value → platform.sqrt (value * value) = value)
    (schedule : List (Event Unit)) (hreads : schedule.count .read = 7) :
    ((∀ current events, events.map Event.forget = schedule →
        OneSnapshot platform current events) ↔ Uninterrupted 7 schedule) ∧
      ((∀ current events, events.map Event.forget = schedule →
        NoPhantom platform current events) ↔ Uninterrupted 7 schedule) := by
  have hone : Uninterrupted 7 schedule → ∀ current events,
      events.map Event.forget = schedule → OneSnapshot platform current events := by
    rintro h current events rfl
    exact oneSnapshot_of_uninterrupted platform current events h
  have hphantom : (∀ current events, events.map Event.forget = schedule →
      NoPhantom platform current events) → Uninterrupted 7 schedule := by
    intro h
    by_contra hinterrupted
    exact not_noPhantom_of_interrupted platform hsqrt schedule hreads hinterrupted
      (h openLandmarks _ (forget_tear openLandmarks [] schedule))
  refine ⟨⟨fun h => hphantom ?_, hone⟩, ⟨hphantom, ?_⟩⟩
  · exact fun current events he => (h current events he).noPhantom
  · exact fun h current events he => (hone h current events he).noPhantom

theorem snapshot_iff_before_call :
    OneSnapshot arcade openLandmarks (.publish [] :: List.replicate 7 .read) := by
  have h := (snapshot_iff arcade arcade_sqrt (.publish () :: List.replicate 7 .read)
    (by decide)).1
  exact h.mpr ⟨1, 0, rfl⟩ openLandmarks _ rfl

-- The list is cleared after the test for emptiness: the wrist and all five
-- tips read as (-1, -1), the distances tie and a shot is fired.
theorem cleared_list_shoots :
    ¬ OneSnapshot arcade openLandmarks
      ([.read, .publish []] ++ List.replicate 6 .read) ∧
    ¬ NoPhantom arcade openLandmarks
      ([.read, .publish []] ++ List.replicate 6 .read) := by
  unfold OneSnapshot NoPhantom
  decide +kernel

end HandTracker

end SpaceInvaders

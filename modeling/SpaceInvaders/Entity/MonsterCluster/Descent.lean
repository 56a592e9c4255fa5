import SpaceInvaders.Library.Run
import SpaceInvaders.Entity.MonsterCluster.Lemmas

namespace SpaceInvaders

-- The other horizontal direction.
def Direction.opposite : Direction → Direction
  | .left => .right
  | .right => .left
  | .down => .down

namespace MonsterCluster

open Transition

variable {α : Type} [Coord α]

inductive Operation (α : Type) where
  | addRow (numberOfMonsters : Int)
  | setPosition (xPos yPos : α)
  | move (velocity : α) (windowWidth random : Nat)

def operate (platform : Platform α) : Operation α → MonsterCluster α → Option (MonsterCluster α)
  | .addRow numberOfMonsters, cluster => some (cluster.addRow platform numberOfMonsters)
  | .setPosition xPos yPos, cluster => some (cluster.setPosition platform xPos yPos)
  | .move velocity windowWidth random, cluster => cluster.move platform velocity windowWidth random

-- The horizontal direction that was last in force.
def recordHeading (cluster : MonsterCluster α) (heading : Direction) : Direction :=
  if cluster.nextDir = .down then heading else cluster.nextDir

def HeadingStep (platform : Platform α) :
    Operation α → MonsterCluster α × Direction → Option (MonsterCluster α × Direction) :=
  withHistory (operate platform) recordHeading

-- The run takes the descending move from `cluster` to `next`, with this horizontal
-- direction in force before the descent.
def Descends (platform : Platform α) (operations : List (Operation α)) (heading : Direction)
    (windowWidth : Nat) (cluster next : MonsterCluster α) : Prop :=
  ∃ velocity random last, Visits (HeadingStep platform) (new platform, .right) operations
    (cluster, heading) (.move velocity windowWidth random) (next, last) ∧ cluster.nextDir = .down

-- Every descent of the run is over after one move and turns the cluster around.
def DescentsReverse (platform : Platform α) (operations : List (Operation α)) : Prop :=
  ∀ heading windowWidth cluster next, Descends platform operations heading windowWidth cluster next →
    next.nextDir = heading.opposite ∧ next.nextDir ≠ .down

-- The cluster is at the edge that it was heading for, in the window of this move,
-- and, when that is the right one, not at the left one as well.
def AtEdge (windowWidth : Nat) (heading : Direction) (cluster : MonsterCluster α) : Prop :=
  if heading = .right then
    ¬cluster.leftEdge ≤ 0 ∧ ((windowWidth : Int) : α) ≤ cluster.rightEdge
  else
    cluster.leftEdge ≤ 0

theorem turn_of_down (velocity : α) (windowWidth : Nat) (cluster : MonsterCluster α)
    (hdown : cluster.nextDir = .down) :
    (cluster.turn velocity windowWidth).nextDir =
      if cluster.leftEdge ≤ 0 then .right
      else if ((windowWidth : Int) : α) ≤ cluster.rightEdge then .left else .down := by
  simp only [turn, hdown]

-- One descending move turns around exactly if the cluster is at its edge.
theorem turn_opposite_iff (velocity : α) (windowWidth : Nat) (cluster : MonsterCluster α)
    (heading : Direction) (hheading : heading ≠ .down) (hdown : cluster.nextDir = .down) :
    (cluster.turn velocity windowWidth).nextDir = heading.opposite ↔
      AtEdge windowWidth heading cluster := by
  rw [turn_of_down velocity windowWidth cluster hdown]
  cases heading with
  | down => exact absurd rfl hheading
  | left =>
      simp only [Direction.opposite, AtEdge, reduceCtorEq, ite_false]
      split_ifs with hleft hright <;> simp [hleft]
  | right =>
      simp only [Direction.opposite, AtEdge, ite_true]
      split_ifs with hleft hright <;> simp [*]

theorem move_nextDir (platform : Platform α) (velocity : α) (windowWidth random : Nat)
    (cluster next : MonsterCluster α)
    (h : cluster.move platform velocity windowWidth random = some next) :
    next.nextDir = (cluster.turn velocity windowWidth).nextDir := by
  obtain ⟨fired, cooldown, _, rfl⟩ := move_eq_some platform velocity windowWidth random cluster next h
  rfl

theorem opposite_ne_down {heading : Direction} (h : heading ≠ .down) : heading.opposite ≠ .down := by
  cases heading with
  | down => exact absurd rfl h
  | left => exact nofun
  | right => exact nofun

theorem heading_ne_down (platform : Platform α) (operations : List (Operation α))
    {before after : MonsterCluster α × Direction} {operation : Operation α}
    (h : Visits (HeadingStep platform) (new platform, .right) operations before operation after) :
    before.2 ≠ .down := by
  apply h.invariant (fun state => state.2 ≠ .down) ?_ nofun
  intro s other t hvisit hs
  obtain ⟨next, _, rfl⟩ := Option.map_eq_some_iff.mp hvisit.step_eq
  simp only [recordHeading]
  split_ifs with hd
  · exact hs
  · exact hd

-- The descents of a run reverse the cluster exactly if each of them starts at the
-- edge in the window that its own move is given.
theorem descentsReverse_iff (platform : Platform α) (operations : List (Operation α)) :
    DescentsReverse platform operations ↔
      ∀ heading windowWidth cluster next,
        Descends platform operations heading windowWidth cluster next →
        AtEdge windowWidth heading cluster := by
  have hstep : ∀ heading windowWidth cluster next,
      Descends platform operations heading windowWidth cluster next → heading ≠ .down ∧
      (next.nextDir = heading.opposite ↔ AtEdge windowWidth heading cluster) := by
    rintro heading windowWidth cluster next ⟨velocity, random, last, hvisit, hdown⟩
    have hheading := heading_ne_down platform operations hvisit
    obtain ⟨found, hmove, he⟩ := Option.map_eq_some_iff.mp hvisit.step_eq
    cases he
    rw [move_nextDir platform velocity windowWidth random cluster next hmove]
    exact ⟨hheading, turn_opposite_iff velocity windowWidth cluster heading hheading hdown⟩
  constructor
  · intro hreverse heading windowWidth cluster next hd
    exact (hstep heading windowWidth cluster next hd).2.mp (hreverse heading windowWidth cluster next hd).1
  · intro hedge heading windowWidth cluster next hd
    obtain ⟨hheading, hiff⟩ := hstep heading windowWidth cluster next hd
    have hopposite := hiff.mpr (hedge heading windowWidth cluster next hd)
    exact ⟨hopposite, hopposite ▸ opposite_ne_down hheading⟩

-- The cluster reaches the right edge of a window 100 wide, which then grows to 1000.
def widened : List (Operation ℚ) :=
  [.addRow 1, .setPosition 50 10, .move 60 100 0, .move 1 1000 0]

theorem descent_goes_on : ¬DescentsReverse arcade widened := by
  intro hreverse
  have hrun : (run (HeadingStep arcade) (new arcade, .right) (widened.take 3)).any (fun state =>
      state.1.nextDir = .down ∧ (HeadingStep arcade (.move 1 1000 0) state).any fun next =>
        next.1.nextDir = .down) = true := by
    decide +kernel
  obtain ⟨⟨cluster, heading⟩, hbefore, hstate⟩ := (Option.any_eq_true _ _).mp hrun
  obtain ⟨hdown, hnext⟩ := of_decide_eq_true hstate
  obtain ⟨⟨next, last⟩, hstep, hstill⟩ := (Option.any_eq_true _ _).mp hnext
  have hdescends : Descends arcade widened heading 1000 cluster next :=
    ⟨1, 0, last, ⟨widened.take 3, [], rfl, hbefore, hstep⟩, hdown⟩
  exact (hreverse heading 1000 cluster next hdescends).2 (of_decide_eq_true hstill)

end MonsterCluster

end SpaceInvaders

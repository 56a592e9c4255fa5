import SpaceInvaders.Entity.MonsterCluster.Descent

namespace SpaceInvaders

-- Legs in alternating horizontal directions, with one descent between two legs. The
-- last leg may be cut short.
inductive ZigZag : Direction → List Direction → Prop
  | stop (heading : Direction) : ZigZag heading []
  | leg (heading : Direction) (count : Nat) : ZigZag heading (List.replicate (count + 1) heading)
  | turn (heading : Direction) (count : Nat) (rest : List Direction) :
      ZigZag heading.opposite rest →
      ZigZag heading (List.replicate (count + 1) heading ++ .down :: rest)

theorem ZigZag.cons {heading : Direction} {directions : List Direction}
    (h : ZigZag heading directions) : ZigZag heading (heading :: directions) := by
  cases h with
  | stop => exact .leg heading 0
  | leg _ count => exact .leg heading (count + 1)
  | turn _ count rest h => exact .turn heading (count + 1) rest h

namespace MonsterCluster

open Transition

theorem setPosition_edges (platform : Platform ℚ) (xPos yPos : ℚ) (cluster : MonsterCluster ℚ)
    (h : ∃ row ∈ cluster.rows, row ≠ []) :
    ∃ length, (cluster.setPosition platform xPos yPos).leftEdge = xPos - length / 2 ∧
      (cluster.setPosition platform xPos yPos).rightEdge = xPos + length / 2 := by
  obtain ⟨row, hr, hne⟩ := h
  rcases edges_cases platform cluster.gap xPos 0 (cluster.leftEdge, cluster.rightEdge)
      cluster.rows with ⟨_, hshort⟩ | ⟨longest, _, _, _, he⟩
  · exact absurd (List.length_pos_iff.mpr hne) (Nat.not_lt.mpr (hshort row hr))
  · exact ⟨rowLength platform cluster.gap longest.length, by simp [setPosition, he],
      by simp [setPosition, he]⟩

-- Moves in a window of one width.
def sweep (platform : Platform ℚ) (windowWidth : Nat) (input : ℚ × Nat) (cluster : MonsterCluster ℚ) :
    Option (MonsterCluster ℚ) :=
  cluster.move platform input.1 windowWidth input.2

-- What holds of the edges in each direction, for moves of at most `bound`.
structure Sweeping (windowWidth : Nat) (bound : ℚ) (cluster : MonsterCluster ℚ) : Prop where
  narrow : cluster.rightEdge - cluster.leftEdge < windowWidth
  left : -bound < cluster.leftEdge
  right : cluster.rightEdge < windowWidth + bound
  headingRight : cluster.nextDir = .right → cluster.rightEdge < windowWidth
  headingLeft : cluster.nextDir = .left → 0 < cluster.leftEdge
  descending : cluster.nextDir = .down →
    (cluster.leftEdge ≤ 0 ∧ cluster.rightEdge < windowWidth) ∨
    (0 < cluster.leftEdge ∧ windowWidth ≤ cluster.rightEdge)

variable {platform : Platform ℚ} {windowWidth : Nat} {bound : ℚ}

-- In each direction the move keeps the invariant: the edge that is approached is
-- passed by less than one move, and the other one is farther than the width.
theorem turn_sweeping (velocity : ℚ) (hnonneg : 0 ≤ velocity) (hbound : velocity ≤ bound)
    (cluster : MonsterCluster ℚ) (h : Sweeping windowWidth bound cluster) :
    Sweeping windowWidth bound (cluster.turn velocity windowWidth) := by
  obtain ⟨hnarrow, hleft, hright, hheadingRight, hheadingLeft, hdescending⟩ := h
  cases hd : cluster.nextDir with
  | right =>
      have hr := hheadingRight hd
      by_cases hedge : (windowWidth : ℚ) ≤ cluster.rightEdge + velocity
      · constructor <;> simp only [turn, hd, Int.cast_natCast, hedge, ite_true, reduceCtorEq,
          false_implies, forall_const] <;> try linarith
        exact .inr ⟨by linarith, trivial⟩
      · constructor <;> simp only [turn, hd, Int.cast_natCast, hedge, ite_false, reduceCtorEq,
          false_implies, forall_const] <;> linarith
  | left =>
      have hl := hheadingLeft hd
      by_cases hedge : cluster.leftEdge - velocity ≤ 0
      · constructor <;> simp only [turn, hd, hedge, ite_true, reduceCtorEq,
          false_implies, forall_const] <;> try linarith
        exact .inl ⟨trivial, by linarith⟩
      · constructor <;> simp only [turn, hd, hedge, ite_false, reduceCtorEq,
          false_implies, forall_const] <;> linarith
  | down =>
      rcases hdescending hd with ⟨hl, hr⟩ | ⟨hl, hr⟩
      · constructor <;> simp only [turn, hd, hl, ite_true, reduceCtorEq, false_implies,
          forall_const] <;> linarith
      · have hn : ¬cluster.leftEdge ≤ 0 := by linarith
        constructor <;> simp only [turn, hd, hn, hr, Int.cast_natCast, ite_true, ite_false,
          reduceCtorEq, false_implies, forall_const] <;> linarith

theorem sweep_turn (input : ℚ × Nat) (cluster next : MonsterCluster ℚ)
    (h : sweep platform windowWidth input cluster = some next) :
    next.leftEdge = (cluster.turn input.1 windowWidth).leftEdge ∧
    next.rightEdge = (cluster.turn input.1 windowWidth).rightEdge ∧
    next.nextDir = (cluster.turn input.1 windowWidth).nextDir := by
  obtain ⟨fired, cooldown, _, rfl⟩ := move_eq_some platform _ _ _ cluster next h
  exact ⟨rfl, rfl, rfl⟩

theorem sweep_sweeping (input : ℚ × Nat) (hinput : 0 ≤ input.1 ∧ input.1 ≤ bound)
    (cluster next : MonsterCluster ℚ) (hinv : Sweeping windowWidth bound cluster)
    (h : sweep platform windowWidth input cluster = some next) : Sweeping windowWidth bound next := by
  have ht := turn_sweeping input.1 hinput.1 hinput.2 cluster hinv
  obtain ⟨hleft, hright, hdir⟩ := sweep_turn input cluster next h
  constructor <;> simp only [hleft, hright, hdir]
  · exact ht.narrow
  · exact ht.left
  · exact ht.right
  · exact ht.headingRight
  · exact ht.headingLeft
  · exact ht.descending

-- The direction of the leg that the cluster is in or, in a descent, enters next.
def legDir (cluster : MonsterCluster ℚ) : Direction :=
  match cluster.nextDir with
  | .down => if cluster.leftEdge ≤ 0 then .right else .left
  | heading => heading

-- From a state in a leg the directions are a zig-zag, from a descent after one step.
def FollowsLeg (cluster : MonsterCluster ℚ) (directions : List Direction) : Prop :=
  if cluster.nextDir = .down then
    directions = [] ∨ ∃ rest, directions = .down :: rest ∧ ZigZag cluster.legDir rest
  else
    ZigZag cluster.nextDir directions

theorem followsLeg_of_heading {cluster : MonsterCluster ℚ} (h : cluster.nextDir ≠ .down)
    (directions : List Direction) :
    FollowsLeg cluster directions ↔ ZigZag cluster.nextDir directions := by
  rw [FollowsLeg, if_neg h]

theorem followsLeg_of_down {cluster : MonsterCluster ℚ} (h : cluster.nextDir = .down)
    (directions : List Direction) :
    FollowsLeg cluster directions ↔
      directions = [] ∨ ∃ rest, directions = .down :: rest ∧ ZigZag cluster.legDir rest := by
  rw [FollowsLeg, if_pos h]

-- A descent is over after one move, in the direction of the next leg.
theorem turn_descending (velocity : ℚ) (cluster : MonsterCluster ℚ)
    (h : Sweeping windowWidth bound cluster) (hd : cluster.nextDir = .down) :
    (cluster.turn velocity windowWidth).nextDir = cluster.legDir := by
  rw [turn_of_down velocity windowWidth cluster hd]
  simp only [legDir, hd]
  rcases h.descending hd with ⟨hl, _⟩ | ⟨hl, hr⟩
  · simp only [hl, ite_true]
  · simp only [not_le.mpr hl, ite_false, Int.cast_natCast, hr, ite_true]

-- A leg goes on or ends in a descent towards the opposite leg.
theorem turn_leg (velocity : ℚ) (hnonneg : 0 ≤ velocity) (hbound : velocity ≤ bound)
    (cluster : MonsterCluster ℚ) (h : Sweeping windowWidth bound cluster)
    (hd : cluster.nextDir ≠ .down) :
    (cluster.turn velocity windowWidth).nextDir = cluster.nextDir ∨
    ((cluster.turn velocity windowWidth).nextDir = .down ∧
      (cluster.turn velocity windowWidth).legDir = cluster.nextDir.opposite) := by
  have ht := turn_sweeping velocity hnonneg hbound cluster h
  cases hdir : cluster.nextDir with
  | down => exact absurd hdir hd
  | right =>
      by_cases hedge : (windowWidth : ℚ) ≤ cluster.rightEdge + velocity
      · right
        have hdown : (cluster.turn velocity windowWidth).nextDir = .down := by
          simp [turn, hdir, hedge]
        refine ⟨hdown, ?_⟩
        have hl : ¬(cluster.turn velocity windowWidth).leftEdge ≤ 0 := by
          have hn := h.narrow
          simp only [turn, hdir]
          linarith
        simp only [legDir, hdown, hl, ite_false, Direction.opposite]
      · left
        simp [turn, hdir, hedge]
  | left =>
      by_cases hedge : cluster.leftEdge - velocity ≤ 0
      · right
        have hdown : (cluster.turn velocity windowWidth).nextDir = .down := by
          simp [turn, hdir, hedge]
        refine ⟨hdown, ?_⟩
        have hl : (cluster.turn velocity windowWidth).leftEdge ≤ 0 := by
          simpa only [turn, hdir] using hedge
        simp only [legDir, hdown, hl, ite_true, Direction.opposite]
      · left
        simp [turn, hdir, hedge]

theorem sweep_legDir (input : ℚ × Nat) (cluster next : MonsterCluster ℚ)
    (h : sweep platform windowWidth input cluster = some next) :
    next.legDir = (cluster.turn input.1 windowWidth).legDir := by
  obtain ⟨hleft, _, hdir⟩ := sweep_turn input cluster next h
  simp only [legDir, hleft, hdir]

theorem log_followsLeg (inputs : List (ℚ × Nat))
    (hinputs : ∀ input ∈ inputs, 0 ≤ input.1 ∧ input.1 ≤ bound) (cluster final : MonsterCluster ℚ)
    (hinv : Sweeping windowWidth bound cluster)
    (hrun : run (sweep platform windowWidth) cluster inputs = some final) :
    FollowsLeg cluster
      (log (sweep platform windowWidth) (fun _ cluster => [cluster.nextDir]) cluster inputs) := by
  induction inputs generalizing cluster with
  | nil =>
      by_cases hd : cluster.nextDir = .down
      · exact (followsLeg_of_down hd _).mpr (.inl rfl)
      · exact (followsLeg_of_heading hd _).mpr (.stop _)
  | cons input rest ih =>
      rw [run_cons, Option.bind_eq_some_iff] at hrun
      obtain ⟨next, hnext, hrun⟩ := hrun
      have hinput := hinputs input (List.mem_cons_self ..)
      have hi := ih (fun other ho => hinputs other (List.mem_cons_of_mem _ ho)) next
        (sweep_sweeping input hinput cluster next hinv hnext) hrun
      obtain ⟨_, _, hdir⟩ := sweep_turn input cluster next hnext
      simp only [log, hnext, List.singleton_append]
      by_cases hd : cluster.nextDir = .down
      · have hleg := turn_descending input.1 cluster hinv hd
        have hne : next.nextDir ≠ .down := by
          rw [hdir, hleg]
          simp only [legDir, hd]
          split_ifs <;> simp
        rw [followsLeg_of_heading hne, hdir, hleg] at hi
        rw [followsLeg_of_down hd, hd]
        exact .inr ⟨_, rfl, hi⟩
      · rw [followsLeg_of_heading hd]
        rcases turn_leg input.1 hinput.1 hinput.2 cluster hinv hd with hsame | ⟨hdown, hopposite⟩
        · have hne : next.nextDir ≠ .down := by rw [hdir, hsame]; exact hd
          rw [followsLeg_of_heading hne, hdir, hsame] at hi
          exact hi.cons
        · rw [← sweep_legDir input cluster next hnext] at hopposite
          rw [followsLeg_of_down (hdir.trans hdown), hopposite] at hi
          rcases hi with he | ⟨rest', he, hzig⟩ <;> rw [he]
          · exact .leg _ 0
          · exact .turn _ 0 rest' hzig

-- A cluster narrower than the window that starts in its middle sweeps from edge to
-- edge, overshoots by less than one move and descends once at each edge.
theorem zigzag_containment (platform : Platform ℚ) (windowWidth : Nat) (bound yPos : ℚ)
    (hbound : 0 ≤ bound) (placed : MonsterCluster ℚ) (hrow : ∃ row ∈ placed.rows, row ≠ [])
    (hright : placed.nextDir = .right) (first : MonsterCluster ℚ)
    (hfirst : first = placed.setPosition platform (windowWidth / 2) yPos)
    (hnarrow : first.rightEdge - first.leftEdge < windowWidth) (inputs : List (ℚ × Nat))
    (hinputs : ∀ input ∈ inputs, 0 ≤ input.1 ∧ input.1 ≤ bound) (cluster : MonsterCluster ℚ)
    (hrun : run (sweep platform windowWidth) first inputs = some cluster) :
    -bound < cluster.leftEdge ∧ cluster.rightEdge < windowWidth + bound ∧
    (cluster.nextDir = .right → cluster.rightEdge < windowWidth) ∧
    (cluster.nextDir = .left → 0 < cluster.leftEdge) ∧
    (cluster.nextDir = .down →
      Xor (cluster.leftEdge ≤ 0) (windowWidth ≤ cluster.rightEdge)) ∧
    ZigZag .right
      (log (sweep platform windowWidth) (fun _ cluster => [cluster.nextDir]) first inputs) := by
  obtain ⟨length, hl, hr⟩ := setPosition_edges platform (windowWidth / 2) yPos placed hrow
  rw [← hfirst] at hl hr
  have hdir : first.nextDir = .right := hfirst ▸ hright
  have hinit : Sweeping windowWidth bound first := by
    refine ⟨hnarrow, by linarith, by linarith, fun _ => by linarith, ?_, ?_⟩ <;> simp [hdir]
  have hinv : Sweeping windowWidth bound cluster := by
    apply run_invariant (Sweeping windowWidth bound) inputs first cluster ?_ hinit hrun
    intro before input after hvisit hb
    exact sweep_sweeping input (hinputs input hvisit.mem) before after hb hvisit.step_eq
  refine ⟨hinv.left, hinv.right, hinv.headingRight, hinv.headingLeft, ?_, ?_⟩
  · intro hd
    rcases hinv.descending hd with ⟨hl, hr⟩ | ⟨hl, hr⟩
    · exact .inl ⟨hl, not_le.mpr hr⟩
    · exact .inr ⟨hr, not_le.mpr hl⟩
  · have hleg := log_followsLeg inputs hinputs first cluster hinit hrun
    have hne : first.nextDir ≠ .down := by rw [hdir]; exact nofun
    rwa [followsLeg_of_heading hne, hdir] at hleg

-- One monster in a window 100 wide goes to the right edge, the left one and back.
def patrol : List (ℚ × Nat) := [(30, 0), (1, 0), (60, 0), (25, 0), (0, 0), (10, 0)]

theorem zigzag_containment_patrol :
    ∃ cluster, run (sweep arcade 100) (((new arcade).addRow arcade 1).setPosition arcade 50 10) patrol =
      some cluster ∧ -60 < cluster.leftEdge ∧
      ZigZag .right [.right, .down, .left, .down, .right, .right] := by
  have hrun : (run (sweep arcade 100) (((new arcade).addRow arcade 1).setPosition arcade 50 10)
      patrol).isSome = true := by
    decide +kernel
  have hlog : log (sweep arcade 100) (fun _ cluster => [cluster.nextDir])
      (((new arcade).addRow arcade 1).setPosition arcade 50 10) patrol =
      [.right, .down, .left, .down, .right, .right] := by
    decide +kernel
  obtain ⟨cluster, hcluster⟩ := Option.isSome_iff_exists.mp hrun
  obtain ⟨hleft, _, _, _, _, hzigzag⟩ := zigzag_containment arcade 100 60 10 (by norm_num)
    ((new arcade).addRow arcade 1) (by decide +kernel) rfl
    (((new arcade).addRow arcade 1).setPosition arcade 50 10) (by norm_num) (by decide +kernel)
    patrol (by decide +kernel) cluster hcluster
  exact ⟨cluster, hcluster, hleft, hlog ▸ hzigzag⟩

end MonsterCluster

end SpaceInvaders

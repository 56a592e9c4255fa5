import SpaceInvaders.Entity.MonsterCluster.Front
import SpaceInvaders.Entity.MonsterCluster.Grid
import SpaceInvaders.Entity.MonsterCluster.Remove

namespace SpaceInvaders.MonsterCluster

open Transition

variable {α : Type}

-- What is done to a cluster from outside, with the removals and single shots.
inductive Use (α : Type) where
  | change (other : Change α)
  | removeMonster (row col : Nat)
  | shoot (random : Nat)

-- The six uses, without the layers of the changes and of the calls.
@[elab_as_elim]
theorem Use.flat {motive : Use α → Prop}
    (addRow : ∀ numberOfMonsters, motive (.change (.call (.addRow numberOfMonsters))))
    (setPosition : ∀ xPos yPos, motive (.change (.call (.setPosition xPos yPos))))
    (move : ∀ velocity windowWidth random,
      motive (.change (.call (.move velocity windowWidth random))))
    (kill : ∀ row col, motive (.change (.kill row col)))
    (removeMonster : ∀ row col, motive (.removeMonster row col))
    (shoot : ∀ random, motive (.shoot random)) (other : Use α) : motive other := by
  cases other with
  | removeMonster row col => exact removeMonster row col
  | shoot random => exact shoot random
  | change other =>
      exact Change.flat (motive := fun other => motive (.change other)) addRow setPosition move kill other

def use [Coord α] (platform : Platform α) : Use α → MonsterCluster α → Option (MonsterCluster α)
  | .change other, cluster => change platform other cluster
  | .removeMonster row col, cluster => cluster.removeMonster row col
  | .shoot random, cluster => cluster.shoot platform random

-- The faults of a shot: back() without a row, a remainder by zero, and an index
-- outside the rows or outside a row.
inductive Misfire (rows : List (List (Monster α))) (random : Nat) : Prop
  | noRow : rows.getLast? = none → Misfire rows random
  | emptyRow (last : List (Monster α)) : rows.getLast? = some last → last.length = 0 →
      Misfire rows random
  | outOfRange (last : List (Monster α)) : rows.getLast? = some last →
      shooterAt rows (random % last.length) rows.length = none → Misfire rows random

-- The cluster shoots when it is told to, and in a move when the cooldown is over.
def Faults [Coord α] : Use α → MonsterCluster α → Prop
  | .change (.call (.move velocity _ random)), cluster =>
      cluster.cooldown = 50 ∧ Misfire (cluster.moveMonsters velocity).rows random
  | .shoot random, cluster => Misfire cluster.rows random
  | _, _ => False

-- Removals with indices that are not valid end a run.
def NeverFaults [Coord α] (platform : Platform α) (uses : List (Use α)) : Prop :=
  ∀ done other rest cluster, uses = done ++ other :: rest →
    run (use platform) (new platform) done = some cluster → ¬Faults other cluster

-- What shooting depends on.
structure Shape where
  lengths : List Nat
  cooldown : Int
  deriving DecidableEq, Repr

def shape (cluster : MonsterCluster α) : Shape := ⟨lengths cluster.rows, cluster.cooldown⟩

namespace Shape

-- No position, no state and no random value enters here.
def use : Use α → Shape → Option Shape
  | .change (.call (.addRow numberOfMonsters)), shape =>
      some { shape with lengths := shape.lengths ++ [numberOfMonsters.toNat] }
  | .change (.call (.setPosition _ _)), shape => some shape
  | .change (.call (.move _ _ _)), shape =>
      some { shape with cooldown :=
        if shape.cooldown < 50 then shape.cooldown + 1 else if shape.cooldown = 50 then 0 else shape.cooldown }
  | .change (.kill _ _), shape => some shape
  | .removeMonster row col, shape =>
      (shape.lengths[row]?).bind fun length =>
        if col < length then
          some (if length = 1 then { shape with lengths := shape.lengths.eraseIdx row } else shape)
        else
          none
  | .shoot _, shape => some shape

def Fires : Use α → Shape → Prop
  | .change (.call (.move _ _ _)), shape => shape.cooldown = 50
  | .shoot _, _ => True
  | _, _ => False

def Loaded (shape : Shape) : Prop := ∃ length ∈ shape.lengths.getLast?, 0 < length

end Shape

-- Whenever the cluster shoots, there is a monster in the row that was added last
-- and has not been removed.
def ShotsLoaded (uses : List (Use α)) : Prop :=
  ∀ done other rest shape, uses = done ++ other :: rest →
    run Shape.use ⟨[], 0⟩ done = some shape → Shape.Fires other shape → shape.Loaded

@[simp] theorem lengths_mapIdx (body : Nat → List (Monster α) → List (Monster α))
    (hbody : ∀ row found, (body row found).length = found.length) (rows : List (List (Monster α))) :
    lengths (rows.mapIdx body) = lengths rows := by
  apply List.ext_getElem
  · simp [lengths]
  · intro index _ _
    simp [lengths, hbody]

theorem lengths_modify (row : Nat) (body : List (Monster α) → List (Monster α))
    (hbody : ∀ found, (body found).length = found.length) (rows : List (List (Monster α))) :
    lengths (rows.modify row body) = lengths rows := by
  apply List.ext_getElem
  · simp [lengths]
  · intro index _ _
    simp only [lengths, List.getElem_map, List.getElem_modify]
    split_ifs
    · exact hbody _
    · rfl

-- The search never leaves the rows, so that only the last row matters.
theorem misfire_iff (cluster : MonsterCluster α) (random : Nat) :
    Misfire cluster.rows random ↔ ¬cluster.shape.Loaded := by
  simp only [Shape.Loaded, shape, lengths, List.getLast?_map, Option.mem_def, Option.map_eq_some_iff]
  constructor
  · rintro hmisfire ⟨_, ⟨last, hlast, rfl⟩, hpos⟩
    cases hmisfire with
    | noRow hnone =>
        rw [hlast] at hnone
        cases hnone
    | emptyRow found hfound hempty =>
        rw [hlast] at hfound
        cases hfound
        omega
    | outOfRange found hfound hrange =>
        rw [shooterAt_eq _ _ _ (Nat.le_refl _)] at hrange
        cases hrange
  · intro hempty
    cases hlast : cluster.rows.getLast? with
    | none => exact .noRow hlast
    | some last =>
        apply Misfire.emptyRow last hlast
        by_contra hne
        exact hempty ⟨last.length, ⟨last, hlast, rfl⟩, Nat.pos_of_ne_zero hne⟩

theorem removeMonster_shape (row col : Nat) (cluster : MonsterCluster α) :
    (cluster.removeMonster row col).map shape =
      Shape.use (.removeMonster row col : Use α) cluster.shape := by
  cases hrow : cluster.rows[row]? with
  | none => simp [removeMonster, Shape.use, shape, lengths, hrow]
  | some found =>
      by_cases hcol : col < found.length
      · rw [removeMonster_eq row col cluster found hrow hcol]
        simp only [Shape.use, shape, lengths, List.getElem?_map, hrow, Option.map_some, Option.bind_some,
          hcol, ite_true, List.eraseIdx_map]
        split_ifs <;> rfl
      · simp [removeMonster, Shape.use, shape, lengths, hrow, hcol]

section Steps

variable [Coord α]

theorem shoot_eq_none_iff (platform : Platform α) (random : Nat) (cluster : MonsterCluster α) :
    cluster.shoot platform random = none ↔ Misfire cluster.rows random := by
  rw [misfire_iff]
  simp only [Shape.Loaded, shape, lengths, List.getLast?_map, Option.mem_def, Option.map_eq_some_iff]
  cases hlast : cluster.rows.getLast? with
  | none => simp [shoot, hlast]
  | some last =>
      by_cases hempty : last.length = 0
      · simp [shoot, hlast, hempty]
      · have hpos : 0 < last.length := Nat.pos_of_ne_zero hempty
        have hshoot : cluster.shoot platform random ≠ none := by
          simp only [shoot, hlast, hempty, ite_false]
          split <;> simp
        simp [hshoot, hpos]

theorem lengths_moveMonsters (velocity : α) (cluster : MonsterCluster α) :
    lengths (cluster.moveMonsters velocity).rows = lengths cluster.rows := by
  rw [moveMonsters_remap, lengths_remap]

theorem faults_iff (other : Use α) (cluster : MonsterCluster α) :
    Faults other cluster ↔ Shape.Fires other cluster.shape ∧ ¬cluster.shape.Loaded := by
  cases other using Use.flat with
  | addRow numberOfMonsters => simp only [Faults, Shape.Fires, false_and]
  | setPosition xPos yPos => simp only [Faults, Shape.Fires, false_and]
  | kill row col => simp only [Faults, Shape.Fires, false_and]
  | removeMonster row col => simp only [Faults, Shape.Fires, false_and]
  | shoot random => simp only [Faults, Shape.Fires, misfire_iff, true_and]
  | move velocity windowWidth random =>
      simp only [Faults, Shape.Fires, misfire_iff, shape, lengths_moveMonsters]
      rfl

theorem lengths_setPosition (platform : Platform α) (xPos yPos : α) (cluster : MonsterCluster α) :
    lengths (cluster.setPosition platform xPos yPos).rows = lengths cluster.rows := by
  apply lengths_mapIdx
  intro row found
  exact List.length_mapIdx

theorem coolDown_shape (platform : Platform α) (random : Nat) (cluster : MonsterCluster α)
    (h : ¬(cluster.cooldown = 50 ∧ Misfire cluster.rows random)) :
    (cluster.coolDown platform random).map shape = some { cluster.shape with cooldown :=
      if cluster.cooldown < 50 then cluster.cooldown + 1
      else if cluster.cooldown = 50 then 0 else cluster.cooldown } := by
  by_cases hwait : cluster.cooldown < 50
  · simp [coolDown, shape, hwait]
  · by_cases hshoot : cluster.cooldown = 50
    · obtain ⟨next, hnext⟩ := Option.ne_none_iff_exists'.mp
        (mt (shoot_eq_none_iff platform random cluster).mp fun hmisfire => h ⟨hshoot, hmisfire⟩)
      obtain ⟨fired, _, rfl⟩ := shoot_eq_some platform random _ next hnext
      simp [coolDown, shape, hshoot, hnext]
    · simp [coolDown, shape, hwait, hshoot]

theorem move_shape (platform : Platform α) (velocity : α) (windowWidth random : Nat)
    (cluster : MonsterCluster α) (h : ¬(cluster.cooldown = 50 ∧
      Misfire (cluster.moveMonsters velocity).rows random)) :
    (cluster.move platform velocity windowWidth random).map shape =
      Shape.use (.change (.call (.move velocity windowWidth random))) cluster.shape := by
  have hturn : (fun next : MonsterCluster α => (next.updateBullets.turn velocity windowWidth).shape) =
      shape := by
    funext next
    cases hd : next.nextDir <;> simp [turn, updateBullets, shape, hd]
  have hcooled := coolDown_shape platform random (cluster.moveMonsters velocity) h
  rw [move, Option.map_map, Function.comp_def, hturn, hcooled, shape, lengths_moveMonsters]
  rfl

-- A use that does not fault changes the shape by the shape alone.
theorem use_shape (platform : Platform α) (other : Use α) (cluster : MonsterCluster α)
    (h : ¬Faults other cluster) :
    (use platform other cluster).map shape = Shape.use other cluster.shape := by
  cases other using Use.flat with
  | addRow numberOfMonsters =>
      simp only [use, change, operate, Option.map_some, shape, Shape.use, addRow, lengths_setPosition]
      simp [lengths, setPosition]
  | setPosition xPos yPos =>
      simp only [use, change, operate, Option.map_some, shape, Shape.use, lengths_setPosition]
      rfl
  | move velocity windowWidth random => exact move_shape platform velocity windowWidth random cluster h
  | kill row col =>
      simp only [use, change, Option.map_some, shape, Shape.use, killAt]
      rw [lengths_modify row _ (fun found => List.length_modify ..) cluster.rows]
  | removeMonster row col => exact removeMonster_shape row col cluster
  | shoot random =>
      obtain ⟨next, hnext⟩ := Option.ne_none_iff_exists'.mp
        (mt (shoot_eq_none_iff platform random cluster).mp h)
      obtain ⟨fired, _, rfl⟩ := shoot_eq_some platform random cluster next hnext
      simp only [use, hnext, Option.map_some]
      rfl

theorem not_faults_of_use (platform : Platform α) (other : Use α) (cluster next : MonsterCluster α)
    (h : use platform other cluster = some next) : ¬Faults other cluster := by
  cases other using Use.flat with
  | addRow numberOfMonsters => exact id
  | setPosition xPos yPos => exact id
  | kill row col => exact id
  | removeMonster row col => exact id
  | shoot random =>
      intro hfaults
      rw [use, (shoot_eq_none_iff platform random cluster).mpr hfaults] at h
      cases h
  | move velocity windowWidth random =>
      rintro ⟨hshoot, hmisfire⟩
      have hnone := (shoot_eq_none_iff platform random (cluster.moveMonsters velocity)).mpr hmisfire
      have hcooldown : (cluster.moveMonsters velocity).cooldown = 50 := hshoot
      simp [use, change, operate, move, coolDown, hcooldown, hnone] at h

-- Up to the first fault the shape of the cluster is the one that is computed.
theorem run_shape (platform : Platform α) (uses : List (Use α)) (h : NeverFaults platform uses) :
    (run (use platform) (new platform) uses).map shape = run Shape.use ⟨[], 0⟩ uses :=
  run_project_of_safe shape Faults (use_shape platform) uses (new platform) h

theorem shape_of_run (platform : Platform α) (uses : List (Use α)) (cluster : MonsterCluster α)
    (h : run (use platform) (new platform) uses = some cluster) :
    run Shape.use ⟨[], 0⟩ uses = some cluster.shape := by
  have hnever : NeverFaults platform uses := by
    rintro done other rest before rfl hbefore
    rw [run_append, hbefore, Option.bind_some, run_cons, Option.bind_eq_some_iff] at h
    obtain ⟨next, hnext, _⟩ := h
    exact not_faults_of_use platform other before next hnext
  rw [← run_shape platform uses hnever, h]
  rfl

end Steps

-- Enemy fire does not fault if and only if there is a monster in the last row
-- whenever the cluster shoots.
theorem neverFaults_iff [Coord α] (platform : Platform α) (uses : List (Use α)) :
    NeverFaults platform uses ↔ ShotsLoaded uses := by
  constructor
  · rintro hnever done other rest found rfl hrun hfires
    have hdone : NeverFaults platform done := by
      rintro before earlier tail cluster rfl
      exact hnever before earlier (tail ++ other :: rest) cluster (by simp)
    rw [← run_shape platform done hdone, Option.map_eq_some_iff] at hrun
    obtain ⟨cluster, hcluster, rfl⟩ := hrun
    have hsafe := hnever done other rest cluster rfl hcluster
    rw [faults_iff] at hsafe
    by_contra hempty
    exact hsafe ⟨hfires, hempty⟩
  · rintro hloaded done other rest cluster rfl hrun hfaults
    obtain ⟨hfires, hempty⟩ := (faults_iff other cluster).mp hfaults
    exact hempty (hloaded done other rest cluster.shape rfl (shape_of_run platform done cluster hrun) hfires)

-- A cluster without a row shoots in its 51st move.
theorem empty_cluster_faults :
    ¬NeverFaults arcade (List.replicate 51 (.change (.call (.move 6 1920 0)))) := by
  intro hnever
  have hrun : (run (use arcade) (new arcade)
      (List.replicate 50 (.change (.call (.move 6 1920 0))))).any (fun cluster =>
        cluster.cooldown = 50 ∧ cluster.rows = []) = true := by
    decide +kernel
  obtain ⟨cluster, hcluster, hstate⟩ := (Option.any_eq_true _ _).mp hrun
  obtain ⟨hcooldown, hrows⟩ := of_decide_eq_true hstate
  apply hnever _ _ [] cluster (List.replicate_succ' ..) hcluster
  refine ⟨hcooldown, .noRow ?_⟩
  simp [moveMonsters, hrows]

end SpaceInvaders.MonsterCluster

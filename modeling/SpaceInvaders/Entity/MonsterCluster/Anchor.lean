import SpaceInvaders.Entity.MonsterCluster.Rigid

namespace SpaceInvaders

namespace MonsterCluster

open Transition

-- A change with the sum of the moves since the rows were last laid out.
def driftStep (platform : Platform ℚ) :
    Change ℚ → MonsterCluster ℚ × Vector2 ℚ → Option (MonsterCluster ℚ × Vector2 ℚ)
  | .call (.addRow numberOfMonsters), (cluster, _) =>
      some (cluster.addRow platform numberOfMonsters, ⟨0, 0⟩)
  | .call (.setPosition xPos yPos), (cluster, _) =>
      some (cluster.setPosition platform xPos yPos, ⟨0, 0⟩)
  | .call (.move velocity windowWidth random), (cluster, drift) =>
      (cluster.move platform velocity windowWidth random).map fun next =>
        (next, ⟨drift.x + (displacement velocity cluster.nextDir).x,
          drift.y + (displacement velocity cluster.nextDir).y⟩)
  | .kill row col, (cluster, drift) => some (cluster.killAt row col, drift)

-- A new row of that many monsters leaves the others and comes directly below them, on their axis.
structure AddsBelow (platform : Platform ℚ) (size : Vector2 ℚ) (numberOfMonsters : Int)
    (cluster : MonsterCluster ℚ) : Prop where
  kept : ∃ row, row.length = numberOfMonsters.toNat ∧
    (cluster.addRow platform numberOfMonsters).rows = cluster.rows ++ [row]
  below : ∀ row ∈ (cluster.addRow platform numberOfMonsters).rows.getLast?, ∀ added ∈ row,
    ∀ (index : Nat) (found : List (Monster ℚ)), cluster.rows[index]? = some found →
      ∀ monster ∈ found, added.position.y =
        monster.position.y + 2 * size.y * (cluster.rows.length - index)
  centred : (∃ row ∈ cluster.rows, row ≠ []) →
    ∀ row ∈ (cluster.addRow platform numberOfMonsters).rows.getLast?,
    ∀ first ∈ row.head?, ∀ last ∈ row.getLast?,
      ((first.getMonsterBounds platform).left + ((last.getMonsterBounds platform).left +
        (last.getMonsterBounds platform).width)) / 2 = (cluster.leftEdge + cluster.rightEdge) / 2

-- The stored position is the one the monsters are at.
structure AnchoredAt (size : Vector2 ℚ) (cluster : MonsterCluster ℚ) : Prop where
  x : (∃ row ∈ cluster.rows, row ≠ []) →
    cluster.position.x = (cluster.leftEdge + cluster.rightEdge) / 2
  y : ∀ (index : Nat) (found : List (Monster ℚ)), cluster.rows[index]? = some found →
    ∀ monster ∈ found, monster.position.y = cluster.position.y + 2 * size.y * index

-- The monsters are at the stored position, moved by the drift.
def Drifted (size : Vector2 ℚ) (state : MonsterCluster ℚ × Vector2 ℚ) : Prop :=
  Laid size ⟨state.1.position.x + state.2.x, state.1.position.y + state.2.y⟩ state.1

variable {platform : Platform ℚ} {size : Vector2 ℚ}

theorem driftStep_drifted (hsize : platform.MonsterSize size) (other : Change ℚ)
    (before after : MonsterCluster ℚ × Vector2 ℚ) (hbefore : Drifted size before)
    (h : driftStep platform other before = some after) : Drifted size after := by
  obtain ⟨cluster, drift⟩ := before
  have hlaid : Laid size ⟨cluster.position.x + drift.x, cluster.position.y + drift.y⟩ cluster := hbefore
  cases other using Change.flat with
  | kill row col =>
      cases h
      exact killAt_laid _ row col cluster hlaid
  | addRow numberOfMonsters =>
      cases h
      have hnew := addRow_laid hsize numberOfMonsters cluster hlaid.gap hlaid.sizes
      simpa [Drifted, addRow, setPosition] using hnew
  | setPosition xPos yPos =>
      cases h
      have hnew := setPosition_laid hsize xPos yPos cluster hlaid.gap hlaid.sizes
      simpa [Drifted, setPosition] using hnew
  | move velocity windowWidth random =>
      obtain ⟨next, hmove, rfl⟩ := Option.map_eq_some_iff.mp h
      have hnew := move_laid _ velocity windowWidth random cluster next hlaid hmove
      have hposition : next.position = cluster.position := by
        obtain ⟨_, _, _, rfl⟩ := move_eq_some platform velocity windowWidth random cluster next hmove
        cases hd : cluster.nextDir <;> simp [turn, hd]
      simpa only [Drifted, hposition, add_assoc] using hnew

-- The drift only watches.
theorem driftStep_fst (platform : Platform ℚ) (other : Change ℚ)
    (state : MonsterCluster ℚ × Vector2 ℚ) :
    (driftStep platform other state).map Prod.fst = change platform other state.1 := by
  cases other using Change.flat with
  | kill row col => rfl
  | addRow numberOfMonsters => rfl
  | setPosition xPos yPos => rfl
  | move velocity windowWidth random =>
      simp [driftStep, change, operate, Option.map_map, Function.comp_def]

theorem run_drifted (hsize : platform.MonsterSize size) (changes : List (Change ℚ))
    (state : MonsterCluster ℚ × Vector2 ℚ)
    (hrun : run (driftStep platform) (new platform, ⟨0, 0⟩) changes = some state) :
    Drifted size state := by
  apply run_invariant (Drifted size) changes _ state ?_ ?_ hrun
  · intro before other after hvisit hbefore
    exact driftStep_drifted hsize other before after hbefore hvisit.step_eq
  · simpa [Drifted, new] using new_laid hsize

-- addRow lays the old rows out around the stored position.
theorem addRow_rows (hsize : platform.MonsterSize size) (numberOfMonsters : Int)
    (cluster : MonsterCluster ℚ) (hgap : cluster.gap = size) (hsizes : Sized size cluster.rows) :
    ∃ row, row.length = numberOfMonsters.toNat ∧
      (cluster.addRow platform numberOfMonsters).rows =
        remap (toSlot size cluster.position) cluster.rows ++ [row] := by
  have hrows := setPosition_remap hsize cluster.position.x cluster.position.y
    { cluster with
      totalCount := cluster.totalCount + numberOfMonsters.toNat
      rows := cluster.rows ++ [List.replicate numberOfMonsters.toNat (Monster.new platform)] }
    hgap (sized_append_new hsize numberOfMonsters.toNat cluster.rows hsizes)
  rw [remap, List.mapIdx_append, List.mapIdx_cons, List.mapIdx_nil] at hrows
  exact ⟨_, by simp, hrows⟩

-- The old rows stay exactly if they are around the stored position.
theorem addRow_kept_iff (hsize : platform.MonsterSize size) (numberOfMonsters : Int)
    (cluster : MonsterCluster ℚ) (hgap : cluster.gap = size) (hsizes : Sized size cluster.rows) :
    (∃ row, row.length = numberOfMonsters.toNat ∧
        (cluster.addRow platform numberOfMonsters).rows = cluster.rows ++ [row]) ↔
      ∀ (row col : Nat) (found : List (Monster ℚ)) (monster : Monster ℚ),
        cluster.rows[row]? = some found → found[col]? = some monster →
        monster.position = slot size cluster.position found.length row col := by
  obtain ⟨added, hlength, hrows⟩ := addRow_rows hsize numberOfMonsters cluster hgap hsizes
  constructor
  · rintro ⟨row, _, hkept⟩ index col found monster hfound hmonster
    have hsame : remap (toSlot size cluster.position) cluster.rows = cluster.rows := by
      rw [hrows] at hkept
      exact List.append_inj_left' hkept rfl
    rw [← hsame] at hfound
    obtain ⟨old, before, hold, hbefore, hlength, rfl⟩ :=
      cell_remap _ _ index col found monster hfound hmonster
    rw [hlength]
    rfl
  · intro hslots
    have hsame : remap (toSlot size cluster.position) cluster.rows = cluster.rows := by
      refine (remap_congr _ (fun _ _ _ => id) _ ?_).trans (remap_self _)
      intro row col found monster hfound hmonster
      rw [toSlot, ← hslots row col found monster hfound hmonster, id_eq]
    exact ⟨added, hlength, by rw [hrows, hsame]⟩

-- The disjunction below fails only for a cluster that has drifted and holds a monster.
theorem exists_drifted_cell (rows : List (List (Monster ℚ))) (drift : Vector2 ℚ)
    (h : ¬(drift = ⟨0, 0⟩ ∨ ∀ row ∈ rows, row = [])) :
    drift ≠ ⟨0, 0⟩ ∧ ∃ (row col : Nat) (found : List (Monster ℚ)) (monster : Monster ℚ),
      rows[row]? = some found ∧ found[col]? = some monster := by
  simp only [not_or, not_forall] at h
  obtain ⟨hdrift, found, hf, hne⟩ := h
  obtain ⟨row, hrow⟩ := List.mem_iff_getElem?.mp hf
  obtain ⟨monster, hm⟩ := List.exists_mem_of_ne_nil found hne
  obtain ⟨col, hcol⟩ := List.mem_iff_getElem?.mp hm
  exact ⟨hdrift, row, col, found, monster, hrow, hcol⟩

theorem drift_eq_zero (rows : List (List (Monster ℚ))) (drift : Vector2 ℚ)
    (h : drift = ⟨0, 0⟩ ∨ ∀ row ∈ rows, row = []) (hrow : ∃ row ∈ rows, row ≠ []) :
    drift = ⟨0, 0⟩ := by
  rcases h with hdrift | hempty
  · exact hdrift
  · obtain ⟨found, hf, hne⟩ := hrow
    exact absurd (hempty found hf) hne

section Drift

variable (hsize : platform.MonsterSize size) (cluster : MonsterCluster ℚ) (drift : Vector2 ℚ)
  (hdrifted : Drifted size (cluster, drift))

include hdrifted

theorem slot_drift (row col : Nat) (found : List (Monster ℚ)) (monster : Monster ℚ)
    (hfound : cluster.rows[row]? = some found) (hmonster : found[col]? = some monster) :
    monster.position = ⟨(slot size cluster.position found.length row col).x + drift.x,
      (slot size cluster.position found.length row col).y + drift.y⟩ := by
  rw [Laid.slots hdrifted row col found monster hfound hmonster]
  simp only [slot, Grid.left_add, Grid.top_add]

-- Without drift, or without monsters, all monsters are around the stored position.
theorem slots_iff :
    (∀ (row col : Nat) (found : List (Monster ℚ)) (monster : Monster ℚ),
      cluster.rows[row]? = some found → found[col]? = some monster →
      monster.position = slot size cluster.position found.length row col) ↔
    drift = ⟨0, 0⟩ ∨ ∀ row ∈ cluster.rows, row = [] := by
  constructor
  · intro hslots
    by_contra hnone
    obtain ⟨hdrift, row, col, found, monster, hrow, hcol⟩ := exists_drifted_cell _ drift hnone
    have hsame := hslots row col found monster hrow hcol
    rw [slot_drift cluster drift hdrifted row col found monster hrow hcol] at hsame
    have hx := congrArg Vector2.x hsame
    have hy := congrArg Vector2.y hsame
    simp only [add_eq_left] at hx hy
    exact hdrift (congrArg₂ Vector2.mk hx hy)
  · rintro (rfl | hempty) row col found monster hfound hmonster
    · simpa using slot_drift cluster ⟨0, 0⟩ hdrifted row col found monster hfound hmonster
    · rw [hempty found (List.mem_of_getElem? hfound)] at hmonster
      cases hmonster

include hsize

theorem addsBelow_iff (numberOfMonsters : Int) :
    AddsBelow platform size numberOfMonsters cluster ↔
      drift = ⟨0, 0⟩ ∨ ∀ row ∈ cluster.rows, row = [] := by
  have hkept := addRow_kept_iff hsize numberOfMonsters cluster hdrifted.gap hdrifted.sizes
  have hnew := addRow_laid hsize numberOfMonsters cluster hdrifted.gap hdrifted.sizes
  rw [slots_iff cluster drift hdrifted] at hkept
  refine ⟨fun h => hkept.mp h.kept, fun h => ⟨hkept.mpr h, ?_, ?_⟩⟩
  · intro row hlast added hadded index found hfound monster hmonster
    obtain ⟨last, _, hrows⟩ := hkept.mpr h
    rw [hrows, List.getLast?_concat, Option.mem_some_iff] at hlast
    obtain ⟨col, hcol⟩ := List.mem_iff_getElem?.mp hadded
    obtain ⟨place, hplace⟩ := List.mem_iff_getElem?.mp hmonster
    rw [hnew.slots cluster.rows.length col row added (by simp [hrows, hlast]) hcol,
      (slots_iff cluster drift hdrifted).mpr h index place found monster hfound hplace]
    simp only [slot, Grid.top]
    ring
  · intro hrow row hlast first hfirst final hfinal
    rw [hnew.row_center hsize row (List.mem_of_getLast? hlast) first hfirst final hfinal,
      Laid.center_eq hdrifted hrow, drift_eq_zero _ drift h hrow, add_zero]

omit hsize in
theorem anchoredAt_iff :
    AnchoredAt size cluster ↔ drift = ⟨0, 0⟩ ∨ ∀ row ∈ cluster.rows, row = [] := by
  constructor
  · intro hanchored
    by_contra hnone
    obtain ⟨hdrift, row, col, found, monster, hrow, hcol⟩ := exists_drifted_cell _ drift hnone
    have hfilled : ∃ row ∈ cluster.rows, row ≠ [] :=
      ⟨found, List.mem_of_getElem? hrow, List.ne_nil_of_mem (List.mem_of_getElem? hcol)⟩
    have hx := hanchored.x hfilled
    have hy := hanchored.y row found hrow monster (List.mem_of_getElem? hcol)
    rw [Laid.center_eq hdrifted hfilled] at hx
    rw [slot_drift cluster drift hdrifted row col found monster hrow hcol] at hy
    simp only [left_eq_add, slot, Grid.top, add_eq_left] at hx hy
    exact hdrift (congrArg₂ Vector2.mk hx hy)
  · intro h
    constructor
    · intro hrow
      rw [Laid.center_eq hdrifted hrow, drift_eq_zero _ drift h hrow, add_zero]
    · intro index found hfound monster hmonster
      obtain ⟨col, hcol⟩ := List.mem_iff_getElem?.mp hmonster
      rw [(slots_iff cluster drift hdrifted).mpr h index col found monster hfound hcol]
      rfl

end Drift

-- In every cluster that can be reached, a new row leaves the others and joins them
-- if and only if there is no monster yet or the moves since the last layout cancel out.
theorem addRow_iff (hsize : platform.MonsterSize size) (changes : List (Change ℚ))
    (cluster : MonsterCluster ℚ)
    (hrun : run (change platform) (new platform) changes = some cluster) :
    ∃ drift, run (driftStep platform) (new platform, ⟨0, 0⟩) changes = some (cluster, drift) ∧
      (∀ numberOfMonsters, AddsBelow platform size numberOfMonsters cluster ↔
        drift = ⟨0, 0⟩ ∨ ∀ row ∈ cluster.rows, row = []) ∧
      (AnchoredAt size cluster ↔ drift = ⟨0, 0⟩ ∨ ∀ row ∈ cluster.rows, row = []) := by
  have hproject := run_project Prod.fst (driftStep_fst platform) changes (new platform, ⟨0, 0⟩)
  rw [hrun, Option.map_eq_some_iff] at hproject
  obtain ⟨⟨_, drift⟩, hstate, rfl⟩ := hproject
  have hdrifted := run_drifted hsize changes _ hstate
  exact ⟨drift, hstate, addsBelow_iff hsize _ drift hdrifted, anchoredAt_iff _ drift hdrifted⟩

-- One row goes 60 to the right, and the next one takes it back.
def movedRow : List (Change ℚ) := [.call (.addRow 2), .call (.move 60 1000 0)]

theorem addRow_displaces :
    ¬∀ cluster, run (change arcade) (new arcade) movedRow = some cluster →
      AddsBelow arcade ⟨50, 50⟩ 2 cluster := by
  intro h
  have hrun : (run (change arcade) (new arcade) movedRow).any (fun cluster =>
      (cluster.addRow arcade 2).rows.head? ≠ cluster.rows.head? ∧ cluster.rows ≠ []) = true := by
    decide +kernel
  obtain ⟨cluster, hcluster, hdiffers⟩ := (Option.any_eq_true _ _).mp hrun
  obtain ⟨hhead, hne⟩ := of_decide_eq_true hdiffers
  obtain ⟨row, _, hkept⟩ := (h cluster hcluster).kept
  rw [hkept, List.head?_append_of_ne_nil _ hne] at hhead
  exact hhead rfl

theorem addRow_iff_movedRow :
    ∃ cluster drift, run (driftStep arcade) (new arcade, ⟨0, 0⟩) movedRow = some (cluster, drift) ∧
      (∀ numberOfMonsters, AddsBelow arcade ⟨50, 50⟩ numberOfMonsters cluster ↔
        drift = ⟨0, 0⟩ ∨ ∀ row ∈ cluster.rows, row = []) ∧
      (AnchoredAt ⟨50, 50⟩ cluster ↔ drift = ⟨0, 0⟩ ∨ ∀ row ∈ cluster.rows, row = []) := by
  have hrun : (run (change arcade) (new arcade) movedRow).isSome = true := by
    decide +kernel
  obtain ⟨cluster, hcluster⟩ := Option.isSome_iff_exists.mp hrun
  obtain ⟨drift, hstate, hiff⟩ := addRow_iff (fun _ => rfl) movedRow cluster hcluster
  exact ⟨cluster, drift, hstate, hiff⟩

end MonsterCluster

end SpaceInvaders

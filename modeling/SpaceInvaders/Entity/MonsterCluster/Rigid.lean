import Mathlib.Data.List.MinMax
import Mathlib.Order.Bounds.Basic
import SpaceInvaders.Entity.MonsterCluster.Grid

namespace SpaceInvaders

namespace MonsterCluster

open Transition

variable {platform : Platform ℚ} {size : Vector2 ℚ}

-- The rows of monsters, dead or alive, are a rigid grid and fill the edges.
structure Rigid (platform : Platform ℚ) (size : Vector2 ℚ) (cluster : MonsterCluster ℚ) : Prop where
  leftEdge : IsLeast {side | ∃ row ∈ cluster.rows, ∃ monster ∈ row,
    side = (monster.getMonsterBounds platform).left} cluster.leftEdge
  rightEdge : IsGreatest {side | ∃ row ∈ cluster.rows, ∃ monster ∈ row,
    side = (monster.getMonsterBounds platform).left + (monster.getMonsterBounds platform).width}
    cluster.rightEdge
  centred : ∀ row ∈ cluster.rows, ∀ first ∈ row.head?, ∀ last ∈ row.getLast?,
    ((first.getMonsterBounds platform).left + ((last.getMonsterBounds platform).left +
      (last.getMonsterBounds platform).width)) / 2 = (cluster.leftEdge + cluster.rightEdge) / 2
  columns : ∀ row ∈ cluster.rows, ∀ (col : Nat) (first monster : Monster ℚ), row[0]? = some first →
    row[col]? = some monster → monster.position.x = first.position.x + 2 * size.x * col
  rows : ∃ top, ∀ (row col : Nat) (found : List (Monster ℚ)) (monster : Monster ℚ),
    cluster.rows[row]? = some found → found[col]? = some monster →
    monster.position.y = top + 2 * size.y * row
  apart : ∀ (row col row' col' : Nat) (found found' : List (Monster ℚ)) (monster monster' : Monster ℚ),
    cluster.rows[row]? = some found → found[col]? = some monster →
    cluster.rows[row']? = some found' → found'[col']? = some monster' →
    (row, col) ≠ (row', col') →
    (monster.getMonsterBounds platform).overlaps (monster'.getMonsterBounds platform) = false

theorem exists_longest (rows : List (List (Monster ℚ))) (h : ∃ row ∈ rows, row ≠ []) :
    ∃ longest ∈ rows, longest ≠ [] ∧ ∀ row ∈ rows, row.length ≤ longest.length := by
  obtain ⟨row, hr, hne⟩ := h
  obtain ⟨longest, hl⟩ := Option.ne_none_iff_exists'.mp
    (mt List.argmax_eq_none.mp (List.ne_nil_of_mem hr) : rows.argmax List.length ≠ none)
  have hmax (other : List (Monster ℚ)) (ho : other ∈ rows) := List.le_of_mem_argmax ho hl
  refine ⟨longest, List.argmax_mem hl, ?_, hmax⟩
  have := hmax row hr
  have := List.length_pos_iff.mpr hne
  exact List.length_pos_iff.mp (by omega)

theorem slot_apart (hx : 0 < size.x) (hy : 0 < size.y) (center : Vector2 ℚ)
    (length length' row col row' col' : Nat) (hrow : row = row' → length = length')
    (h : (row, col) ≠ (row', col')) :
    (FloatRect.ofSize size (slot size center length row col)).overlaps
      (FloatRect.ofSize size (slot size center length' row' col')) = false := by
  rw [Bool.eq_false_iff, ne_eq, overlaps_iff]
  rintro ⟨hleft, htop⟩
  by_cases hr : row = row'
  · have hc : col ≠ col' := fun hc => h (by rw [hr, hc])
    rw [← hrow hr] at hleft
    exact Grid.apart hx hc hleft
  · exact Grid.apart hy hr htop

section Rigid

variable {center : Vector2 ℚ} {cluster : MonsterCluster ℚ} (hsize : platform.MonsterSize size)
  (hlaid : Laid size center cluster)

include hlaid

theorem Laid.longest (hrow : ∃ row ∈ cluster.rows, row ≠ []) : ∃ longest ∈ cluster.rows,
    0 < longest.length ∧ (∀ row ∈ cluster.rows, row.length ≤ longest.length) ∧
    cluster.leftEdge = center.x - Grid.extent size.x longest.length / 2 ∧
    cluster.rightEdge = center.x + Grid.extent size.x longest.length / 2 := by
  obtain ⟨longest, hl, hne, hmax⟩ := exists_longest cluster.rows hrow
  have hpos := List.length_pos_iff.mpr hne
  have hedges := hlaid.edges longest.length (List.mem_map_of_mem hl) hpos (by simpa [lengths] using hmax)
  exact ⟨longest, hl, hpos, hmax, hedges⟩

theorem Laid.center_eq (hrow : ∃ row ∈ cluster.rows, row ≠ []) :
    (cluster.leftEdge + cluster.rightEdge) / 2 = center.x := by
  obtain ⟨_, _, _, _, hleft, hright⟩ := hlaid.longest hrow
  rw [hleft, hright]
  ring

include hsize

theorem Laid.bounds (row col : Nat) (found : List (Monster ℚ)) (monster : Monster ℚ)
    (hf : cluster.rows[row]? = some found) (hm : found[col]? = some monster) :
    monster.getMonsterBounds platform =
      FloatRect.ofSize size (slot size center found.length row col) := by
  rw [Monster.getMonsterBounds, hlaid.slots row col found monster hf hm, hsize]

theorem Laid.left (row : List (Monster ℚ)) (col : Nat) (monster : Monster ℚ)
    (hr : row ∈ cluster.rows) (hm : row[col]? = some monster) :
    (monster.getMonsterBounds platform).left = Grid.left center.x size.x row.length col ∧
      (monster.getMonsterBounds platform).width = size.x := by
  obtain ⟨index, hindex⟩ := List.mem_iff_getElem?.mp hr
  rw [hlaid.bounds hsize index col row monster hindex hm]
  exact ⟨rfl, rfl⟩

-- The first monster of a longest row has the smallest left side.
theorem Laid.isLeast (hx : 0 < size.x) (hrow : ∃ row ∈ cluster.rows, row ≠ []) :
    IsLeast {side | ∃ row ∈ cluster.rows, ∃ monster ∈ row,
      side = (monster.getMonsterBounds platform).left} cluster.leftEdge := by
  obtain ⟨longest, hl, hpos, hmax, hleft, _⟩ := hlaid.longest hrow
  constructor
  · refine ⟨longest, hl, longest[0], List.getElem_mem hpos, ?_⟩
    rw [(hlaid.left hsize longest 0 longest[0] hl (List.getElem?_eq_getElem hpos)).1, Grid.left_zero,
      hleft]
  · rintro side ⟨row, hr, monster, hm, rfl⟩
    obtain ⟨col, hcol⟩ := List.mem_iff_getElem?.mp hm
    rw [(hlaid.left hsize row col monster hr hcol).1, hleft]
    exact Grid.extent_le_left center.x size.x row.length col longest.length (le_of_lt hx) (hmax row hr)

-- The last monster of a longest row has the largest right side.
theorem Laid.isGreatest (hx : 0 < size.x) (hrow : ∃ row ∈ cluster.rows, row ≠ []) :
    IsGreatest {side | ∃ row ∈ cluster.rows, ∃ monster ∈ row,
      side = (monster.getMonsterBounds platform).left + (monster.getMonsterBounds platform).width}
      cluster.rightEdge := by
  obtain ⟨longest, hl, hpos, hmax, _, hright⟩ := hlaid.longest hrow
  constructor
  · have hlast : longest.length - 1 < longest.length := by omega
    obtain ⟨hside, hwidth⟩ := hlaid.left hsize longest _ _ hl (List.getElem?_eq_getElem hlast)
    refine ⟨longest, hl, longest[longest.length - 1], List.getElem_mem hlast, ?_⟩
    rw [hside, hwidth, Grid.left_last center.x size.x longest.length hpos, hright]
  · rintro side ⟨row, hr, monster, hm, rfl⟩
    obtain ⟨col, hcol⟩ := List.mem_iff_getElem?.mp hm
    obtain ⟨hside, hwidth⟩ := hlaid.left hsize row col monster hr hcol
    rw [hside, hwidth, hright]
    exact Grid.left_le_extent center.x size.x row.length col longest.length (le_of_lt hx)
      (List.getElem?_eq_some_iff.mp hcol).1 (hmax row hr)

-- Every row is centred on the axis of the formation.
theorem Laid.row_center (row : List (Monster ℚ)) (hr : row ∈ cluster.rows) (first : Monster ℚ)
    (hfirst : first ∈ row.head?) (last : Monster ℚ) (hlast : last ∈ row.getLast?) :
    ((first.getMonsterBounds platform).left + ((last.getMonsterBounds platform).left +
      (last.getMonsterBounds platform).width)) / 2 = center.x := by
  rw [Option.mem_def, List.head?_eq_getElem?] at hfirst
  rw [Option.mem_def, List.getLast?_eq_getElem?] at hlast
  have hpos : 0 < row.length := (List.getElem?_eq_some_iff.mp hfirst).1
  obtain ⟨hside, hwidth⟩ := hlaid.left hsize row _ last hr hlast
  rw [(hlaid.left hsize row 0 first hr hfirst).1, hside, hwidth,
    Grid.left_last center.x size.x row.length hpos, Grid.left_zero]
  ring

theorem Laid.apart (hx : 0 < size.x) (hy : 0 < size.y) (row col row' col' : Nat)
    (found found' : List (Monster ℚ)) (monster monster' : Monster ℚ)
    (hf : cluster.rows[row]? = some found) (hm : found[col]? = some monster)
    (hf' : cluster.rows[row']? = some found') (hm' : found'[col']? = some monster')
    (h : (row, col) ≠ (row', col')) :
    (monster.getMonsterBounds platform).overlaps (monster'.getMonsterBounds platform) = false := by
  rw [hlaid.bounds hsize row col found monster hf hm, hlaid.bounds hsize row' col' found' monster' hf' hm']
  refine slot_apart hx hy center found.length found'.length row col row' col' ?_ h
  rintro rfl
  rw [Option.some.inj (hf.symm.trans hf')]

theorem Laid.rigid (hx : 0 < size.x) (hy : 0 < size.y) (hrow : ∃ row ∈ cluster.rows, row ≠ []) :
    Rigid platform size cluster where
  leftEdge := hlaid.isLeast hsize hx hrow
  rightEdge := hlaid.isGreatest hsize hx hrow
  centred := by
    rw [hlaid.center_eq hrow]
    exact hlaid.row_center hsize
  columns := by
    intro row hr col first monster hfirst hmonster
    obtain ⟨index, hindex⟩ := List.mem_iff_getElem?.mp hr
    rw [hlaid.slots index 0 row first hindex hfirst, hlaid.slots index col row monster hindex hmonster]
    simp [slot, Grid.left]
  rows := ⟨center.y, fun row col found monster hf hm => by
    rw [hlaid.slots row col found monster hf hm]
    rfl⟩
  apart := hlaid.apart hsize hx hy

end Rigid

-- Whatever is called with whatever arguments, and whichever monsters die meanwhile,
-- the formation stays a rigid grid and the edges are its extent.
theorem formation_rigid (hsize : platform.MonsterSize size) (hx : 0 < size.x) (hy : 0 < size.y)
    (changes : List (Change ℚ)) (cluster : MonsterCluster ℚ)
    (hrun : run (change platform) (new platform) changes = some cluster)
    (hrow : ∃ row ∈ cluster.rows, row ≠ []) : Rigid platform size cluster := by
  obtain ⟨center, hlaid⟩ := run_laid hsize changes cluster hrun
  exact hlaid.rigid hsize hx hy hrow

-- Rows of three, none and five, with a kill between the moves.
def ragged : List (Change ℚ) :=
  [.call (.addRow 3), .call (.setPosition 400 20), .call (.move 6 1000 0), .call (.addRow 0),
    .kill 0 1, .call (.addRow 5), .call (.move 300 600 0), .call (.move 10 600 0)]

theorem formation_rigid_ragged :
    ∃ cluster, run (change arcade) (new arcade) ragged = some cluster ∧
      Rigid arcade ⟨50, 50⟩ cluster := by
  have hrun : (run (change arcade) (new arcade) ragged).any (fun cluster =>
      cluster.rows.any fun row => !row.isEmpty) = true := by
    decide +kernel
  obtain ⟨cluster, hcluster, hrow⟩ := (Option.any_eq_true _ _).mp hrun
  refine ⟨cluster, hcluster, formation_rigid (fun _ => rfl) (by norm_num) (by norm_num) ragged cluster
    hcluster ?_⟩
  simpa [List.any_eq_true] using hrow

end MonsterCluster

end SpaceInvaders

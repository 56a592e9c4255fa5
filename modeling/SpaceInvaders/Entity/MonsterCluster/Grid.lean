import SpaceInvaders.Library.Grid
import SpaceInvaders.Entity.MonsterCluster.Descent

namespace SpaceInvaders

-- A monster's global bounds are its position and a fixed size.
def Platform.MonsterSize (platform : Platform ℚ) (size : Vector2 ℚ) : Prop :=
  ∀ position, platform.monsterBounds position = FloatRect.ofSize size position

namespace MonsterCluster

open Transition

variable {α : Type}

-- An operation, or the death of a monster between two operations.
inductive Change (α : Type) where
  | call (operation : Operation α)
  | kill (row col : Nat)

def change [Coord α] (platform : Platform α) : Change α → MonsterCluster α → Option (MonsterCluster α)
  | .call operation, cluster => operate platform operation cluster
  | .kill row col, cluster => some (cluster.killAt row col)

-- The four changes, without the layer of the calls.
@[elab_as_elim]
theorem Change.flat {motive : Change α → Prop}
    (addRow : ∀ numberOfMonsters, motive (.call (.addRow numberOfMonsters)))
    (setPosition : ∀ xPos yPos, motive (.call (.setPosition xPos yPos)))
    (move : ∀ velocity windowWidth random, motive (.call (.move velocity windowWidth random)))
    (kill : ∀ row col, motive (.kill row col)) (other : Change α) : motive other := by
  cases other with
  | kill row col => exact kill row col
  | call operation =>
      cases operation with
      | addRow numberOfMonsters => exact addRow numberOfMonsters
      | setPosition xPos yPos => exact setPosition xPos yPos
      | move velocity windowWidth random => exact move velocity windowWidth random

-- The place of a cell when the rows are centred on `center.x` and begin at `center.y`.
def slot (size center : Vector2 ℚ) (length row col : Nat) : Vector2 ℚ :=
  ⟨Grid.left center.x size.x length col, Grid.top center.y size.y row⟩

def toSlot (size center : Vector2 ℚ) (row length col : Nat) (monster : Monster ℚ) : Monster ℚ :=
  { monster with position := slot size center length row col }

def lengths (rows : List (List (Monster α))) : List Nat := rows.map List.length

-- All monsters changed in place, with their row, its length and their column.
def remap (body : Nat → Nat → Nat → Monster α → Monster α) (rows : List (List (Monster α))) :
    List (List (Monster α)) :=
  rows.mapIdx fun row found => found.mapIdx (body row found.length)

def Sized (size : Vector2 ℚ) (rows : List (List (Monster ℚ))) : Prop :=
  ∀ row ∈ rows, ∀ monster ∈ row, monster.spriteSize = size

-- The monsters stand in the slots around `center`, and the edges are those of
-- the longest row once there is a monster.
structure Laid (size center : Vector2 ℚ) (cluster : MonsterCluster ℚ) : Prop where
  gap : cluster.gap = size
  sizes : Sized size cluster.rows
  slots : ∀ (row col : Nat) (found : List (Monster ℚ)) (monster : Monster ℚ),
    cluster.rows[row]? = some found → found[col]? = some monster →
    monster.position = slot size center found.length row col
  edges : ∀ longest ∈ lengths cluster.rows, 0 < longest →
    (∀ length ∈ lengths cluster.rows, length ≤ longest) →
    cluster.leftEdge = center.x - Grid.extent size.x longest / 2 ∧
    cluster.rightEdge = center.x + Grid.extent size.x longest / 2

theorem cell_remap (body : Nat → Nat → Nat → Monster α → Monster α) (rows : List (List (Monster α)))
    (row col : Nat) (found : List (Monster α)) (monster : Monster α)
    (hfound : (remap body rows)[row]? = some found) (hmonster : found[col]? = some monster) :
    ∃ old before, rows[row]? = some old ∧ old[col]? = some before ∧ found.length = old.length ∧
      monster = body row old.length col before := by
  simp only [remap, List.getElem?_mapIdx, Option.map_eq_some_iff] at hfound
  obtain ⟨old, hold, rfl⟩ := hfound
  simp only [List.getElem?_mapIdx, Option.map_eq_some_iff] at hmonster
  obtain ⟨before, hbefore, rfl⟩ := hmonster
  exact ⟨old, before, hold, hbefore, List.length_mapIdx, rfl⟩

theorem remap_congr (body other : Nat → Nat → Nat → Monster α → Monster α)
    (rows : List (List (Monster α)))
    (h : ∀ (row col : Nat) (found : List (Monster α)) (monster : Monster α),
      rows[row]? = some found → found[col]? = some monster →
      body row found.length col monster = other row found.length col monster) :
    remap body rows = remap other rows := by
  apply List.ext_getElem?
  intro row
  simp only [remap, List.getElem?_mapIdx]
  cases hfound : rows[row]? with
  | none => rfl
  | some found =>
      refine congrArg some (List.ext_getElem? fun col => ?_)
      simp only [List.getElem?_mapIdx]
      cases hmonster : found[col]? with
      | none => rfl
      | some monster => exact congrArg some (h row col found monster hfound hmonster)

theorem mapIdx_const {β γ : Type} (body : β → γ) (items : List β) :
    items.mapIdx (fun _ => body) = items.map body := by
  apply List.ext_getElem?
  simp

theorem remap_self (rows : List (List (Monster α))) : remap (fun _ _ _ => id) rows = rows := by
  simp only [remap, mapIdx_const, List.map_id, List.map_id']

@[simp] theorem lengths_remap (body : Nat → Nat → Nat → Monster α → Monster α)
    (rows : List (List (Monster α))) : lengths (remap body rows) = lengths rows := by
  apply List.ext_getElem
  · simp [lengths, remap]
  · intro index _ _
    simp [lengths, remap]

theorem sized_remap (size : Vector2 ℚ) (body : Nat → Nat → Nat → Monster ℚ → Monster ℚ)
    (hbody : ∀ row length col monster, (body row length col monster).spriteSize = monster.spriteSize)
    (rows : List (List (Monster ℚ))) (h : Sized size rows) : Sized size (remap body rows) := by
  intro found hf monster hm
  obtain ⟨row, hrow⟩ := List.mem_iff_getElem?.mp hf
  obtain ⟨col, hcol⟩ := List.mem_iff_getElem?.mp hm
  obtain ⟨old, before, hold, hbefore, _, rfl⟩ := cell_remap body rows row col found monster hrow hcol
  rw [hbody]
  exact h old (List.mem_of_getElem? hold) before (List.mem_of_getElem? hbefore)

theorem moveMonsters_remap [Coord α] (velocity : α) (cluster : MonsterCluster α) :
    (cluster.moveMonsters velocity).rows =
      remap (fun _ _ _ => Monster.move (displacement velocity cluster.nextDir)) cluster.rows := by
  simp only [moveMonsters, remap, mapIdx_const]

theorem killAt_remap (row col : Nat) (cluster : MonsterCluster α) :
    (cluster.killAt row col).rows =
      remap (fun index _ place monster => if row = index ∧ col = place then monster.kill else monster)
        cluster.rows := by
  apply List.ext_getElem?
  intro index
  simp only [killAt, remap, List.getElem?_modify, List.getElem?_mapIdx, Option.map_eq_map]
  congr 1
  funext found
  apply List.ext_getElem?
  intro place
  by_cases hr : row = index
  · simp [hr, List.getElem?_modify]
  · simp [hr]

variable {platform : Platform ℚ} {size : Vector2 ℚ}

theorem new_spriteSize (hsize : platform.MonsterSize size) : (Monster.new platform).spriteSize = size := by
  simp only [Monster.new, hsize ⟨0, 0⟩, FloatRect.ofSize]

theorem rowLength_eq (hsize : platform.MonsterSize size) (length : Nat) :
    rowLength platform size length = Grid.extent size.x length := by
  simp only [rowLength, Monster.getWidth, new_spriteSize hsize, Grid.extent]
  push_cast
  ring

theorem new_laid (hsize : platform.MonsterSize size) : Laid size ⟨0, 0⟩ (new platform) where
  gap := by
    simp only [new, Monster.getWidth, Monster.getHeight, new_spriteSize hsize]
  sizes := by simp [new, Sized]
  slots := by simp [new]
  edges := by simp [new, lengths]

-- setPosition takes every monster to its slot.
theorem setPosition_remap (hsize : platform.MonsterSize size) (xPos yPos : ℚ)
    (cluster : MonsterCluster ℚ) (hgap : cluster.gap = size) (hsizes : Sized size cluster.rows) :
    (cluster.setPosition platform xPos yPos).rows =
      remap (toSlot size ⟨xPos, yPos⟩) cluster.rows := by
  apply remap_congr (fun row length col monster => monster.setPosition
    (xPos + (monster.getWidth + cluster.gap.x) * ((col : Int) : ℚ) -
      rowLength platform cluster.gap length / ((2 : Int) : ℚ))
    (yPos + (monster.getHeight + cluster.gap.y) * ((row : Int) : ℚ)))
  intro row col found monster hfound hmonster
  have hs := hsizes found (List.mem_of_getElem? hfound) monster (List.mem_of_getElem? hmonster)
  simp only [Monster.setPosition, Monster.getWidth, Monster.getHeight, hs, hgap, rowLength_eq hsize,
    toSlot, slot, Grid.left, Grid.top, Monster.mk.injEq, Vector2.mk.injEq, and_true]
  push_cast
  constructor <;> ring

theorem setPosition_laid (hsize : platform.MonsterSize size) (xPos yPos : ℚ)
    (cluster : MonsterCluster ℚ) (hgap : cluster.gap = size) (hsizes : Sized size cluster.rows) :
    Laid size ⟨xPos, yPos⟩ (cluster.setPosition platform xPos yPos) := by
  have hrows := setPosition_remap hsize xPos yPos cluster hgap hsizes
  refine ⟨hgap, ?_, ?_, ?_⟩ <;> rw [hrows]
  · exact sized_remap size (toSlot size ⟨xPos, yPos⟩) (fun _ _ _ _ => rfl) cluster.rows hsizes
  · intro row col found monster hfound hmonster
    obtain ⟨old, before, hold, hbefore, hlength, rfl⟩ := cell_remap _ _ row col found monster hfound hmonster
    rw [hlength]
    rfl
  · rw [lengths_remap]
    intro longest hlongest hpos hmax
    rcases edges_cases platform cluster.gap xPos 0 (cluster.leftEdge, cluster.rightEdge)
        cluster.rows with ⟨_, hshort⟩ | ⟨row, hr, _, hle, he⟩
    · obtain ⟨row, hr, rfl⟩ := List.mem_map.mp hlongest
      have := hshort row hr
      omega
    · have hrow : row.length = longest := by
        obtain ⟨other, ho, rfl⟩ := List.mem_map.mp hlongest
        exact Nat.le_antisymm (hmax _ (List.mem_map_of_mem hr)) (hle other ho)
      rw [hgap, rowLength_eq hsize, hrow] at he
      simp [setPosition, hgap, he]

theorem sized_append_new (hsize : platform.MonsterSize size) (count : Nat)
    (rows : List (List (Monster ℚ))) (h : Sized size rows) :
    Sized size (rows ++ [List.replicate count (Monster.new platform)]) := by
  intro row hr monster hm
  rcases List.mem_append.mp hr with hr | hr
  · exact h row hr monster hm
  · rw [List.mem_singleton.mp hr] at hm
    rw [List.eq_of_mem_replicate hm, new_spriteSize hsize]

theorem addRow_laid (hsize : platform.MonsterSize size) (numberOfMonsters : Int)
    (cluster : MonsterCluster ℚ) (hgap : cluster.gap = size) (hsizes : Sized size cluster.rows) :
    Laid size cluster.position (cluster.addRow platform numberOfMonsters) :=
  setPosition_laid hsize cluster.position.x cluster.position.y _ hgap
    (sized_append_new hsize numberOfMonsters.toNat cluster.rows hsizes)

-- The edges go with the monsters, in each of the three directions.
theorem turn_edges (velocity : ℚ) (windowWidth : Nat) (cluster : MonsterCluster ℚ) :
    (cluster.turn velocity windowWidth).leftEdge =
      cluster.leftEdge + (displacement velocity cluster.nextDir).x ∧
    (cluster.turn velocity windowWidth).rightEdge =
      cluster.rightEdge + (displacement velocity cluster.nextDir).x := by
  cases hd : cluster.nextDir with
  | right => simp [turn, hd, displacement]
  | left => simp [turn, hd, displacement, sub_eq_add_neg]
  | down => simp [turn, hd, displacement]

theorem move_laid (center : Vector2 ℚ) (velocity : ℚ) (windowWidth random : Nat)
    (cluster next : MonsterCluster ℚ) (hlaid : Laid size center cluster)
    (h : cluster.move platform velocity windowWidth random = some next) :
    Laid size ⟨center.x + (displacement velocity cluster.nextDir).x,
      center.y + (displacement velocity cluster.nextDir).y⟩ next := by
  obtain ⟨fired, cooldown, _, rfl⟩ := move_eq_some platform velocity windowWidth random cluster next h
  refine ⟨?_, ?_, ?_, ?_⟩ <;> dsimp only <;> try rw [moveMonsters_remap]
  · have hgap : (cluster.turn velocity windowWidth).gap = cluster.gap := by
      cases hd : cluster.nextDir <;> simp [turn, hd]
    exact hgap.trans hlaid.gap
  · exact sized_remap size _ (by simp [Monster.move]) _ hlaid.sizes
  · intro row col found monster hfound hmonster
    obtain ⟨old, before, hold, hbefore, hlength, rfl⟩ := cell_remap _ _ row col found monster hfound hmonster
    simp only [Monster.move, hlaid.slots row col old before hold hbefore, slot, Grid.left_add,
      Grid.top_add, hlength]
  · rw [lengths_remap]
    intro longest hlongest hpos hmax
    obtain ⟨hleft, hright⟩ := hlaid.edges longest hlongest hpos hmax
    obtain ⟨hl, hr⟩ := turn_edges velocity windowWidth cluster
    constructor <;> linarith

-- A kill changes neither the position nor the size of a monster.
theorem killAt_laid (center : Vector2 ℚ) (row col : Nat) (cluster : MonsterCluster ℚ)
    (hlaid : Laid size center cluster) : Laid size center (cluster.killAt row col) := by
  refine ⟨hlaid.gap, ?_, ?_, ?_⟩ <;> rw [killAt_remap]
  · refine sized_remap size _ ?_ _ hlaid.sizes
    intro _ _ _ monster
    split_ifs <;> rfl
  · intro index place found monster hfound hmonster
    obtain ⟨old, before, hold, hbefore, hlength, rfl⟩ :=
      cell_remap _ _ index place found monster hfound hmonster
    rw [hlength, ← hlaid.slots index place old before hold hbefore]
    split_ifs <;> rfl
  · rw [lengths_remap]
    exact hlaid.edges

theorem operate_laid (hsize : platform.MonsterSize size) (operation : Operation ℚ)
    (center : Vector2 ℚ) (cluster next : MonsterCluster ℚ) (hlaid : Laid size center cluster)
    (h : operate platform operation cluster = some next) : ∃ center, Laid size center next := by
  cases operation with
  | addRow numberOfMonsters =>
      cases h
      exact ⟨_, addRow_laid hsize numberOfMonsters cluster hlaid.gap hlaid.sizes⟩
  | setPosition xPos yPos =>
      cases h
      exact ⟨_, setPosition_laid hsize xPos yPos cluster hlaid.gap hlaid.sizes⟩
  | move velocity windowWidth random =>
      exact ⟨_, move_laid center velocity windowWidth random cluster next hlaid h⟩

theorem run_laid (hsize : platform.MonsterSize size) (changes : List (Change ℚ))
    (cluster : MonsterCluster ℚ)
    (hrun : run (change platform) (new platform) changes = some cluster) :
    ∃ center, Laid size center cluster := by
  apply run_invariant (fun cluster => ∃ center, Laid size center cluster) changes (new platform)
    cluster ?_ ⟨_, new_laid hsize⟩ hrun
  rintro before other after hvisit ⟨center, hlaid⟩
  cases other with
  | call operation => exact operate_laid hsize operation center before after hlaid hvisit.step_eq
  | kill row col =>
      cases hvisit.step_eq
      exact ⟨center, killAt_laid center row col before hlaid⟩

end MonsterCluster

end SpaceInvaders

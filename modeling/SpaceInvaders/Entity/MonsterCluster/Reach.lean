import SpaceInvaders.Entity.MonsterCluster.Front

namespace SpaceInvaders.MonsterCluster

variable {α : Type}

-- The search of shoot, answering with the place of the monster.
def shooterPlace (rows : List (List (Monster α))) (randomPosition : Nat) : Nat → Option (Nat × Nat)
  | 0 => none
  | index + 1 =>
      match (rows[index]?).bind fun row => row[randomPosition]? with
      | some monster =>
          if monster.state = .alive then some (index, randomPosition)
          else shooterPlace rows randomPosition index
      | none => shooterPlace rows randomPosition index

-- With this random value the monster at (row, column) is the one that shoots.
def FiresFrom [Coord α] (platform : Platform α) (cluster : MonsterCluster α)
    (random row column : Nat) : Prop :=
  ∃ last monster bullet, cluster.rows.getLast? = some last ∧
    shooterPlace cluster.rows (random % last.length) cluster.rows.length = some (row, column) ∧
    cell cluster.rows row column = some monster ∧ FiredBy platform monster bullet ∧
    cluster.shoot platform random = some { cluster with bulletVec := cluster.bulletVec ++ [bullet] }

theorem shooter_eq_place (rows : List (List (Monster α))) (randomPosition index : Nat) :
    shooter rows randomPosition index =
      (shooterPlace rows randomPosition index).bind fun place => cell rows place.1 place.2 := by
  induction index with
  | zero => rfl
  | succ index ih =>
      simp only [shooter, shooterPlace]
      cases hcell : (rows[index]?).bind fun row => row[randomPosition]? with
      | none => exact ih
      | some monster =>
          by_cases halive : monster.state = .alive
          · simp only [halive, ite_true, Option.bind_some, cell, hcell]
          · simp only [halive, ite_false]
            exact ih

theorem column_of_place (rows : List (List (Monster α))) (randomPosition index row column : Nat)
    (h : shooterPlace rows randomPosition index = some (row, column)) : column = randomPosition := by
  induction index with
  | zero => cases h
  | succ index ih =>
      unfold shooterPlace at h
      split at h
      · split_ifs at h
        · cases h
          rfl
        · exact ih h
      · exact ih h

-- The search passes the rows below a front monster and stops at it.
theorem place_of_front (rows : List (List (Monster α))) (column row : Nat) (monster : Monster α)
    (h : Front rows column row monster) (index : Nat) (hrow : row < index) :
    shooterPlace rows column index = some (row, column) := by
  induction index with
  | zero => omega
  | succ index ih =>
      unfold shooterPlace
      by_cases hhere : row = index
      · have hcell : ((rows[index]?).bind fun row => row[column]?) = some monster := hhere ▸ h.cell
        simp only [hcell, h.alive, ite_true, hhere]
      · have hrest := ih (by omega)
        cases hcell : (rows[index]?).bind fun row => row[column]? with
        | none => exact hrest
        | some other =>
            have hdead := h.below index other (by omega) hcell
            simp only [hdead, reduceCtorEq, ite_false]
            exact hrest

section Fire

variable [Coord α] (platform : Platform α) (cluster : MonsterCluster α) (last : List (Monster α))
  (hlast : cluster.rows.getLast? = some last) (hne : last ≠ [])

include hlast hne

theorem column_lt_of_firesFrom (random row column : Nat)
    (h : FiresFrom platform cluster random row column) : column < last.length := by
  obtain ⟨found, _, _, hfound, hplace, _, _, _⟩ := h
  rw [hlast] at hfound
  cases hfound
  rw [column_of_place _ _ _ row column hplace]
  exact Nat.mod_lt _ (List.length_pos_iff.mpr hne)

-- The column itself is a random value for which its front monster shoots.
theorem firesFrom_of_front (row column : Nat) (monster : Monster α)
    (hfront : Front cluster.rows column row monster) (hcolumn : column < last.length) :
    FiresFrom platform cluster column row column := by
  have hplace := place_of_front cluster.rows column row monster hfront cluster.rows.length
    (lt_of_cell cluster.rows row column monster hfront.cell)
  have hshooter : shooter cluster.rows column cluster.rows.length = some monster := by
    rw [shooter_eq_place, hplace]
    exact hfront.cell
  have hlength : last.length ≠ 0 := mt List.length_eq_zero_iff.mp hne
  refine ⟨last, monster, _, hlast, ?_, hfront.cell, firedBy_new platform monster, ?_⟩
  · rw [Nat.mod_eq_of_lt hcolumn, hplace]
  · simp only [shoot, hlast, hlength, Nat.mod_eq_of_lt hcolumn, hshooter, ite_false]

end Fire

-- Every front monster can shoot if and only if no alive monster stands in a column
-- that the last row does not have.
theorem everyFrontFires_iff [Coord α] (platform : Platform α) (cluster : MonsterCluster α)
    (last : List (Monster α)) (hlast : cluster.rows.getLast? = some last) (hne : last ≠ []) :
    (∀ row column monster, Front cluster.rows column row monster →
      ∃ random, FiresFrom platform cluster random row column) ↔
    ∀ row column monster, cell cluster.rows row column = some monster → monster.state = .alive →
      column < last.length := by
  constructor
  · intro hfires row column monster hcell halive
    rcases shooter_front cluster.rows column with ⟨_, hdead⟩ | ⟨front, other, _, hfront⟩
    · have hstate := hdead row monster hcell
      rw [halive] at hstate
      cases hstate
    · obtain ⟨random, hrandom⟩ := hfires front column other hfront
      exact column_lt_of_firesFrom platform cluster last hlast hne random front column hrandom
  · intro hcolumns row column monster hfront
    have hcolumn := hcolumns row column monster hfront.cell hfront.alive
    exact ⟨column, firesFrom_of_front platform cluster last hlast hne row column monster hfront hcolumn⟩

-- In a cluster of two rows the upper one has only the lower one below it.
theorem front_of_upper (rows : List (List (Monster α))) (hlength : rows.length = 2) (column : Nat)
    (monster : Monster α) (hcell : cell rows 0 column = some monster) (halive : monster.state = .alive)
    (hbelow : ∀ other ∈ cell rows 1 column, other.state = .destroyed) : Front rows column 0 monster := by
  refine ⟨hcell, halive, fun lower other hlower hother => ?_⟩
  have hlt := lt_of_cell _ _ _ _ hother
  obtain rfl : lower = 1 := by omega
  exact hbelow other hother

theorem everyFrontFires_iff_thinnedRows : ∃ random, FiresFrom arcade thinnedRows random 0 0 := by
  have hlast : thinnedRows.rows.getLast?.any (fun last => last ≠ [] ∧ last.length = 2) = true := by
    decide +kernel
  have hlengths : thinnedRows.rows.length = 2 ∧ ∀ found ∈ thinnedRows.rows, found.length = 2 := by
    decide +kernel
  have hupper : (cell thinnedRows.rows 0 0).any (fun monster => monster.state = .alive) = true := by
    decide +kernel
  have hbelow : ∀ other ∈ cell thinnedRows.rows 1 0, other.state = .destroyed := by
    decide +kernel
  obtain ⟨last, hrow, hstate⟩ := (Option.any_eq_true _ _).mp hlast
  obtain ⟨hne, hlength⟩ := of_decide_eq_true hstate
  obtain ⟨monster, hcell, halive⟩ := (Option.any_eq_true _ _).mp hupper
  have hcolumns : ∀ row column monster, cell thinnedRows.rows row column = some monster →
      monster.state = .alive → column < last.length := by
    intro row column monster hcell _
    obtain ⟨found, hfound, hmonster⟩ := Option.bind_eq_some_iff.mp hcell
    have hlt := (List.getElem?_eq_some_iff.mp hmonster).1
    rw [hlengths.2 found (List.mem_of_getElem? hfound)] at hlt
    omega
  exact (everyFrontFires_iff arcade thinnedRows last hrow hne).mpr hcolumns 0 0 monster
    (front_of_upper _ hlengths.1 0 monster hcell (of_decide_eq_true halive) hbelow)

-- A row of three above a row of two.
def taperedRows : MonsterCluster ℚ :=
  ((new arcade).addRow arcade 3).addRow arcade 2

-- The third monster of the upper row is in no column that is drawn.
theorem corner_never_fires :
    ¬∀ row column monster, Front taperedRows.rows column row monster →
      ∃ random, FiresFrom arcade taperedRows random row column := by
  intro hfires
  have hlast : taperedRows.rows.getLast?.any (fun last => last ≠ [] ∧ last.length = 2) = true := by
    decide +kernel
  have hcorner : (cell taperedRows.rows 0 2).any (fun monster => monster.state = .alive) = true := by
    decide +kernel
  have hlength : taperedRows.rows.length = 2 := by
    decide +kernel
  have hbelow : cell taperedRows.rows 1 2 = none := by
    decide +kernel
  obtain ⟨last, hrow, hstate⟩ := (Option.any_eq_true _ _).mp hlast
  obtain ⟨hne, htwo⟩ := of_decide_eq_true hstate
  obtain ⟨monster, hcell, halive⟩ := (Option.any_eq_true _ _).mp hcorner
  have hfront := front_of_upper _ hlength 2 monster hcell (of_decide_eq_true halive) (by simp [hbelow])
  obtain ⟨random, hrandom⟩ := hfires 0 2 monster hfront
  have hcolumn := column_lt_of_firesFrom arcade taperedRows last hrow hne random 0 2 hrandom
  omega

end SpaceInvaders.MonsterCluster

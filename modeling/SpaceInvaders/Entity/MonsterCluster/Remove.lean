import Mathlib.Algebra.BigOperators.Group.List.Basic
import Mathlib.Data.List.InsertIdx
import SpaceInvaders.Entity.MonsterCluster

namespace SpaceInvaders.MonsterCluster

variable {α : Type}

def held (rows : List (List (Monster α))) : Nat := (rows.map List.length).sum

-- The rows without one monster, and without its row if it was alone there.
def without (row col : Nat) (rows : List (List (Monster α))) : List (List (Monster α)) :=
  match rows[row]? with
  | some [_] => rows.eraseIdx row
  | _ => rows.modify row fun found => found.eraseIdx col

-- What the removal of the monster at (row, col) is to leave.
structure RemovesOne (row col : Nat) (cluster next : MonsterCluster α) : Prop where
  rows : next.rows = without row col cluster.rows
  totalCount : next.totalCount = held next.rows

theorem without_of_alone (row col : Nat) (rows : List (List (Monster α))) (found : List (Monster α))
    (hrow : rows[row]? = some found) (halone : found.length = 1) :
    without row col rows = rows.eraseIdx row := by
  obtain ⟨monster, rfl⟩ := List.length_eq_one_iff.mp halone
  simp only [without, hrow]

theorem held_eraseIdx (row : Nat) (rows : List (List (Monster α))) (found : List (Monster α))
    (hrow : rows[row]? = some found) : found.length + held (rows.eraseIdx row) = held rows := by
  obtain ⟨hlt, rfl⟩ := List.getElem?_eq_some_iff.mp hrow
  have hsum := List.CommMonoid.add_sum_eraseIdx (l := rows.map List.length) (i := row) (by simpa using hlt)
  rwa [List.getElem_map, List.eraseIdx_map] at hsum

-- Where the monster is not alone, the rows are to be one shorter.
theorem without_ne (row col : Nat) (rows : List (List (Monster α))) (found : List (Monster α))
    (hrow : rows[row]? = some found) (hcol : col < found.length) (hmore : found.length ≠ 1) :
    rows ≠ without row col rows := by
  have hwithout : without row col rows = rows.modify row fun found => found.eraseIdx col := by
    unfold without
    split
    · rename_i hone
      rw [hrow, Option.some.injEq] at hone
      exact absurd (by simp [hone]) hmore
    · rfl
  intro hsame
  have hcell := congrArg (fun rows => rows[row]?) hsame
  simp only [hwithout, List.getElem?_modify_eq, hrow, Option.map_eq_map, Option.map_some,
    Option.some.injEq] at hcell
  have hlength := congrArg List.length hcell
  rw [List.length_eraseIdx_of_lt hcol] at hlength
  omega

-- A row goes when its only monster does. In all other cases nothing happens.
theorem removeMonster_eq (row col : Nat) (cluster : MonsterCluster α) (found : List (Monster α))
    (hrow : cluster.rows[row]? = some found) (hcol : col < found.length) :
    cluster.removeMonster row col = some (if found.length = 1 then
      { cluster with rows := cluster.rows.eraseIdx row } else cluster) := by
  have hleft : (Erase.erase Monster.assign col found).length = found.length - 1 := by
    have hkept : Erase.erase Monster.assign col found = found.dropLast := Erase.erase_kept col found hcol
    rw [hkept, List.length_dropLast]
  have halone : found.length - 1 = 0 ↔ found.length = 1 := by omega
  simp only [removeMonster, hrow, hcol, hleft, halone, Erase.erase_assigned, ite_true]
  split_ifs <;> rfl

-- The monster is removed if and only if it is alone in its row, and the count is right
-- after that if it was one too low before.
theorem removesOne_iff (row col : Nat) (cluster : MonsterCluster α) (found : List (Monster α))
    (hrow : cluster.rows[row]? = some found) (hcol : col < found.length) :
    ∃ next, cluster.removeMonster row col = some next ∧
      (RemovesOne row col cluster next ↔
        found.length = 1 ∧ cluster.totalCount + 1 = held cluster.rows) := by
  refine ⟨_, removeMonster_eq row col cluster found hrow hcol, ?_⟩
  by_cases halone : found.length = 1
  · have hheld := held_eraseIdx row cluster.rows found hrow
    rw [if_pos halone]
    constructor
    · intro h
      have htotal : cluster.totalCount = held (cluster.rows.eraseIdx row) := h.totalCount
      exact ⟨halone, by omega⟩
    · rintro ⟨_, htotal⟩
      refine ⟨(without_of_alone row col cluster.rows found hrow halone).symm, ?_⟩
      have hcount : cluster.totalCount = held (cluster.rows.eraseIdx row) := by omega
      exact hcount
  · rw [if_neg halone]
    refine iff_of_false (fun h => ?_) fun h => halone h.1
    exact without_ne row col cluster.rows found hrow hcol halone h.rows

-- A row of two above a row of one, with a count that is one too low: what is left of the row
-- of one after a removal from the other.
def lowCount : MonsterCluster ℚ :=
  { ((new arcade).addRow arcade 2).addRow arcade 1 with totalCount := 2 }

theorem removesOne_iff_alone :
    ∃ next, lowCount.removeMonster 1 0 = some next ∧ RemovesOne 1 0 lowCount next ∧
      next.rows.map List.length = [2] ∧ next.totalCount = 2 := by
  have hrows : lowCount.rows[1]?.any (fun found => found.length = 1) = true := by decide +kernel
  obtain ⟨found, hrow, halone⟩ := (Option.any_eq_true _ _).mp hrows
  have halone : found.length = 1 := of_decide_eq_true halone
  obtain ⟨next, hnext, hiff⟩ := removesOne_iff 1 0 lowCount found hrow (by omega)
  have hremoves := hiff.mpr ⟨halone, by decide +kernel⟩
  have hleft : (without 1 0 lowCount.rows).map List.length = [2] := by decide +kernel
  refine ⟨next, hnext, hremoves, hremoves.rows ▸ hleft, ?_⟩
  rw [hremoves.totalCount, held, hremoves.rows, hleft]
  rfl

-- One of two monsters is to be removed, and both stay.
theorem removeMonster_keeps :
    ¬∃ next, ((new arcade).addRow arcade 2).removeMonster 0 0 = some next ∧
      RemovesOne 0 0 ((new arcade).addRow arcade 2) next := by
  rintro ⟨next, hnext, hremoves⟩
  have hlength : (((new arcade).addRow arcade 2).removeMonster 0 0).all (fun next =>
      next.rows.map List.length = [2]) = true := by
    decide +kernel
  have hwithout : (without 0 0 ((new arcade).addRow arcade 2).rows).map List.length = [1] := by
    decide +kernel
  rw [hnext, Option.all_some, decide_eq_true_eq, hremoves.rows, hwithout] at hlength
  cases hlength

end SpaceInvaders.MonsterCluster

import SpaceInvaders.Entity.MonsterCluster.Lemmas
import Mathlib.Tactic.Ring

namespace SpaceInvaders.MonsterCluster

variable {α : Type}

-- The search of shoot with the bound checks of at(). The outer none is an access
-- that is out of range.
def shooterAt (rows : List (List (Monster α))) (randomPosition : Nat) :
    Nat → Option (Option (Monster α))
  | 0 => some none
  | index + 1 =>
      (rows[index]?).bind fun row =>
        if randomPosition < row.length then
          (row[randomPosition]?).bind fun monster =>
            if monster.state = .alive then some (some monster)
            else shooterAt rows randomPosition index
        else
          shooterAt rows randomPosition index

-- The alive monster of the column that has only dead monsters below it.
structure Front (rows : List (List (Monster α))) (column row : Nat) (monster : Monster α) : Prop where
  cell : cell rows row column = some monster
  alive : monster.state = .alive
  below : ∀ lower other, row < lower → MonsterCluster.cell rows lower column = some other →
    other.state = .destroyed

theorem state_destroyed_iff (state : State) : state = .destroyed ↔ state ≠ .alive := by
  cases state <;> simp

theorem shooterAt_eq (rows : List (List (Monster α))) (randomPosition index : Nat)
    (h : index ≤ rows.length) :
    shooterAt rows randomPosition index = some (shooter rows randomPosition index) := by
  induction index with
  | zero => rfl
  | succ index ih =>
      have hrow : rows[index]? = some rows[index] := List.getElem?_eq_getElem (by omega)
      have hrest := ih (by omega)
      simp only [shooterAt, shooter, hrow, Option.bind_some]
      by_cases hcolumn : randomPosition < rows[index].length
      · have hcell := List.getElem?_eq_getElem hcolumn
        simp only [hcolumn, hcell, ite_true, Option.bind_some, hrest]
        split_ifs <;> rfl
      · have hcell : rows[index][randomPosition]? = none := List.getElem?_eq_none (by omega)
        simp only [hcolumn, hcell, ite_false, hrest]

-- The loop looks at the rows from the last one down: what it has passed is dead.
theorem shooter_cases (rows : List (List (Monster α))) (randomPosition index : Nat) :
    (shooter rows randomPosition index = none ∧
      ∀ row < index, ∀ monster, cell rows row randomPosition = some monster →
        monster.state = .destroyed) ∨
    ∃ row < index, ∃ monster, shooter rows randomPosition index = some monster ∧
      cell rows row randomPosition = some monster ∧ monster.state = .alive ∧
      ∀ lower, row < lower → lower < index → ∀ other, cell rows lower randomPosition = some other →
        other.state = .destroyed := by
  induction index with
  | zero => exact .inl ⟨rfl, fun _ h => absurd h (Nat.not_lt_zero _)⟩
  | succ index ih =>
      -- Either this row has the front monster, or what holds of the rows above goes on to hold.
      by_cases hhere : ∃ monster, cell rows index randomPosition = some monster ∧ monster.state = .alive
      · obtain ⟨monster, hcell, halive⟩ := hhere
        refine .inr ⟨index, Nat.lt_succ_self index, monster, ?_, hcell, halive, by omega⟩
        unfold cell at hcell
        simp [shooter, hcell, halive]
      · have hdead (monster : Monster α) (h : cell rows index randomPosition = some monster) :
            monster.state = .destroyed :=
          (state_destroyed_iff _).mpr fun halive => hhere ⟨monster, h, halive⟩
        have hskip : shooter rows randomPosition (index + 1) = shooter rows randomPosition index := by
          cases hcell : cell rows index randomPosition with
          | none =>
              unfold cell at hcell
              simp [shooter, hcell]
          | some monster =>
              have hstate := hdead monster hcell
              unfold cell at hcell
              simp [shooter, hcell, hstate]
        rw [hskip]
        rcases ih with ⟨hnone, hrest⟩ | ⟨row, hrow, monster, hfound, hcell, halive, hrest⟩
        · refine .inl ⟨hnone, fun row hrow => ?_⟩
          rcases Nat.lt_succ_iff_lt_or_eq.mp hrow with hlt | rfl
          · exact hrest row hlt
          · exact hdead
        · refine .inr ⟨row, by omega, monster, hfound, hcell, halive, fun lower hlower hlt => ?_⟩
          rcases Nat.lt_succ_iff_lt_or_eq.mp hlt with hlt | rfl
          · exact hrest lower hlower hlt
          · exact hdead

theorem lt_of_cell (rows : List (List (Monster α))) (row column : Nat) (monster : Monster α)
    (h : cell rows row column = some monster) : row < rows.length := by
  obtain ⟨found, hfound, _⟩ := Option.bind_eq_some_iff.mp h
  exact (List.getElem?_eq_some_iff.mp hfound).1

-- Over all rows the search answers with the front monster.
theorem shooter_front (rows : List (List (Monster α))) (column : Nat) :
    (shooter rows column rows.length = none ∧
      ∀ row monster, cell rows row column = some monster → monster.state = .destroyed) ∨
    ∃ row monster, shooter rows column rows.length = some monster ∧ Front rows column row monster := by
  rcases shooter_cases rows column rows.length with ⟨hnone, hdead⟩ | ⟨row, _, monster, hfound, hcell, halive, hdead⟩
  · exact .inl ⟨hnone, fun row monster h => hdead row (lt_of_cell rows row column monster h) monster h⟩
  · refine .inr ⟨row, monster, hfound, hcell, halive, fun lower other hlower h => ?_⟩
    exact hdead lower hlower (lt_of_cell rows lower column other h) other h

-- The bullet of a shot: a circle of radius 5 around the middle of the monster, with its top at
-- the monster's top. Where boxes begin at the position of what is drawn, so does its box. Each
-- update takes -5 from its height, which counts downwards.
structure FiredBy [Coord α] (platform : Platform α) (monster : Monster α) (bullet : Bullet α) : Prop where
  position : bullet.position =
    ⟨monster.position.x + (monster.getMonsterBounds platform).width / ((2 : Int) : α) - ((5 : Int) : α),
      monster.position.y⟩
  box : ∀ monsterSize bulletSize, platform.monsterBounds = FloatRect.ofSize monsterSize →
    platform.bulletBounds = FloatRect.ofSize bulletSize → bullet.getBoundingBox platform =
      ⟨(monster.getMonsterBounds platform).left +
          (monster.getMonsterBounds platform).width / ((2 : Int) : α) - ((5 : Int) : α),
        (monster.getMonsterBounds platform).top, bulletSize.x, bulletSize.y⟩
  alive : bullet.state = .alive
  speed : bullet.speed = -5
  down : bullet.updateBullet.position = ⟨bullet.position.x, bullet.position.y - ((-5 : Int) : α)⟩

theorem firedBy_new [Coord α] (platform : Platform α) (monster : Monster α) :
    FiredBy platform monster (Bullet.new
      (monster.position.x + (monster.getMonsterBounds platform).width / ((2 : Int) : α)) monster.position.y
      (-5)) where
  position := rfl
  box monsterSize bulletSize hmonster hbullet := by
    unfold Bullet.getBoundingBox Monster.getMonsterBounds
    rw [hmonster, hbullet]
    rfl
  alive := rfl
  speed := rfl
  down := rfl

-- In exact coordinates the two boxes have one middle, and each update lowers the bullet by 5.
theorem FiredBy.centred {platform : Platform ℚ} {monster : Monster ℚ} {bullet : Bullet ℚ}
    (h : FiredBy platform monster bullet) (monsterSize : Vector2 ℚ)
    (hmonster : platform.monsterBounds = FloatRect.ofSize monsterSize)
    (hbullet : platform.bulletBounds = FloatRect.ofSize ⟨10, 10⟩) :
    (bullet.getBoundingBox platform).left + (bullet.getBoundingBox platform).width / 2 =
        (monster.getMonsterBounds platform).left + (monster.getMonsterBounds platform).width / 2 ∧
      (bullet.getBoundingBox platform).top = (monster.getMonsterBounds platform).top ∧
      (bullet.updateBullet.getBoundingBox platform).top = (bullet.getBoundingBox platform).top + 5 := by
  have hmoved : (bullet.updateBullet.getBoundingBox platform).top =
      (bullet.getBoundingBox platform).top + 5 := by
    unfold Bullet.getBoundingBox
    rw [hbullet, h.down]
    simp only [FloatRect.ofSize]
    push_cast
    ring
  refine ⟨?_, by rw [h.box _ _ hmonster hbullet], hmoved⟩
  rw [h.box _ _ hmonster hbullet]
  push_cast
  ring

-- With a monster in the last row a shot fires from the front monster of the chosen
-- column, if that column has one alive, and changes nothing else.
theorem shoot_front [Coord α] (platform : Platform α) (random : Nat) (cluster : MonsterCluster α)
    (last : List (Monster α)) (hlast : cluster.rows.getLast? = some last) (hne : last ≠ []) :
    (shooterAt cluster.rows (random % last.length) cluster.rows.length).isSome ∧
    ∃ fired, cluster.shoot platform random =
        some { cluster with bulletVec := cluster.bulletVec ++ fired } ∧
      ((∃ row monster, cell cluster.rows row (random % last.length) = some monster ∧
          monster.state = .alive) →
        ∃ row monster bullet, Front cluster.rows (random % last.length) row monster ∧
          fired = [bullet] ∧ FiredBy platform monster bullet) ∧
      ((¬∃ row monster, cell cluster.rows row (random % last.length) = some monster ∧
          monster.state = .alive) → fired = []) := by
  have hlength : last.length ≠ 0 := mt List.length_eq_zero_iff.mp hne
  refine ⟨by simp [shooterAt_eq], ?_⟩
  rcases shooter_front cluster.rows (random % last.length) with ⟨hnone, hdead⟩ | ⟨row, monster, hfound, hfront⟩
  · refine ⟨[], by simp [shoot, hlast, hlength, hnone], ?_, fun _ => rfl⟩
    rintro ⟨row, monster, hcell, halive⟩
    rw [hdead row monster hcell] at halive
    cases halive
  · refine ⟨[Bullet.new (monster.position.x + (monster.getMonsterBounds platform).width / ((2 : Int) : α))
      monster.position.y (-5)], ?_, fun _ => ?_, fun hnone => ?_⟩
    · simp only [shoot, hlast, hlength, hfound, ite_false]
    · exact ⟨row, monster, _, hfront, rfl, firedBy_new platform monster⟩
    · exact absurd ⟨row, monster, hfront.cell, hfront.alive⟩ hnone

-- Two rows of two, of which the lower left monster is dead: column 0 fires from the upper row.
def thinnedRows : MonsterCluster ℚ :=
  let cluster := (((new arcade).addRow arcade 2).addRow arcade 2).setPosition arcade 400 20
  { cluster with rows := cluster.rows.modify 1 fun row => row.modify 0 Monster.kill }

theorem shoot_front_thinnedRows :
    ∃ last fired row monster bullet, thinnedRows.rows.getLast? = some last ∧
      thinnedRows.shoot arcade 4 = some { thinnedRows with bulletVec := thinnedRows.bulletVec ++ fired } ∧
      fired = [bullet] ∧ Front thinnedRows.rows (4 % last.length) row monster ∧
      (bullet.getBoundingBox arcade).left + (bullet.getBoundingBox arcade).width / 2 =
        (monster.getMonsterBounds arcade).left + (monster.getMonsterBounds arcade).width / 2 ∧
      (bullet.getBoundingBox arcade).top = (monster.getMonsterBounds arcade).top ∧
      (bullet.updateBullet.getBoundingBox arcade).top = (bullet.getBoundingBox arcade).top + 5 := by
  have hlast : thinnedRows.rows.getLast?.any (fun last => last ≠ [] ∧ last.length = 2) = true := by
    decide +kernel
  obtain ⟨last, hrow, hstate⟩ := (Option.any_eq_true _ _).mp hlast
  obtain ⟨hne, hlength⟩ := of_decide_eq_true hstate
  obtain ⟨_, fired, hshoot, hfront, _⟩ := shoot_front arcade 4 thinnedRows last hrow hne
  have halive : (cell thinnedRows.rows 0 (4 % 2)).any (fun monster => monster.state = .alive) = true := by
    decide +kernel
  obtain ⟨first, hcell, hstate⟩ := (Option.any_eq_true _ _).mp halive
  rw [← hlength] at hcell
  obtain ⟨row, monster, bullet, hf, hfired, hbullet⟩ := hfront ⟨0, first, hcell, of_decide_eq_true hstate⟩
  exact ⟨last, fired, row, monster, bullet, hrow, hshoot, hfired, hf,
    hbullet.centred ⟨50, 50⟩ rfl rfl⟩

end SpaceInvaders.MonsterCluster

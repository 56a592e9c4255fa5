import SpaceInvaders.Entity.MonsterCluster

namespace SpaceInvaders.MonsterCluster

variable {α : Type}

def cell (rows : List (List (Monster α))) (row column : Nat) : Option (Monster α) :=
  (rows[row]?).bind fun found => found[column]?

-- What a kill does to the rows that getMonsters hands out.
def killAt (row col : Nat) (cluster : MonsterCluster α) : MonsterCluster α :=
  { cluster with rows := cluster.rows.modify row fun found => found.modify col Monster.kill }

theorem cell_killAt (row col row' col' : Nat) (cluster : MonsterCluster α) :
    cell (cluster.killAt row col).rows row' col' =
      (cell cluster.rows row' col').map fun monster =>
        if row = row' ∧ col = col' then monster.kill else monster := by
  simp only [cell, killAt, List.getElem?_modify]
  cases cluster.rows[row']? with
  | none => rfl
  | some found =>
      by_cases hr : row = row'
      · simp [hr, List.getElem?_modify]
      · simp [hr]

variable [Coord α]

-- The states of the monsters, row by row.
def states (rows : List (List (Monster α))) : List (List State) :=
  rows.map fun row => row.map Monster.state

@[simp] theorem placeRow_state (platform : Platform α) (gap : Vector2 α) (xPos yPos : α)
    (rowIndex : Nat) (row : List (Monster α)) :
    (placeRow platform gap xPos yPos rowIndex row).map Monster.state = row.map Monster.state := by
  apply List.ext_getElem
  · simp [placeRow]
  · intro index _ _
    simp [placeRow]

@[simp] theorem setPosition_states (platform : Platform α) (xPos yPos : α)
    (cluster : MonsterCluster α) :
    states (cluster.setPosition platform xPos yPos).rows = states cluster.rows := by
  apply List.ext_getElem
  · simp [setPosition, states]
  · intro index _ _
    simp [setPosition, states]

@[simp] theorem addRow_states (platform : Platform α) (numberOfMonsters : Int)
    (cluster : MonsterCluster α) :
    states (cluster.addRow platform numberOfMonsters).rows =
      states cluster.rows ++ [List.replicate numberOfMonsters.toNat .alive] := by
  simp only [addRow, setPosition_states]
  simp [states]

@[simp] theorem moveMonsters_states (velocity : α) (cluster : MonsterCluster α) :
    states (cluster.moveMonsters velocity).rows = states cluster.rows := by
  simp [moveMonsters, states, Function.comp_def]

-- The loop over the rows stops with the edges of a longest row, if one is longer
-- than what it started from.
theorem edges_cases (platform : Platform α) (gap : Vector2 α) (xPos : α) (longest : Nat)
    (found : α × α) (rows : List (List (Monster α))) :
    (edges platform gap xPos longest found rows = found ∧ ∀ row ∈ rows, row.length ≤ longest) ∨
    ∃ row ∈ rows, longest < row.length ∧ (∀ other ∈ rows, other.length ≤ row.length) ∧
      edges platform gap xPos longest found rows =
        (xPos - rowLength platform gap row.length / ((2 : Int) : α),
          xPos + rowLength platform gap row.length / ((2 : Int) : α)) := by
  induction rows generalizing longest found with
  | nil => exact .inl ⟨rfl, by simp⟩
  | cons row rest ih =>
      unfold edges
      by_cases hlonger : longest < row.length
      · simp only [hlonger, ite_true]
        right
        rcases ih row.length (xPos - rowLength platform gap row.length / ((2 : Int) : α),
            xPos + rowLength platform gap row.length / ((2 : Int) : α)) with
          ⟨he, hrest⟩ | ⟨other, ho, hlt, hrest, he⟩
        · exact ⟨row, by simp, hlonger, by simpa using hrest, he⟩
        · refine ⟨other, by simp [ho], by omega, ?_, he⟩
          intro third ht
          rcases List.mem_cons.mp ht with rfl | ht
          · omega
          · exact hrest third ht
      · simp only [hlonger, ite_false]
        rcases ih longest found with ⟨he, hrest⟩ | ⟨other, ho, hlt, hrest, he⟩
        · exact .inl ⟨he, by simpa using ⟨by omega, hrest⟩⟩
        · exact .inr ⟨other, by simp [ho], hlt, by simpa using ⟨by omega, hrest⟩, he⟩

-- The bullets of a shot: none, or one that flies downwards.
def Shot (fired : List (Bullet α)) : Prop :=
  fired = [] ∨ ∃ x y, fired = [Bullet.new x y (-5)]

theorem shoot_eq_some (platform : Platform α) (random : Nat) (cluster next : MonsterCluster α)
    (h : cluster.shoot platform random = some next) :
    ∃ fired, Shot fired ∧ next = { cluster with bulletVec := cluster.bulletVec ++ fired } := by
  unfold shoot at h
  split at h
  · cases h
  · split at h
    · cases h
    · split at h
      · cases h
        exact ⟨[], .inl rfl, by simp⟩
      · cases h
        exact ⟨_, .inr ⟨_, _, rfl⟩, rfl⟩

theorem coolDown_eq_some (platform : Platform α) (random : Nat) (cluster next : MonsterCluster α)
    (h : cluster.coolDown platform random = some next) :
    ∃ fired cooldown, Shot fired ∧
      next = { cluster with bulletVec := cluster.bulletVec ++ fired, cooldown := cooldown } := by
  unfold coolDown at h
  split_ifs at h
  · cases h
    exact ⟨[], _, .inl rfl, by simp; rfl⟩
  · obtain ⟨shot, hshot, rfl⟩ := Option.map_eq_some_iff.mp h
    obtain ⟨fired, hfired, rfl⟩ := shoot_eq_some platform random cluster shot hshot
    exact ⟨fired, 0, hfired, rfl⟩
  · cases h
    exact ⟨[], _, .inl rfl, by simp; rfl⟩

-- What one move can do: the monsters go by one displacement, the bullets by
-- their speed after at most one shot, and the edges and the direction by turn.
theorem move_eq_some (platform : Platform α) (velocity : α) (windowWidth random : Nat)
    (cluster next : MonsterCluster α)
    (h : cluster.move platform velocity windowWidth random = some next) :
    ∃ fired cooldown, Shot fired ∧
      next = { cluster.turn velocity windowWidth with
        rows := (cluster.moveMonsters velocity).rows
        bulletVec := (cluster.bulletVec ++ fired).map Bullet.updateBullet
        cooldown := cooldown } := by
  obtain ⟨cooled, hcooled, rfl⟩ := Option.map_eq_some_iff.mp h
  obtain ⟨fired, cooldown, hfired, rfl⟩ := coolDown_eq_some platform random _ cooled hcooled
  refine ⟨fired, cooldown, hfired, ?_⟩
  cases hd : cluster.nextDir <;> simp [turn, updateBullets, moveMonsters, hd]

def withBullets (bulletVec : List (Bullet α)) (cluster : MonsterCluster α) : MonsterCluster α :=
  { cluster with bulletVec := bulletVec }

-- The cluster shoots without looking at its bullets: a call faults for all lists
-- of bullets or appends the same shot to each.
theorem shoot_withBullets (platform : Platform α) (random : Nat) (cluster : MonsterCluster α) :
    ∃ outcome : Option (List (Bullet α)), (∀ fired ∈ outcome, Shot fired) ∧
      ∀ bulletVec, (cluster.withBullets bulletVec).shoot platform random =
        outcome.map fun fired => cluster.withBullets (bulletVec ++ fired) := by
  cases hlast : cluster.rows.getLast? with
  | none => exact ⟨none, by simp, fun bulletVec => by simp [shoot, withBullets, hlast]⟩
  | some last =>
      by_cases hempty : last.length = 0
      · exact ⟨none, by simp, fun bulletVec => by simp [shoot, withBullets, hlast, hempty]⟩
      · cases hshooter : shooter cluster.rows (random % last.length) cluster.rows.length with
        | none =>
            refine ⟨some [], by simp [Shot], fun bulletVec => ?_⟩
            simp [shoot, withBullets, hlast, hempty, hshooter]
        | some monster =>
            refine ⟨some [Bullet.new
              (monster.position.x + (monster.getMonsterBounds platform).width / ((2 : Int) : α))
              monster.position.y (-5)], ?_, fun bulletVec => ?_⟩
            · rintro fired ⟨⟩
              exact .inr ⟨_, _, rfl⟩
            · simp [shoot, withBullets, hlast, hempty, hshooter]

theorem coolDown_withBullets (platform : Platform α) (random : Nat) (cluster : MonsterCluster α) :
    ∃ outcome : Option (List (Bullet α) × Int), (∀ found ∈ outcome, Shot found.1) ∧
      ∀ bulletVec, (cluster.withBullets bulletVec).coolDown platform random =
        outcome.map fun found =>
          { cluster.withBullets (bulletVec ++ found.1) with cooldown := found.2 } := by
  by_cases hwait : cluster.cooldown < 50
  · refine ⟨some ([], cluster.cooldown + 1), by simp [Shot], fun bulletVec => ?_⟩
    simp [coolDown, withBullets, hwait]
  · by_cases hshoot : cluster.cooldown = 50
    · obtain ⟨outcome, hshot, houtcome⟩ := shoot_withBullets platform random cluster
      refine ⟨outcome.map fun fired => (fired, 0), by simpa using hshot, fun bulletVec => ?_⟩
      have hguard : (cluster.withBullets bulletVec).cooldown = 50 := hshoot
      rw [coolDown, if_neg (by rw [hguard]; omega), if_pos hguard, houtcome]
      cases outcome <;> rfl
    · refine ⟨some ([], cluster.cooldown), by simp [Shot], fun bulletVec => ?_⟩
      simp [coolDown, withBullets, hwait, hshoot]

theorem turn_withBullets (bulletVec : List (Bullet α)) (velocity : α) (windowWidth : Nat)
    (cluster : MonsterCluster α) :
    (cluster.withBullets bulletVec).turn velocity windowWidth =
      (cluster.turn velocity windowWidth).withBullets bulletVec := by
  cases hd : cluster.nextDir <;> simp [turn, withBullets, hd]

-- A move faults for all lists of bullets or differs only in what it does to them.
theorem move_withBullets (platform : Platform α) (velocity : α) (windowWidth random : Nat)
    (cluster : MonsterCluster α) :
    ∃ outcome : Option (List (Bullet α) × MonsterCluster α), (∀ found ∈ outcome, Shot found.1) ∧
      ∀ bulletVec, (cluster.withBullets bulletVec).move platform velocity windowWidth random =
        outcome.map fun found =>
          found.2.withBullets ((bulletVec ++ found.1).map Bullet.updateBullet) := by
  obtain ⟨outcome, hshot, houtcome⟩ :=
    coolDown_withBullets platform random (cluster.moveMonsters velocity)
  refine ⟨outcome.map fun found => (found.1,
    ({ cluster.moveMonsters velocity with cooldown := found.2 }).turn velocity windowWidth), ?_, ?_⟩
  · simp only [Option.mem_def, Option.map_eq_some_iff]
    rintro _ ⟨found, hfound, rfl⟩
    exact hshot found hfound
  · intro bulletVec
    have hmoved : (cluster.withBullets bulletVec).moveMonsters velocity =
      (cluster.moveMonsters velocity).withBullets bulletVec := rfl
    rw [move, hmoved, houtcome]
    cases outcome with
    | none => rfl
    | some found =>
        exact congrArg some (turn_withBullets ((bulletVec ++ found.1).map Bullet.updateBullet)
          velocity windowWidth { cluster.moveMonsters velocity with cooldown := found.2 })

@[simp] theorem turn_destroyedCount (velocity : α) (windowWidth : Nat) (cluster : MonsterCluster α) :
    (cluster.turn velocity windowWidth).destroyedCount = cluster.destroyedCount := by
  unfold turn
  split <;> rfl

@[simp] theorem turn_totalCount (velocity : α) (windowWidth : Nat) (cluster : MonsterCluster α) :
    (cluster.turn velocity windowWidth).totalCount = cluster.totalCount := by
  unfold turn
  split <;> rfl

end SpaceInvaders.MonsterCluster

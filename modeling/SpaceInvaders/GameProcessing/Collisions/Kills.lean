import SpaceInvaders.Library.Run
import SpaceInvaders.Entity.Player.Lemmas
import SpaceInvaders.Entity.MonsterCluster.Lemmas
import SpaceInvaders.GameProcessing.Collisions.Lemmas
import Mathlib.Tactic.Ring

namespace SpaceInvaders.Collisions

open MonsterCluster (states)

variable {α : Type}

section Operations

variable [Coord α]

-- The calls that may follow each other in any order.
inductive Operation (α : Type) where
  | addRow (numberOfMonsters : Int)
  | setPosition (xPos yPos : α)
  | move (velocity : α) (windowWidth random : Nat)
  | shoot
  | update (controls : Controls) (windowSize : Vector2 Nat)
  | setDestination (destination : Vector2 α)
  | checkCollisions

def operate (platform : Platform α) : Operation α → Collisions α → Option (Collisions α)
  | .addRow numberOfMonsters, game =>
      some { game with monsterCluster := game.monsterCluster.addRow platform numberOfMonsters }
  | .setPosition xPos yPos, game =>
      some { game with monsterCluster := game.monsterCluster.setPosition platform xPos yPos }
  | .move velocity windowWidth random, game =>
      (game.monsterCluster.move platform velocity windowWidth random).map fun monsterCluster =>
        { game with monsterCluster := monsterCluster }
  | .shoot, game => some { game with player := game.player.shoot platform }
  | .update controls windowSize, game =>
      some { game with player := game.player.update platform controls windowSize }
  | .setDestination destination, game =>
      some { game with player := game.player.setDestination destination }
  | .checkCollisions, game => some (checkCollisions platform game)

-- Three objects as their constructors leave them.
def fresh (platform : Platform α) (windowPosition : Vector2 Int) (state : State) : Collisions α :=
  new (Player.new platform windowPosition state) (MonsterCluster.new platform) Score.new

end Operations

def bulletStates (bulletVec : List (Bullet α)) : List State := bulletVec.map Bullet.state

-- The counters of the three classes, against the flags they stand for.
structure Accounts (game : Collisions α) : Prop where
  score : game.score.score = 100 * game.score.enemiesKilled
  enemiesKilled : game.score.enemiesKilled = game.monsterCluster.destroyedCount
  monsters : game.monsterCluster.destroyedCount =
    (states game.monsterCluster.rows).flatten.count State.destroyed
  bullets : game.monsterCluster.destroyedCount =
    (bulletStates game.player.bulletVec).count State.destroyed
  total : game.monsterCluster.totalCount = (states game.monsterCluster.rows).flatten.length

-- Nothing destroyed in `before` is alive again in `after`.
def StayDestroyed (before after : List State) : Prop :=
  ∀ index : Nat, before[index]? = some .destroyed → after[index]? = some .destroyed

def RowsStayDestroyed (before after : List (List State)) : Prop :=
  ∀ (index : Nat) (row : List State), before[index]? = some row →
    ∃ next, after[index]? = some next ∧ StayDestroyed row next

-- A change of the states that only adds alive entries.
def Grown (before after : List State) : Prop :=
  ∃ count, after = before ++ List.replicate count .alive

-- What every operation does that kills nobody.
structure Quiet (game next : Collisions α) : Prop where
  score : next.score = game.score
  destroyedCount : next.monsterCluster.destroyedCount = game.monsterCluster.destroyedCount
  rows : ∃ added : List Nat, states next.monsterCluster.rows =
      states game.monsterCluster.rows ++ added.map fun count => List.replicate count .alive
  totalCount : next.monsterCluster.totalCount - (states next.monsterCluster.rows).flatten.length =
    game.monsterCluster.totalCount - (states game.monsterCluster.rows).flatten.length
  bullets : Grown (bulletStates game.player.bulletVec) (bulletStates next.player.bulletVec)

theorem Grown.refl (before : List State) : Grown before before := ⟨0, by simp⟩

theorem Grown.append_alive (before : List State) (added : List (Bullet α))
    (h : ∀ bullet ∈ added, bullet.state = .alive) : Grown before (before ++ bulletStates added) := by
  refine ⟨added.length, ?_⟩
  rw [bulletStates, List.map_eq_replicate_iff.mpr h]

theorem Grown.count_destroyed {before after : List State} (h : Grown before after) :
    after.count .destroyed = before.count .destroyed := by
  obtain ⟨count, rfl⟩ := h
  simp [List.count_append, List.count_replicate]

theorem StayDestroyed.refl (before : List State) : StayDestroyed before before := fun _ h => h

theorem Grown.stayDestroyed {before after : List State} (h : Grown before after) :
    StayDestroyed before after := by
  obtain ⟨count, rfl⟩ := h
  intro index hi
  rw [List.getElem?_append_left (List.getElem?_eq_some_iff.mp hi).1]
  exact hi

theorem stayDestroyed_set (left right : List State) (state : State) :
    StayDestroyed (left ++ state :: right) (left ++ .destroyed :: right) := by
  intro index hi
  rcases Nat.lt_trichotomy index left.length with h | rfl | h
  · rw [List.getElem?_append_left h] at hi ⊢
    exact hi
  · simp
  · obtain ⟨offset, rfl⟩ : ∃ offset, index = left.length + (offset + 1) :=
      ⟨index - left.length - 1, by omega⟩
    simpa [List.getElem?_append_right] using hi

theorem rowsStayDestroyed_append (rows added : List (List State)) :
    RowsStayDestroyed rows (rows ++ added) := by
  intro index row hi
  refine ⟨row, ?_, .refl row⟩
  rw [List.getElem?_append_left (List.getElem?_eq_some_iff.mp hi).1]
  exact hi

theorem rowsStayDestroyed_set (above below : List (List State)) (row next : List State)
    (h : StayDestroyed row next) :
    RowsStayDestroyed (above ++ row :: below) (above ++ next :: below) := by
  intro index found hi
  rcases Nat.lt_trichotomy index above.length with hlt | rfl | hgt
  · rw [List.getElem?_append_left hlt] at hi ⊢
    exact ⟨found, hi, .refl found⟩
  · simp only [List.getElem?_append_right (Nat.le_refl _), Nat.sub_self, List.getElem?_cons_zero,
      Option.some.injEq] at hi ⊢
    exact ⟨next, rfl, hi ▸ h⟩
  · obtain ⟨offset, rfl⟩ : ∃ offset, index = above.length + (offset + 1) :=
      ⟨index - above.length - 1, by omega⟩
    exact ⟨found, by simpa [List.getElem?_append_right] using hi, .refl found⟩

-- An operation that leaves the cluster and the score alone.
theorem quiet_of_player {game : Collisions α} {player : Player α}
    (h : Grown (bulletStates game.player.bulletVec) (bulletStates player.bulletVec)) :
    Quiet game { game with player := player } :=
  ⟨rfl, rfl, ⟨[], by simp⟩, rfl, h⟩

-- An operation on the cluster that keeps both counters and every state.
theorem quiet_of_cluster {game : Collisions α} {cluster : MonsterCluster α}
    (hrows : states cluster.rows = states game.monsterCluster.rows)
    (hdestroyed : cluster.destroyedCount = game.monsterCluster.destroyedCount)
    (htotal : cluster.totalCount = game.monsterCluster.totalCount) :
    Quiet game { game with monsterCluster := cluster } :=
  ⟨rfl, hdestroyed, ⟨[], by simpa using hrows⟩, by rw [hrows, htotal], .refl _⟩

theorem checkDamage_quiet (platform : Platform α) (game : Collisions α) :
    Quiet game (checkDamage platform game) := by
  rcases checkDamage_cases platform game with
    ⟨_, before, bullet, after, _, _, _, h⟩ | ⟨_, _, h⟩ | ⟨_, _, h⟩ | ⟨_, _, h⟩ <;> rw [h]
  · exact ⟨rfl, rfl, ⟨[], by simp [struck]⟩, rfl, by rw [struck, die_bulletVec]; exact .refl _⟩
  · exact ⟨rfl, rfl, ⟨[], by simp⟩, rfl, .refl _⟩
  · exact ⟨rfl, rfl, ⟨[], by simp⟩, rfl, .refl _⟩
  · exact ⟨rfl, rfl, ⟨[], by simp⟩, rfl, .refl _⟩

theorem bulletStates_append (first second : List (Bullet α)) :
    bulletStates (first ++ second) = bulletStates first ++ bulletStates second :=
  List.map_append ..

theorem bulletStates_update [Coord α] (bulletVec : List (Bullet α)) :
    bulletStates (bulletVec.map Bullet.updateBullet) = bulletStates bulletVec := by
  simp [bulletStates, Function.comp_def]

-- A check hides at most one enemy bullet.
theorem checkCollisions_enemyBullets (platform : Platform α) (game : Collisions α) :
    StayDestroyed (bulletStates game.monsterCluster.bulletVec)
      (bulletStates (checkCollisions platform game).monsterCluster.bulletVec) := by
  rcases checkCollisions_cases platform game with ⟨_, _, _, hcheck⟩ |
    ⟨_, _, before, bullet, after, hbullets, _, _, hcheck⟩ | ⟨_, _, _, hcheck⟩ | ⟨_, _, _, hcheck⟩ |
    ⟨_, _, _, hcheck⟩ <;> rw [hcheck]
  · exact .refl _
  · rw [hbullets]
    simpa [struck, bulletStates] using stayDestroyed_set (bulletStates before)
      (bulletStates after) bullet.state
  · exact .refl _
  · exact .refl _
  · exact .refl _

-- The states of a row list with one cell, and after that cell is killed.
theorem states_cell (above below : List (List (Monster α))) (left right : List (Monster α))
    (monster : Monster α) :
    states (above ++ (left ++ monster :: right) :: below) =
      states above ++ (left.map Monster.state ++ monster.state :: right.map Monster.state) ::
        states below := by
  simp [states]

theorem count_flatten_cell (above below : List (List State)) (left right : List State)
    (state : State) :
    (above ++ (left ++ state :: right) :: below).flatten.count State.destroyed =
      (above.flatten ++ left ++ right ++ below.flatten).count State.destroyed +
        if state = .destroyed then 1 else 0 := by
  cases state <;> simp [List.count_append]; omega

theorem count_cell (left right : List State) (state : State) :
    (left ++ state :: right).count State.destroyed =
      (left ++ right).count State.destroyed + if state = .destroyed then 1 else 0 := by
  cases state <;> simp [List.count_append]; omega

theorem accounts_quiet {game next : Collisions α} (h : Accounts game) (hq : Quiet game next) :
    Accounts next := by
  obtain ⟨added, hrows⟩ := hq.rows
  have hcount : (states next.monsterCluster.rows).flatten.count State.destroyed =
      (states game.monsterCluster.rows).flatten.count State.destroyed := by
    have hadded : (added.map fun count => List.replicate count State.alive).flatten.count
        State.destroyed = 0 := by
      apply List.count_eq_zero.mpr
      simp [List.mem_flatten, List.mem_replicate]
    rw [hrows, List.flatten_append, List.count_append, hadded, Nat.add_zero]
  have htotal := hq.totalCount
  refine ⟨?_, ?_, ?_, ?_, ?_⟩
  · rw [hq.score]; exact h.score
  · rw [hq.score, hq.destroyedCount]; exact h.enemiesKilled
  · rw [hq.destroyedCount, hcount]; exact h.monsters
  · rw [hq.destroyedCount, hq.bullets.count_destroyed]; exact h.bullets
  · have := h.total
    omega

theorem accounts_kill (platform : Platform α) {game : Collisions α} (h : Accounts game)
    (hk : Kills platform game) : Accounts (checkCollisions platform game) := by
  obtain ⟨before, bullet, after, above, left, monster, right, below, hbullets, hrows, hmeets, hcheck⟩ :=
    checkCollisions_of_kill platform game hk
  obtain ⟨hbullet, hmonster, _⟩ := hmeets
  have hb := h.bullets
  have hm := h.monsters
  have ht := h.total
  have hs := h.score
  have he := h.enemiesKilled
  rw [hcheck]
  rw [hbullets, bulletStates, List.map_append, List.map_cons, count_cell] at hb
  rw [hrows, states_cell, count_flatten_cell] at hm
  rw [hrows, states_cell] at ht
  refine ⟨?_, ?_, ?_, ?_, ?_⟩
  · simp only [killed, Score.addScore, Score.addEnemyKilled]
    omega
  · simp only [killed, Score.addScore, Score.addEnemyKilled]
    omega
  · simp only [killed, states_cell, count_flatten_cell, Monster.kill_state]
    simp only [hmonster, reduceCtorEq, ite_true, ite_false] at hm ⊢
    omega
  · simp only [killed, bulletStates, List.map_append, List.map_cons, count_cell, Bullet.hide_state]
    simp only [hbullet, reduceCtorEq, ite_true, ite_false] at hb ⊢
    omega
  · simp only [killed, states_cell]
    simpa using ht

variable [Coord α]

theorem operate_addRow_quiet (platform : Platform α) (numberOfMonsters : Int) (game : Collisions α) :
    Quiet game { game with monsterCluster := game.monsterCluster.addRow platform numberOfMonsters } where
  score := rfl
  destroyedCount := rfl
  rows := ⟨[numberOfMonsters.toNat], by simp⟩
  totalCount := by
    have htotal : (game.monsterCluster.addRow platform numberOfMonsters).totalCount =
      game.monsterCluster.totalCount + numberOfMonsters.toNat := rfl
    simp [htotal]
  bullets := .refl _

theorem operate_move_quiet (platform : Platform α) (velocity : α) (windowWidth random : Nat)
    (game : Collisions α) (cluster : MonsterCluster α)
    (h : game.monsterCluster.move platform velocity windowWidth random = some cluster) :
    Quiet game { game with monsterCluster := cluster } := by
  obtain ⟨fired, cooldown, _, rfl⟩ := MonsterCluster.move_eq_some _ _ _ _ _ _ h
  exact quiet_of_cluster (by simp) (by simp) (by simp)

-- Either nobody is killed, or the operation is a collision check that kills.
theorem operate_cases (platform : Platform α) (operation : Operation α) (game next : Collisions α)
    (h : operate platform operation game = some next) :
    Quiet game next ∨ (Kills platform game ∧ next = checkCollisions platform game) := by
  cases operation with
  | addRow numberOfMonsters =>
      cases h
      exact .inl (operate_addRow_quiet platform numberOfMonsters game)
  | setPosition xPos yPos =>
      cases h
      exact .inl (quiet_of_cluster (by simp) rfl rfl)
  | move velocity windowWidth random =>
      obtain ⟨cluster, hmove, rfl⟩ := Option.map_eq_some_iff.mp h
      exact .inl (operate_move_quiet platform velocity windowWidth random game cluster hmove)
  | shoot =>
      cases h
      refine .inl (quiet_of_player ?_)
      rw [Player.shoot_bulletVec, bulletStates_append]
      apply Grown.append_alive
      intro bullet hb
      obtain ⟨x, y, rfl⟩ := Player.mem_shot platform _ bullet hb
      rfl
  | update controls windowSize =>
      cases h
      refine .inl (quiet_of_player ?_)
      rw [Player.update_bulletVec, bulletStates_update, bulletStates_append]
      apply Grown.append_alive
      intro bullet hb
      obtain ⟨x, y, rfl⟩ := Player.mem_spaceShot platform controls _ bullet hb
      rfl
  | setDestination destination =>
      cases h
      exact .inl (quiet_of_player (.refl _))
  | checkCollisions =>
      cases h
      by_cases hk : Kills platform game
      · exact .inr ⟨hk, rfl⟩
      · rw [checkCollisions_of_no_kill platform game hk]
        exact .inl (checkDamage_quiet platform game)

theorem accounts_fresh (platform : Platform α) (windowPosition : Vector2 Int) (state : State) :
    Accounts (fresh platform windowPosition state) :=
  ⟨rfl, rfl, rfl, rfl, rfl⟩

theorem accounts_run (platform : Platform α) (windowPosition : Vector2 Int) (state : State)
    (operations : List (Operation α)) (game : Collisions α)
    (h : Transition.run (operate platform) (fresh platform windowPosition state) operations = some game) :
    Accounts game := by
  apply Transition.run_invariant Accounts operations _ game ?_
    (accounts_fresh platform windowPosition state) h
  intro before operation after hvisit hinv
  rcases operate_cases platform operation before after hvisit.step_eq with hq | ⟨hk, rfl⟩
  · exact accounts_quiet hinv hq
  · exact accounts_kill platform hinv hk

-- A move adds at most one enemy bullet, and it is alive.
theorem move_bulletStates (platform : Platform α) (velocity : α) (windowWidth random : Nat)
    (cluster next : MonsterCluster α)
    (h : cluster.move platform velocity windowWidth random = some next) :
    Grown (bulletStates cluster.bulletVec) (bulletStates next.bulletVec) := by
  obtain ⟨fired, cooldown, hfired, rfl⟩ := MonsterCluster.move_eq_some _ _ _ _ _ _ h
  rw [bulletStates_update, bulletStates_append]
  apply Grown.append_alive
  rcases hfired with rfl | ⟨x, y, rfl⟩ <;> simp

theorem operate_enemyBullets (platform : Platform α) (operation : Operation α)
    (game next : Collisions α) (h : operate platform operation game = some next) :
    StayDestroyed (bulletStates game.monsterCluster.bulletVec)
      (bulletStates next.monsterCluster.bulletVec) := by
  cases operation with
  | move velocity windowWidth random =>
      obtain ⟨cluster, hmove, rfl⟩ := Option.map_eq_some_iff.mp h
      exact (move_bulletStates platform _ _ _ _ cluster hmove).stayDestroyed
  | checkCollisions =>
      cases h
      exact checkCollisions_enemyBullets platform game
  | _ =>
      cases h
      exact .refl _

theorem operate_stayDestroyed (platform : Platform α) (operation : Operation α)
    (game next : Collisions α) (h : operate platform operation game = some next) :
    RowsStayDestroyed (states game.monsterCluster.rows) (states next.monsterCluster.rows) ∧
    StayDestroyed (bulletStates game.player.bulletVec) (bulletStates next.player.bulletVec) := by
  rcases operate_cases platform operation game next h with hq | ⟨hk, rfl⟩
  · obtain ⟨added, hrows⟩ := hq.rows
    exact ⟨hrows ▸ rowsStayDestroyed_append _ _, hq.bullets.stayDestroyed⟩
  · obtain ⟨before, bullet, after, above, left, monster, right, below, hbullets, hrows, _, hcheck⟩ :=
      checkCollisions_of_kill platform game hk
    rw [hcheck, hrows, hbullets]
    constructor
    · simp only [killed, states_cell]
      exact rowsStayDestroyed_set _ _ _ _ (stayDestroyed_set _ _ _)
    · simpa [killed, bulletStates] using stayDestroyed_set (bulletStates before)
        (bulletStates after) bullet.state

-- The kill accounting of every run, and that no step undoes a kill.
theorem kill_accounting (platform : Platform α) (windowPosition : Vector2 Int) (state : State)
    (operations : List (Operation α)) (game : Collisions α)
    (h : Transition.run (operate platform) (fresh platform windowPosition state) operations =
      some game) :
    Accounts game ∧
    game.monsterCluster.destroyedCount ≤ game.monsterCluster.totalCount ∧
    (game.monsterCluster.destroyedCount = game.monsterCluster.totalCount ↔
      ∀ row ∈ game.monsterCluster.rows, ∀ monster ∈ row, monster.state ≠ .alive) ∧
    ∀ operation next, operate platform operation game = some next →
      RowsStayDestroyed (states game.monsterCluster.rows) (states next.monsterCluster.rows) ∧
      StayDestroyed (bulletStates game.player.bulletVec) (bulletStates next.player.bulletVec) ∧
      StayDestroyed (bulletStates game.monsterCluster.bulletVec)
        (bulletStates next.monsterCluster.bulletVec) := by
  have ha := accounts_run platform windowPosition state operations game h
  refine ⟨ha, ?_, ?_, ?_⟩
  · have hle := List.count_le_length (a := State.destroyed)
      (l := (states game.monsterCluster.rows).flatten)
    rw [ha.monsters, ha.total]
    omega
  · rw [ha.monsters, ha.total, Nat.cast_inj, List.count_eq_length]
    simp only [states, List.mem_flatten, List.mem_map]
    constructor
    · intro hall row hr monster hm halive
      have hd := hall monster.state ⟨_, ⟨row, hr, rfl⟩, List.mem_map_of_mem hm⟩
      rw [halive] at hd
      cases hd
    · rintro hall state ⟨_, ⟨row, hr, rfl⟩, hs⟩
      obtain ⟨monster, hm, rfl⟩ := List.mem_map.mp hs
      have hne := hall row hr monster hm
      cases hs : monster.state with
      | alive => exact absurd hs hne
      | destroyed => rfl
  · intro operation next hstep
    obtain ⟨hrows, hbullets⟩ := operate_stayDestroyed platform operation game next hstep
    exact ⟨hrows, hbullets, operate_enemyBullets platform operation game next hstep⟩

-- One monster in front of the ship, one shot, one check.
def duel : List (Operation ℚ) := [.addRow 1, .setPosition 50 0, .shoot, .checkCollisions]

theorem kill_accounting_duel :
    ∃ game, Transition.run (operate arcade) (fresh arcade ⟨0, 0⟩ .destroyed) duel = some game ∧
      game.score.score = 100 ∧ Accounts game ∧
      ∀ row ∈ game.monsterCluster.rows, ∀ monster ∈ row, monster.state ≠ .alive := by
  have hduel : (Transition.run (operate arcade) (fresh arcade ⟨0, 0⟩ .destroyed) duel).any (fun game =>
      game.score.score = 100 ∧
      game.monsterCluster.destroyedCount = game.monsterCluster.totalCount) = true := by
    decide +kernel
  obtain ⟨game, hrun, hgame⟩ := (Option.any_eq_true _ _).mp hduel
  simp only [decide_eq_true_eq] at hgame
  obtain ⟨haccounts, _, hall, _⟩ := kill_accounting arcade ⟨0, 0⟩ .destroyed duel game hrun
  exact ⟨game, hrun, hgame.1, haccounts, hall.mp hgame.2⟩

end SpaceInvaders.Collisions

import SpaceInvaders.GameProcessing.Collisions

namespace SpaceInvaders.Collisions

open FirstMatch

variable {α : Type}

-- The test that the three loops make of a player bullet and a monster.
def Meets (platform : Platform α) (bullet : Bullet α) (monster : Monster α) : Prop :=
  bullet.state = .alive ∧ monster.state = .alive ∧
    platform.intersects (bullet.getBoundingBox platform) (monster.getMonsterBounds platform) = true

-- Some player bullet kills a monster in this call.
def Kills (platform : Platform α) (game : Collisions α) : Prop :=
  ∃ bullet ∈ game.player.bulletVec, ∃ row ∈ game.monsterCluster.rows, ∃ monster ∈ row,
    Meets platform bullet monster

-- The box of the enemy bullet overlaps that of the ship.
def Strikes (platform : Platform α) (game : Collisions α) (bullet : Bullet α) : Prop :=
  platform.intersects (bullet.getBoundingBox platform)
    (game.player.getPlayerBounds platform) = true

instance instDecidableStrikes (platform : Platform α) (game : Collisions α) (bullet : Bullet α) :
    Decidable (Strikes platform game bullet) :=
  inferInstanceAs (Decidable (_ = true))

-- The player can be hit in this call.
def Vulnerable (game : Collisions α) : Prop :=
  game.player.state = .alive ∧ game.deathCooldown = 0

instance instDecidableVulnerable (game : Collisions α) : Decidable game.Vulnerable :=
  inferInstanceAs (Decidable (_ ∧ _))

theorem hitMonster_eq_none_iff (platform : Platform α) (box : FloatRect α) (monster : Monster α) :
    hitMonster platform box monster = none ↔
      ¬(monster.state = .alive ∧ platform.intersects box (monster.getMonsterBounds platform) = true) := by
  unfold hitMonster
  split_ifs <;> simp_all

theorem hitMonster_eq_some (platform : Platform α) (box : FloatRect α) (monster next : Monster α)
    (h : hitMonster platform box monster = some (next, ())) :
    monster.state = .alive ∧ platform.intersects box (monster.getMonsterBounds platform) = true ∧
      next = monster.kill := by
  unfold hitMonster at h
  split_ifs at h with hs hi
  simp only [Option.some.injEq, Prod.mk.injEq, and_true] at h
  exact ⟨not_not.mp hs, hi, h.symm⟩

theorem hitRows_eq_none_iff (platform : Platform α) (rows : List (List (Monster α)))
    (bullet : Bullet α) :
    hitRows platform rows bullet = none ↔
      ∀ row ∈ rows, ∀ monster ∈ row, ¬Meets platform bullet monster := by
  unfold hitRows
  split_ifs with hs
  · simp [Meets, hs]
  · rw [not_not] at hs
    simp [updateFirst_eq_none_iff, hitRow, hitMonster_eq_none_iff, Meets, hs]

theorem hitRows_eq_some (platform : Platform α) (rows found : List (List (Monster α)))
    (bullet next : Bullet α) (h : hitRows platform rows bullet = some (next, found)) :
    ∃ above left monster right below, rows = above ++ (left ++ monster :: right) :: below ∧
      Meets platform bullet monster ∧ next = bullet.hide ∧
      found = above ++ (left ++ monster.kill :: right) :: below := by
  unfold hitRows at h
  split_ifs at h with hs
  rw [not_not] at hs
  simp only [Option.map_eq_some_iff, Prod.exists, Prod.mk.injEq] at h
  obtain ⟨_, _, hrow, rfl, rfl⟩ := h
  obtain ⟨above, row, below, row', rfl, _, hcell, rfl⟩ := (updateFirst_eq_some_iff _ _ _ _).mp hrow
  obtain ⟨left, monster, right, killed, rfl, _, hm, rfl⟩ := (updateFirst_eq_some_iff _ _ _ _).mp hcell
  obtain ⟨halive, hmeet, rfl⟩ := hitMonster_eq_some platform _ monster killed hm
  exact ⟨above, left, monster, right, below, rfl, ⟨hs, halive, hmeet⟩, rfl, rfl⟩

theorem hitShip_eq_none_iff (platform : Platform α) (game : Collisions α) (bullet : Bullet α) :
    hitShip platform (game.player.getPlayerBounds platform) bullet = none ↔
      ¬Strikes platform game bullet := by
  unfold hitShip Strikes
  split_ifs <;> simp_all

theorem hitShip_eq_some (platform : Platform α) (game : Collisions α) (bullet next : Bullet α)
    (h : hitShip platform (game.player.getPlayerBounds platform) bullet = some (next, ())) :
    Strikes platform game bullet ∧ next = bullet.hide := by
  unfold hitShip at h
  split_ifs at h with hi
  simp only [Option.some.injEq, Prod.mk.injEq, and_true] at h
  exact ⟨hi, h.symm⟩

theorem no_kill_iff (platform : Platform α) (game : Collisions α) :
    updateFirst (hitRows platform game.monsterCluster.rows) game.player.bulletVec = none ↔
      ¬Kills platform game := by
  simp only [updateFirst_eq_none_iff, hitRows_eq_none_iff, Kills, not_exists, not_and]

-- What a call does when a bullet meets a monster: one of each is spent, and
-- nothing else happens.
def killed (game : Collisions α) (bulletVec : List (Bullet α)) (rows : List (List (Monster α))) :
    Collisions α :=
  { game with
    player := { game.player with bulletVec := bulletVec }
    monsterCluster :=
      { game.monsterCluster with
        rows := rows
        destroyedCount := game.monsterCluster.destroyedCount + 1 }
    score := game.score.addEnemyKilled.addScore 100 }

-- What a call does when an enemy bullet hits the ship.
def struck (game : Collisions α) (bulletVec : List (Bullet α)) : Collisions α :=
  { game with
    player := game.player.die
    monsterCluster := { game.monsterCluster with bulletVec := bulletVec }
    deathCooldown := game.deathCooldown + 1 }

theorem checkCollisions_of_kill (platform : Platform α) (game : Collisions α)
    (h : Kills platform game) :
    ∃ before bullet after above left monster right below,
      game.player.bulletVec = before ++ bullet :: after ∧
      game.monsterCluster.rows = above ++ (left ++ monster :: right) :: below ∧
      Meets platform bullet monster ∧
      checkCollisions platform game = killed game (before ++ bullet.hide :: after)
        (above ++ (left ++ monster.kill :: right) :: below) := by
  cases hk : updateFirst (hitRows platform game.monsterCluster.rows) game.player.bulletVec with
  | none => exact absurd h ((no_kill_iff platform game).mp hk)
  | some found =>
      obtain ⟨bulletVec, rows⟩ := found
      obtain ⟨before, bullet, after, next, hbullets, _, hbullet, rfl⟩ :=
        (updateFirst_eq_some_iff _ _ _ _).mp hk
      obtain ⟨above, left, monster, right, below, hrows, hmeets, rfl, rfl⟩ :=
        hitRows_eq_some platform _ rows bullet next hbullet
      refine ⟨before, bullet, after, above, left, monster, right, below, hbullets, hrows, hmeets, ?_⟩
      simp only [checkCollisions, hk, killed]

theorem checkCollisions_of_no_kill (platform : Platform α) (game : Collisions α)
    (h : ¬Kills platform game) :
    checkCollisions platform game = checkDamage platform game := by
  simp only [checkCollisions, (no_kill_iff platform game).mpr h]

-- The four ways through the damage part, with the guard of each.
theorem checkDamage_cases (platform : Platform α) (game : Collisions α) :
    (game.Vulnerable ∧ ∃ before bullet after,
      game.monsterCluster.bulletVec = before ++ bullet :: after ∧
      (∀ other ∈ before, ¬Strikes platform game other) ∧ Strikes platform game bullet ∧
      checkDamage platform game = struck game (before ++ bullet.hide :: after)) ∨
    (game.Vulnerable ∧ (∀ bullet ∈ game.monsterCluster.bulletVec, ¬Strikes platform game bullet) ∧
      checkDamage platform game = game) ∨
    (¬game.Vulnerable ∧ game.deathCooldown < 50 ∧
      checkDamage platform game = { game with deathCooldown := game.deathCooldown + 1 }) ∨
    (¬game.Vulnerable ∧ ¬game.deathCooldown < 50 ∧
      checkDamage platform game =
        { game with player := { game.player with state := .alive }, deathCooldown := 0 }) := by
  by_cases hv : game.Vulnerable
  · have hguard : game.player.state = .alive ∧ game.deathCooldown = 0 := hv
    cases hs : updateFirst (hitShip platform (game.player.getPlayerBounds platform))
        game.monsterCluster.bulletVec with
    | none =>
        refine .inr (.inl ⟨hv, ?_, by simp [checkDamage, hguard, hs]⟩)
        intro bullet hb
        exact (hitShip_eq_none_iff platform game bullet).mp
          ((updateFirst_eq_none_iff _ _).mp hs bullet hb)
    | some found =>
        obtain ⟨bulletVec, _⟩ := found
        obtain ⟨before, bullet, after, next, hbullets, hnone, hbullet, rfl⟩ :=
          (updateFirst_eq_some_iff _ _ _ _).mp hs
        obtain ⟨hstrikes, rfl⟩ := hitShip_eq_some platform game bullet next hbullet
        refine .inl ⟨hv, before, bullet, after, hbullets, ?_, hstrikes, ?_⟩
        · intro other ho
          exact (hitShip_eq_none_iff platform game other).mp (hnone other ho)
        · simp [checkDamage, hguard, hs, struck]
  · have hguard : ¬(game.player.state = .alive ∧ game.deathCooldown = 0) := hv
    by_cases hc : game.deathCooldown < 50
    · exact .inr (.inr (.inl ⟨hv, hc, by simp only [checkDamage, hguard, hc, ite_true, ite_false]⟩))
    · exact .inr (.inr (.inr ⟨hv, hc, by simp only [checkDamage, hguard, hc, ite_false]⟩))

-- The five ways through a call.
theorem checkCollisions_cases (platform : Platform α) (game : Collisions α) :
    (Kills platform game ∧ ∃ bulletVec rows,
      checkCollisions platform game = killed game bulletVec rows) ∨
    (¬Kills platform game ∧ game.Vulnerable ∧ ∃ before bullet after,
      game.monsterCluster.bulletVec = before ++ bullet :: after ∧
      (∀ other ∈ before, ¬Strikes platform game other) ∧ Strikes platform game bullet ∧
      checkCollisions platform game = struck game (before ++ bullet.hide :: after)) ∨
    (¬Kills platform game ∧ game.Vulnerable ∧
      (∀ bullet ∈ game.monsterCluster.bulletVec, ¬Strikes platform game bullet) ∧
      checkCollisions platform game = game) ∨
    (¬Kills platform game ∧ ¬game.Vulnerable ∧ game.deathCooldown < 50 ∧
      checkCollisions platform game = { game with deathCooldown := game.deathCooldown + 1 }) ∨
    (¬Kills platform game ∧ ¬game.Vulnerable ∧ ¬game.deathCooldown < 50 ∧
      checkCollisions platform game =
        { game with player := { game.player with state := .alive }, deathCooldown := 0 }) := by
  by_cases hk : Kills platform game
  · obtain ⟨_, _, _, _, _, _, _, _, _, _, _, hcheck⟩ := checkCollisions_of_kill platform game hk
    exact .inl ⟨hk, _, _, hcheck⟩
  · right
    rw [checkCollisions_of_no_kill platform game hk]
    simpa only [hk, not_false_eq_true, true_and] using checkDamage_cases platform game

theorem die_lives (player : Player α) :
    player.die.lives = if 0 < player.lives then player.lives - 1 else player.lives := by
  unfold Player.die
  split_ifs <;> rfl

theorem die_bulletVec (player : Player α) : player.die.bulletVec = player.bulletVec := by
  unfold Player.die
  split_ifs <;> rfl

-- A check moves no monster and changes the speed of no bullet.
theorem checkCollisions_keeps (platform : Platform α) (game : Collisions α) :
    (checkCollisions platform game).monsterCluster.rows.map (List.map Monster.position) =
      game.monsterCluster.rows.map (List.map Monster.position) ∧
    (checkCollisions platform game).player.bulletVec.map Bullet.speed =
      game.player.bulletVec.map Bullet.speed ∧
    (checkCollisions platform game).monsterCluster.bulletVec.map Bullet.speed =
      game.monsterCluster.bulletVec.map Bullet.speed := by
  by_cases hk : Kills platform game
  · obtain ⟨before, bullet, after, above, left, monster, right, below, hbullets, hrows, _, heq⟩ :=
      checkCollisions_of_kill platform game hk
    simp [heq, killed, hbullets, hrows]
  · rw [checkCollisions_of_no_kill platform game hk]
    rcases checkDamage_cases platform game with
      ⟨_, before, bullet, after, hbullets, _, _, heq⟩ | ⟨_, _, heq⟩ | ⟨_, _, heq⟩ | ⟨_, _, heq⟩
    · simp [heq, struck, hbullets, die_bulletVec]
    · simp [heq]
    · simp [heq]
    · simp [heq]

end SpaceInvaders.Collisions

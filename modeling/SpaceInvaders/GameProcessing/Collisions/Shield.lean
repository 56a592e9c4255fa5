import SpaceInvaders.GameProcessing.Collisions.Lemmas

namespace SpaceInvaders.Collisions

open FirstMatch

variable {α : Type}

-- The two games agree on all that the damage part reads.
structure SameDanger (first second : Collisions α) : Prop where
  position : first.player.position = second.player.position
  spawnPosition : first.player.spawnPosition = second.player.spawnPosition
  lives : first.player.lives = second.player.lives
  state : first.player.state = second.player.state
  bulletVec : first.monsterCluster.bulletVec = second.monsterCluster.bulletVec
  deathCooldown : first.deathCooldown = second.deathCooldown

-- The two games agree on what becomes of the player.
structure SameDamage (first second : Collisions α) : Prop where
  position : first.player.position = second.player.position
  lives : first.player.lives = second.player.lives
  state : first.player.state = second.player.state
  bulletStates : first.monsterCluster.bulletVec.map Bullet.state =
    second.monsterCluster.bulletVec.map Bullet.state
  deathCooldown : first.deathCooldown = second.deathCooldown

-- The player can be hit, the death cooldown does not run and no enemy bullet hits.
def Unthreatened (platform : Platform α) (game : Collisions α) : Prop :=
  game.Vulnerable ∧ ∀ bullet ∈ game.monsterCluster.bulletVec, ¬Strikes platform game bullet

namespace SameDamage

theorem symm {first second : Collisions α} (h : SameDamage first second) :
    SameDamage second first :=
  ⟨h.position.symm, h.lives.symm, h.state.symm, h.bulletStates.symm, h.deathCooldown.symm⟩

theorem trans {first second third : Collisions α} (h : SameDamage first second)
    (h' : SameDamage second third) : SameDamage first third :=
  ⟨h.position.trans h'.position, h.lives.trans h'.lives, h.state.trans h'.state,
    h.bulletStates.trans h'.bulletStates, h.deathCooldown.trans h'.deathCooldown⟩

end SameDamage

namespace SameDanger

theorem symm {first second : Collisions α} (h : SameDanger first second) :
    SameDanger second first :=
  ⟨h.position.symm, h.spawnPosition.symm, h.lives.symm, h.state.symm, h.bulletVec.symm,
    h.deathCooldown.symm⟩

theorem trans {first second third : Collisions α} (h : SameDanger first second)
    (h' : SameDanger second third) : SameDanger first third :=
  ⟨h.position.trans h'.position, h.spawnPosition.trans h'.spawnPosition, h.lives.trans h'.lives,
    h.state.trans h'.state, h.bulletVec.trans h'.bulletVec, h.deathCooldown.trans h'.deathCooldown⟩

theorem sameDamage {first second : Collisions α} (h : SameDanger first second) :
    SameDamage first second :=
  ⟨h.position, h.lives, h.state, congrArg _ h.bulletVec, h.deathCooldown⟩

theorem die {first second : Collisions α} (h : SameDanger first second) :
    first.player.die.position = second.player.die.position ∧
      first.player.die.spawnPosition = second.player.die.spawnPosition ∧
      first.player.die.lives = second.player.die.lives ∧
      first.player.die.state = second.player.die.state := by
  unfold Player.die
  rw [h.lives]
  split_ifs
  · simp only [Player.setPosition, h.spawnPosition, and_self]
  · exact ⟨h.position, h.spawnPosition, h.lives, h.state⟩

end SameDanger

theorem checkDamage_sameDanger (platform : Platform α) (first second : Collisions α)
    (h : SameDanger first second) :
    SameDanger (checkDamage platform first) (checkDamage platform second) := by
  have hbounds : first.player.getPlayerBounds platform = second.player.getPlayerBounds platform :=
    congrArg platform.shipBounds h.position
  unfold checkDamage
  rw [h.state, h.deathCooldown, hbounds, h.bulletVec]
  obtain ⟨hposition, hspawn, hlives, hstate⟩ := h.die
  split_ifs
  · split
    · exact ⟨hposition, hspawn, hlives, hstate, rfl, rfl⟩
    · exact h
  · exact ⟨h.position, h.spawnPosition, h.lives, h.state, h.bulletVec, rfl⟩
  · exact ⟨h.position, h.spawnPosition, h.lives, rfl, h.bulletVec, rfl⟩

-- A call with a kill leaves the damage part undone.
theorem checkCollisions_sameDanger_of_kill (platform : Platform α) (game : Collisions α)
    (h : Kills platform game) : SameDanger (checkCollisions platform game) game := by
  obtain ⟨before, bullet, after, above, left, monster, right, below, _, _, _, heq⟩ :=
    checkCollisions_of_kill platform game h
  rw [heq]
  exact ⟨rfl, rfl, rfl, rfl, rfl, rfl⟩

-- The damage part has no visible effect exactly when nothing threatens the player.
theorem checkDamage_sameDamage_iff (platform : Platform α) (game : Collisions α) :
    SameDamage game (checkDamage platform game) ↔ Unthreatened platform game := by
  have hdiffers (h : game.deathCooldown ≠ (checkDamage platform game).deathCooldown) :
      ¬SameDamage game (checkDamage platform game) := fun hs => h hs.deathCooldown
  rcases checkDamage_cases platform game with ⟨hv, before, bullet, after, hb, _, hs, heq⟩ |
    ⟨hv, hnone, heq⟩ | ⟨hv, hc, heq⟩ | ⟨hv, hc, heq⟩
  · have hmem : bullet ∈ game.monsterCluster.bulletVec := by simp [hb]
    refine iff_of_false (hdiffers ?_) fun h => h.2 bullet hmem hs
    rw [heq]
    simp only [struck]
    omega
  · rw [heq]
    exact ⟨fun _ => ⟨hv, hnone⟩, fun _ => ⟨rfl, rfl, rfl, rfl, rfl⟩⟩
  · refine iff_of_false (hdiffers ?_) fun h => hv h.1
    rw [heq]
    dsimp only
    omega
  · refine iff_of_false (hdiffers ?_) fun h => hv h.1
    rw [heq]
    dsimp only
    omega

theorem Unthreatened.congr {platform : Platform α} {first second : Collisions α}
    (h : SameDanger first second) :
    Unthreatened platform first ↔ Unthreatened platform second := by
  have hbounds : first.player.getPlayerBounds platform = second.player.getPlayerBounds platform :=
    congrArg platform.shipBounds h.position
  unfold Unthreatened Vulnerable Strikes
  rw [h.state, h.deathCooldown, h.bulletVec, hbounds]

-- With a kill in the first game only, the second ends like the first exactly
-- when nothing threatens the player.
theorem sameDamage_of_one_kill (platform : Platform α) (first second : Collisions α)
    (h : SameDanger first second) (hfirst : Kills platform first) (hsecond : ¬Kills platform second) :
    SameDamage (checkCollisions platform first) (checkCollisions platform second) ↔
      Unthreatened platform second := by
  have hkill := ((checkCollisions_sameDanger_of_kill platform first hfirst).trans h).sameDamage
  rw [checkCollisions_of_no_kill platform second hsecond, ← checkDamage_sameDamage_iff]
  exact ⟨hkill.symm.trans, hkill.trans⟩

-- Two games with the same danger end with the same damage exactly when both or
-- neither of them kill, or when nothing threatens the player.
theorem sameDamage_iff (platform : Platform α) (first second : Collisions α)
    (h : SameDanger first second) :
    SameDamage (checkCollisions platform first) (checkCollisions platform second) ↔
      (Kills platform first ↔ Kills platform second) ∨ Unthreatened platform first := by
  by_cases hfirst : Kills platform first <;> by_cases hsecond : Kills platform second
  · have hboth := ((checkCollisions_sameDanger_of_kill platform first hfirst).trans h).trans
      (checkCollisions_sameDanger_of_kill platform second hsecond).symm
    simp [hfirst, hsecond, hboth.sameDamage]
  · simp [hfirst, hsecond, sameDamage_of_one_kill platform first second h hfirst hsecond,
      Unthreatened.congr h]
  · have hone := sameDamage_of_one_kill platform second first h.symm hsecond hfirst
    simp only [hfirst, hsecond, ← hone, iff_true, false_or]
    exact ⟨SameDamage.symm, SameDamage.symm⟩
  · rw [checkCollisions_of_no_kill platform first hfirst,
      checkCollisions_of_no_kill platform second hsecond]
    simp [hfirst, hsecond, (checkDamage_sameDanger platform first second h).sameDamage]

-- The ship at (500, 500), with an enemy bullet on it.
def underFire (bulletVec : List (Bullet ℚ)) (rows : List (List (Monster ℚ))) : Collisions ℚ :=
  let player := (Player.new arcade ⟨0, 0⟩ .alive).setPosition 500 500
  let cluster := MonsterCluster.new arcade
  new { player with bulletVec := bulletVec }
    { cluster with rows := rows, bulletVec := [Bullet.new 550 550 (-5)] } Score.new

theorem sameDamage_iff_underFire :
    SameDamage (checkCollisions arcade (underFire [] []))
      (checkCollisions arcade (underFire [Bullet.new 25 25 5] [])) := by
  have hdanger : SameDanger (underFire [] []) (underFire [Bullet.new 25 25 5] []) :=
    ⟨rfl, rfl, rfl, rfl, rfl, rfl⟩
  refine (sameDamage_iff arcade _ _ hdanger).mpr (.inl ?_)
  simp [Kills, underFire, new, MonsterCluster.new]

-- The player keeps its life in the pass in which its bullet kills a monster.
theorem kill_shields :
    SameDanger (underFire [Bullet.new 25 25 5] [[Monster.new arcade]]) (underFire [] []) ∧
    ¬ SameDamage (checkCollisions arcade (underFire [Bullet.new 25 25 5] [[Monster.new arcade]]))
      (checkCollisions arcade (underFire [] [])) := by
  refine ⟨⟨rfl, rfl, rfl, rfl, rfl, rfl⟩, fun h => ?_⟩
  have hlives := h.lives
  revert hlives
  decide +kernel

end SpaceInvaders.Collisions

import SpaceInvaders.GameProcessing.Collisions.Lemmas
import SpaceInvaders.Entity.MonsterCluster.Lemmas

namespace SpaceInvaders.Collisions

open FirstMatch
open MonsterCluster (cell)

variable {α : Type}

-- The bullet and the monster at these places meet.
def PairAt (platform : Platform α) (game : Collisions α) (index row col : Nat) : Prop :=
  ∃ bullet monster, game.player.bulletVec[index]? = some bullet ∧
    cell game.monsterCluster.rows row col = some monster ∧ Meets platform bullet monster

-- The pair that the three loops come to first.
structure FirstPair (platform : Platform α) (game : Collisions α) (index row col : Nat) : Prop where
  pair : PairAt platform game index row col
  leastBullet : ∀ index' row' col', PairAt platform game index' row' col' → index ≤ index'
  leastRow : ∀ row' col', PairAt platform game index row' col' → row ≤ row'
  leastCol : ∀ col', PairAt platform game index row col' → col ≤ col'

-- No pair is left for the next call.
def Resolved (platform : Platform α) (game : Collisions α) : Prop :=
  ¬∃ index row col, PairAt platform game index row col

def DiesAt (game next : Collisions α) (row col : Nat) : Prop :=
  ∃ monster dead, cell game.monsterCluster.rows row col = some monster ∧ monster.state = .alive ∧
    cell next.monsterCluster.rows row col = some dead ∧ dead.state = .destroyed

-- Each monster that dies has a bullet of its own, which met it and is used up.
def OneEach (platform : Platform α) (game next : Collisions α) : Prop :=
  ∃ slayer : Nat → Nat → Nat,
    (∀ row col, DiesAt game next row col → PairAt platform game (slayer row col) row col ∧
      ∃ spent, next.player.bulletVec[slayer row col]? = some spent ∧ spent.state = .destroyed) ∧
    ∀ row col row' col', DiesAt game next row col → DiesAt game next row' col' →
      slayer row col = slayer row' col' → row = row' ∧ col = col'

-- Every pair shares the bullet or the monster with the first one.
def SharesFirst (platform : Platform α) (game : Collisions α) : Prop :=
  ∀ index row col, FirstPair platform game index row col →
    ∀ index' row' col', PairAt platform game index' row' col' →
      index' = index ∨ (row' = row ∧ col' = col)

theorem exists_least (p : Nat → Prop) (h : ∃ n, p n) : ∃ n, p n ∧ ∀ m, p m → n ≤ m := by
  classical
  exact ⟨Nat.find h, Nat.find_spec h, fun _ => Nat.find_min' h⟩

theorem exists_firstPair (platform : Platform α) (game : Collisions α)
    (h : ∃ index row col, PairAt platform game index row col) :
    ∃ index row col, FirstPair platform game index row col := by
  obtain ⟨index, hindex, hbullet⟩ := exists_least _ h
  obtain ⟨row, hr, hrow⟩ := exists_least _ hindex
  obtain ⟨col, hpair, hcol⟩ := exists_least _ hr
  refine ⟨index, row, col, hpair, ?_, fun row' col' hp => hrow row' ⟨col', hp⟩, hcol⟩
  exact fun index' row' col' hp => hbullet index' ⟨row', col', hp⟩

theorem firstPair_unique (platform : Platform α) (game : Collisions α)
    (index row col index' row' col' : Nat) (h : FirstPair platform game index row col)
    (h' : FirstPair platform game index' row' col') :
    index = index' ∧ row = row' ∧ col = col' := by
  have hindex : index = index' :=
    Nat.le_antisymm (h.leastBullet _ _ _ h'.pair) (h'.leastBullet _ _ _ h.pair)
  subst index'
  have hrow : row = row' := Nat.le_antisymm (h.leastRow _ _ h'.pair) (h'.leastRow _ _ h.pair)
  subst row'
  exact ⟨rfl, rfl, Nat.le_antisymm (h.leastCol _ h'.pair) (h'.leastCol _ h.pair)⟩

theorem kills_iff_pair (platform : Platform α) (game : Collisions α) :
    Kills platform game ↔ ∃ index row col, PairAt platform game index row col := by
  constructor
  · rintro ⟨bullet, hb, row, hr, monster, hm, hmeets⟩
    obtain ⟨index, hindex⟩ := List.mem_iff_getElem?.mp hb
    obtain ⟨place, hplace⟩ := List.mem_iff_getElem?.mp hr
    obtain ⟨col, hcol⟩ := List.mem_iff_getElem?.mp hm
    exact ⟨index, place, col, bullet, monster, hindex, by simp [cell, hplace, hcol], hmeets⟩
  · rintro ⟨index, row, col, bullet, monster, hindex, hcell, hmeets⟩
    obtain ⟨found, hrow, hcol⟩ := Option.bind_eq_some_iff.mp hcell
    exact ⟨bullet, List.mem_of_getElem? hindex, found, List.mem_of_getElem? hrow, monster,
      List.mem_of_getElem? hcol, hmeets⟩

theorem modify_eq_set_of_some {β : Type} (body : β → β) (items : List β) (index : Nat) (item : β)
    (h : items[index]? = some item) : items.modify index body = items.set index (body item) := by
  rw [List.modify_eq_set_getElem?, h]
  rfl

-- The call kills the first pair and does nothing else.
theorem checkCollisions_of_firstPair (platform : Platform α) (game : Collisions α)
    (index row col : Nat) (h : FirstPair platform game index row col) :
    checkCollisions platform game = killed game (game.player.bulletVec.modify index Bullet.hide)
      (game.monsterCluster.killAt row col).rows := by
  obtain ⟨⟨bullet, monster, hbullet, hcell, hmeets⟩, hleastBullet, hleastRow, hleastCol⟩ := h
  obtain ⟨found, hfound, hmonster⟩ := Option.bind_eq_some_iff.mp hcell
  obtain ⟨hb, hm, hoverlap⟩ := hmeets
  have hhit : hitMonster platform (bullet.getBoundingBox platform) monster = some (monster.kill, ()) := by
    simp [hitMonster, hm, hoverlap]
  have hrow : hitRow platform (bullet.getBoundingBox platform) found =
      some (found.set col monster.kill, ()) := by
    refine updateFirst_at _ found col monster monster.kill () hmonster hhit ?_
    intro earlier other hlt hother
    rw [hitMonster_eq_none_iff]
    rintro ⟨halive, hmeet⟩
    have := hleastCol earlier ⟨bullet, other, hbullet, by simp [cell, hfound, hother], hb, halive, hmeet⟩
    omega
  have hrows : hitRows platform game.monsterCluster.rows bullet =
      some (bullet.hide, game.monsterCluster.rows.set row (found.set col monster.kill)) := by
    have hupdate := updateFirst_at (hitRow platform (bullet.getBoundingBox platform))
      game.monsterCluster.rows row found (found.set col monster.kill) () hfound hrow ?_
    · simp [hitRows, hb, hupdate]
    · intro earlier other hlt hother
      rw [hitRow, updateFirst_eq_none_iff]
      intro third ht
      rw [hitMonster_eq_none_iff]
      rintro ⟨halive, hmeet⟩
      obtain ⟨place, hplace⟩ := List.mem_iff_getElem?.mp ht
      have := hleastRow earlier place
        ⟨bullet, third, hbullet, by simp [cell, hother, hplace], hb, halive, hmeet⟩
      omega
  have hbullets := updateFirst_at (hitRows platform game.monsterCluster.rows) game.player.bulletVec
    index bullet bullet.hide _ hbullet hrows ?_
  · simp only [checkCollisions, hbullets, killed, MonsterCluster.killAt,
      modify_eq_set_of_some _ _ _ _ hbullet, modify_eq_set_of_some _ _ _ _ hfound,
      modify_eq_set_of_some _ _ _ _ hmonster]
  · intro earlier other hlt hother
    rw [hitRows_eq_none_iff]
    intro line hl third ht hmeet
    obtain ⟨place, hplace⟩ := List.mem_iff_getElem?.mp hl
    obtain ⟨at_, hat⟩ := List.mem_iff_getElem?.mp ht
    have := hleastBullet earlier place at_ ⟨other, third, hother, by simp [cell, hplace, hat], hmeet⟩
    omega

-- A kill takes away the pairs of its bullet and those of its monster.
theorem pairAt_of_firstPair (platform : Platform α) (game : Collisions α) (index row col : Nat)
    (h : FirstPair platform game index row col) (index' row' col' : Nat) :
    PairAt platform (checkCollisions platform game) index' row' col' ↔
      PairAt platform game index' row' col' ∧ index' ≠ index ∧ ¬(row' = row ∧ col' = col) := by
  rw [checkCollisions_of_firstPair platform game index row col h]
  have hcell := MonsterCluster.cell_killAt row col row' col' game.monsterCluster
  constructor
  · rintro ⟨bullet, monster, hbullet, hmonster, halive, hstate, hoverlap⟩
    simp only [killed, List.getElem?_modify, Option.map_eq_map, Option.map_eq_some_iff] at hbullet
    simp only [killed, hcell, Option.map_eq_some_iff] at hmonster
    obtain ⟨bullet', hbullet', rfl⟩ := hbullet
    obtain ⟨monster', hmonster', rfl⟩ := hmonster
    by_cases hi : index = index'
    · rw [if_pos hi] at halive
      cases halive
    · by_cases hc : row = row' ∧ col = col'
      · rw [if_pos hc] at hstate
        cases hstate
      · rw [if_neg hi] at halive hoverlap
        rw [if_neg hc] at hstate hoverlap
        exact ⟨⟨bullet', monster', hbullet', hmonster', halive, hstate, hoverlap⟩, fun he => hi he.symm,
          fun he => hc ⟨he.1.symm, he.2.symm⟩⟩
  · rintro ⟨⟨bullet, monster, hbullet, hmonster, hmeets⟩, hi, hc⟩
    refine ⟨bullet, monster, ?_, ?_, hmeets⟩
    · have hi' : index ≠ index' := fun he => hi he.symm
      simp [killed, hi', hbullet]
    · have hc' : ¬(row = row' ∧ col = col') := fun he => hc ⟨he.1.symm, he.2.symm⟩
      simp only [killed, hcell, hmonster, Option.map_some, if_neg hc']

-- Without a pair the call touches no player bullet and no monster.
theorem checkCollisions_of_no_pair (platform : Platform α) (game : Collisions α)
    (h : Resolved platform game) :
    (checkCollisions platform game).player.bulletVec = game.player.bulletVec ∧
      (checkCollisions platform game).monsterCluster.rows = game.monsterCluster.rows := by
  rw [checkCollisions_of_no_kill platform game (mt (kills_iff_pair platform game).mp h)]
  rcases checkDamage_cases platform game with
    ⟨_, _, _, _, _, _, _, hd⟩ | ⟨_, _, hd⟩ | ⟨_, _, hd⟩ | ⟨_, _, hd⟩ <;> rw [hd]
  · exact ⟨die_bulletVec game.player, rfl⟩
  · exact ⟨rfl, rfl⟩
  · exact ⟨rfl, rfl⟩
  · exact ⟨rfl, rfl⟩

theorem diesAt_of_firstPair (platform : Platform α) (game : Collisions α) (index row col : Nat)
    (h : FirstPair platform game index row col) (row' col' : Nat)
    (hdies : DiesAt game (checkCollisions platform game) row' col') : row' = row ∧ col' = col := by
  obtain ⟨monster, dead, hmonster, halive, hdead, hstate⟩ := hdies
  rw [checkCollisions_of_firstPair platform game index row col h] at hdead
  have hcell := MonsterCluster.cell_killAt row col row' col' game.monsterCluster
  simp only [killed, hcell, hmonster, Option.map_some, Option.some.injEq] at hdead
  by_contra hother
  have hc' : ¬(row = row' ∧ col = col') := fun he => hother ⟨he.1.symm, he.2.symm⟩
  rw [if_neg hc'] at hdead
  rw [← hdead, halive] at hstate
  cases hstate

-- At most one monster dies in a call.
theorem oneEach (platform : Platform α) (game : Collisions α) :
    OneEach platform game (checkCollisions platform game) := by
  by_cases hpair : ∃ index row col, PairAt platform game index row col
  · obtain ⟨index, row, col, hfirst⟩ := exists_firstPair platform game hpair
    have hdies := diesAt_of_firstPair platform game index row col hfirst
    refine ⟨fun _ _ => index, fun row' col' h => ?_, fun row' col' row'' col'' h h' _ => ?_⟩
    · obtain ⟨rfl, rfl⟩ := hdies row' col' h
      obtain ⟨bullet, _, hbullet, _, _⟩ := hfirst.pair
      refine ⟨hfirst.pair, bullet.hide, ?_, rfl⟩
      rw [checkCollisions_of_firstPair platform game index row' col' hfirst]
      simp [killed, hbullet]
    · obtain ⟨rfl, rfl⟩ := hdies row' col' h
      obtain ⟨rfl, rfl⟩ := hdies row'' col'' h'
      exact ⟨rfl, rfl⟩
  · have hnone (row col : Nat) : ¬DiesAt game (checkCollisions platform game) row col := by
      rintro ⟨monster, dead, hmonster, halive, hdead, hstate⟩
      rw [(checkCollisions_of_no_pair platform game hpair).2, hmonster] at hdead
      cases hdead
      rw [halive] at hstate
      cases hstate
    exact ⟨fun _ _ => 0, fun row col h => absurd h (hnone row col),
      fun row col _ _ h => absurd h (hnone row col)⟩

-- One call resolves all collisions, with a bullet for each dead monster, if and only
-- if the first kill leaves no pair of another bullet and another monster.
theorem resolution_iff (platform : Platform α) (game : Collisions α) :
    (Resolved platform (checkCollisions platform game) ∧
      OneEach platform game (checkCollisions platform game)) ↔ SharesFirst platform game := by
  simp only [oneEach platform game, and_true]
  constructor
  · intro hresolved index row col hfirst index' row' col' hpair
    by_contra hother
    simp only [not_or] at hother
    exact hresolved ⟨index', row', col',
      (pairAt_of_firstPair platform game index row col hfirst index' row' col').mpr ⟨hpair, hother⟩⟩
  · rintro hshares ⟨index', row', col', hleft⟩
    by_cases hpair : ∃ index row col, PairAt platform game index row col
    · obtain ⟨index, row, col, hfirst⟩ := exists_firstPair platform game hpair
      obtain ⟨hbefore, hi, hc⟩ :=
        (pairAt_of_firstPair platform game index row col hfirst index' row' col').mp hleft
      rcases hshares index row col hfirst index' row' col' hbefore with he | he
      · exact hi he
      · exact hc he
    · obtain ⟨hbullets, hrows⟩ := checkCollisions_of_no_pair platform game hpair
      obtain ⟨bullet, monster, hbullet, hmonster, hmeets⟩ := hleft
      rw [hbullets] at hbullet
      rw [hrows] at hmonster
      exact hpair ⟨index', row', col', bullet, monster, hbullet, hmonster, hmeets⟩

-- Two monsters, each with a bullet on it.
def volley : Collisions ℚ :=
  let player := Player.new arcade ⟨0, 0⟩ .alive
  let cluster := (MonsterCluster.new arcade).addRow arcade 2
  new { player with bulletVec := [Bullet.new (-50) 10 5, Bullet.new 50 10 5] } cluster Score.new

theorem volley_unresolved :
    ¬(Resolved arcade (checkCollisions arcade volley) ∧
      OneEach arcade volley (checkCollisions arcade volley)) := by
  rintro ⟨hresolved, _⟩
  have hbullet : ((checkCollisions arcade volley).player.bulletVec[1]?.any fun bullet =>
      (cell (checkCollisions arcade volley).monsterCluster.rows 0 1).any fun monster =>
        bullet.state = .alive ∧ monster.state = .alive ∧
          arcade.intersects (bullet.getBoundingBox arcade) (monster.getMonsterBounds arcade) = true) =
      true := by
    decide +kernel
  obtain ⟨bullet, hbullet, hcell⟩ := (Option.any_eq_true _ _).mp hbullet
  obtain ⟨monster, hmonster, hmeets⟩ := (Option.any_eq_true _ _).mp hcell
  have hpair := of_decide_eq_true hmeets
  exact hresolved ⟨1, 0, 1, bullet, monster, hbullet, hmonster, hpair⟩

end SpaceInvaders.Collisions

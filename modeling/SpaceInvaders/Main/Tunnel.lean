import SpaceInvaders.Main.Lemmas
import SpaceInvaders.GameProcessing.Collisions.Resolution

namespace SpaceInvaders

open Collisions
open MonsterCluster (cell displacement)

-- The boxes of bullets and monsters have one size each and go with the position.
structure Platform.Rigid (platform : Platform ℚ) (bulletBox : FloatRect ℚ) (monsterSize : Vector2 ℚ) :
    Prop where
  bullet : ∀ position, platform.bulletBounds position =
    ⟨position.x + bulletBox.left, position.y + bulletBox.top, bulletBox.width, bulletBox.height⟩
  monster : ∀ position, platform.monsterBounds position = FloatRect.ofSize monsterSize position
  intersects : platform.intersects = FloatRect.overlaps
  bullet_width : 0 < bulletBox.width
  bullet_height : 0 < bulletBox.height
  monster_width : 0 < monsterSize.x
  monster_height : 0 < monsterSize.y

-- Wholly below: y grows downwards.
def FloatRect.Under (first second : FloatRect ℚ) : Prop := second.top + second.height ≤ first.top

-- The horizontal extents overlap.
def FloatRect.Abreast (first second : FloatRect ℚ) : Prop :=
  first.left < second.left + second.width ∧ second.left < first.left + first.width

-- Both at these places, before and after, and both alive each time.
structure AliveThroughout (game next : Collisions ℚ) (index row col : Nat)
    (bullet bullet' : Bullet ℚ) (monster monster' : Monster ℚ) : Prop where
  bullet_before : game.player.bulletVec[index]? = some bullet
  monster_before : cell game.monsterCluster.rows row col = some monster
  bullet_after : next.player.bulletVec[index]? = some bullet'
  monster_after : cell next.monsterCluster.rows row col = some monster'
  bullet_alive : bullet.state = .alive ∧ bullet'.state = .alive
  monster_alive : monster.state = .alive ∧ monster'.state = .alive

-- The bullet is wholly below the monster and then wholly above it.
def Tunnels (platform : Platform ℚ) (game next : Collisions ℚ) (index row col : Nat) : Prop :=
  ∃ bullet bullet' monster monster',
    AliveThroughout game next index row col bullet bullet' monster monster' ∧
    (bullet.getBoundingBox platform).Under (monster.getMonsterBounds platform) ∧
    (bullet.getBoundingBox platform).Abreast (monster.getMonsterBounds platform) ∧
    (bullet'.getBoundingBox platform).Abreast (monster'.getMonsterBounds platform) ∧
    (monster'.getMonsterBounds platform).Under (bullet'.getBoundingBox platform)

def NoneTunnels (platform : Platform ℚ) (game next : Collisions ℚ) : Prop :=
  ∀ index row col, ¬Tunnels platform game next index row col

-- The displacement of every monster in a pass.
def stride (elapsed : ℚ) (cluster : MonsterCluster ℚ) : Vector2 ℚ :=
  displacement (((SPRITE_SPEED / 3 : Int) : ℚ) * elapsed) cluster.nextDir

-- A pass moves the bullet and the monster past each other.
structure Jumps (platform : Platform ℚ) (step : Vector2 ℚ) (bullet : Bullet ℚ) (monster : Monster ℚ) :
    Prop where
  alive : bullet.state = .alive ∧ monster.state = .alive
  under : (bullet.getBoundingBox platform).Under (monster.getMonsterBounds platform)
  abreast : (bullet.getBoundingBox platform).Abreast (monster.getMonsterBounds platform)
  left : (bullet.getBoundingBox platform).left <
    (monster.getMonsterBounds platform).left + step.x + (monster.getMonsterBounds platform).width
  right : (monster.getMonsterBounds platform).left + step.x <
    (bullet.getBoundingBox platform).left + (bullet.getBoundingBox platform).width
  cleared : (bullet.getBoundingBox platform).top - bullet.speed + (bullet.getBoundingBox platform).height ≤
    (monster.getMonsterBounds platform).top + step.y

def JumpsAt (platform : Platform ℚ) (input : FrameInput ℚ) (game : Collisions ℚ)
    (index row col : Nat) : Prop :=
  ∃ bullet monster, game.player.bulletVec[index]? = some bullet ∧
    cell game.monsterCluster.rows row col = some monster ∧
    Jumps platform (stride input.elapsed game.monsterCluster) bullet monster

-- The game with each bullet on by its speed, a bullet fired in the pass included, and
-- each monster on by its stride.
def ahead (platform : Platform ℚ) (handTracker : HandTracker ℚ) (input : FrameInput ℚ)
    (game : Collisions ℚ) : Collisions ℚ :=
  { game with
    player :=
      { game.player with
        bulletVec := (game.player.bulletVec ++ newBullets platform handTracker input game.player).map
          Bullet.updateBullet }
    monsterCluster :=
      game.monsterCluster.moveMonsters (((SPRITE_SPEED / 3 : Int) : ℚ) * input.elapsed) }

-- The bullet or the monster is one of the pair that meets first.
def Spent (platform : Platform ℚ) (game : Collisions ℚ) (index row col : Nat) : Prop :=
  ∃ index' row' col', FirstPair platform game index' row' col' ∧
    (index' = index ∨ (row' = row ∧ col' = col))

variable {platform : Platform ℚ} {bulletBox : FloatRect ℚ} {monsterSize : Vector2 ℚ}

-- A call leaves both alive if neither is spent, and moves neither box.
theorem checkCollisions_at (platform : Platform ℚ) (game : Collisions ℚ) (index row col : Nat)
    (bullet : Bullet ℚ) (monster : Monster ℚ)
    (hbullet : game.player.bulletVec[index]? = some bullet)
    (hmonster : cell game.monsterCluster.rows row col = some monster) :
    ∃ bullet' monster', (checkCollisions platform game).player.bulletVec[index]? = some bullet' ∧
      cell (checkCollisions platform game).monsterCluster.rows row col = some monster' ∧
      bullet'.getBoundingBox platform = bullet.getBoundingBox platform ∧
      monster'.getMonsterBounds platform = monster.getMonsterBounds platform ∧
      ((bullet'.state = .alive ∧ monster'.state = .alive) ↔
        (bullet.state = .alive ∧ monster.state = .alive) ∧ ¬Spent platform game index row col) := by
  by_cases hpair : ∃ index row col, PairAt platform game index row col
  · obtain ⟨index', row', col', hfirst⟩ := exists_firstPair platform game hpair
    have hspent : Spent platform game index row col ↔
        index' = index ∨ (row' = row ∧ col' = col) := by
      constructor
      · rintro ⟨other, line, place, hother, hshared⟩
        obtain ⟨rfl, rfl, rfl⟩ := firstPair_unique platform game _ _ _ _ _ _ hfirst hother
        exact hshared
      · intro hshared
        exact ⟨index', row', col', hfirst, hshared⟩
    rw [checkCollisions_of_firstPair platform game index' row' col' hfirst, hspent]
    refine ⟨if index' = index then bullet.hide else bullet,
      if row' = row ∧ col' = col then monster.kill else monster, ?_, ?_, ?_, ?_, ?_⟩
    · simp only [killed, List.getElem?_modify, hbullet]
      rfl
    · simp only [killed, MonsterCluster.cell_killAt, hmonster, Option.map_some]
    · split_ifs <;> rfl
    · split_ifs <;> rfl
    · split_ifs <;> simp_all
  · have hspent : ¬Spent platform game index row col := by
      rintro ⟨index', row', col', hfirst, _⟩
      exact hpair ⟨index', row', col', hfirst.pair⟩
    obtain ⟨hbullets, hrows⟩ := checkCollisions_of_no_pair platform game hpair
    refine ⟨bullet, monster, ?_, ?_, rfl, rfl, ?_⟩
    · rw [hbullets, hbullet]
    · rw [hrows, hmonster]
    · simp only [hspent, not_false_eq_true, and_true]

-- The pairs are a matter of the player's bullets and of the rows.
theorem spent_congr (game other : Collisions ℚ)
    (hbullets : game.player.bulletVec = other.player.bulletVec)
    (hrows : game.monsterCluster.rows = other.monsterCluster.rows) (index row col : Nat) :
    Spent platform game index row col ↔ Spent platform other index row col := by
  have hpair : PairAt platform game = PairAt platform other := by
    funext index row col
    simp only [PairAt, hbullets, hrows]
  have hfirst (index row col : Nat) :
      FirstPair platform game index row col ↔ FirstPair platform other index row col := by
    constructor
    · rintro ⟨hp, hb, hr, hc⟩
      rw [hpair] at hp hb hr hc
      exact ⟨hp, hb, hr, hc⟩
    · rintro ⟨hp, hb, hr, hc⟩
      rw [← hpair] at hp hb hr hc
      exact ⟨hp, hb, hr, hc⟩
  simp only [Spent, hfirst]

-- What checkCollisions is handed agrees with the game ahead on these.
theorem advance_ahead (handTracker : HandTracker ℚ) (input : FrameInput ℚ)
    (game entering : Collisions ℚ) (h : advance platform handTracker input game = some entering) :
    entering.player.bulletVec = (ahead platform handTracker input game).player.bulletVec ∧
      entering.monsterCluster.rows = (ahead platform handTracker input game).monsterCluster.rows := by
  obtain ⟨cluster, hcluster, rfl⟩ := advance_eq_some platform handTracker input game entering h
  obtain ⟨fired, cooldown, _, rfl⟩ := MonsterCluster.move_eq_some platform _ _ _ _ cluster hcluster
  exact ⟨playerPass_bulletVec platform handTracker input game.player, rfl⟩

theorem ahead_bullet (handTracker : HandTracker ℚ) (input : FrameInput ℚ) (game : Collisions ℚ)
    (index : Nat) (bullet : Bullet ℚ) (h : game.player.bulletVec[index]? = some bullet) :
    (ahead platform handTracker input game).player.bulletVec[index]? = some bullet.updateBullet := by
  obtain ⟨hlt, _⟩ := List.getElem?_eq_some_iff.mp h
  simp only [ahead, List.getElem?_map, List.getElem?_append_left hlt, h, Option.map_some]

theorem ahead_monster (handTracker : HandTracker ℚ) (input : FrameInput ℚ) (game : Collisions ℚ)
    (row col : Nat) :
    cell (ahead platform handTracker input game).monsterCluster.rows row col =
      (cell game.monsterCluster.rows row col).map
        (Monster.move (stride input.elapsed game.monsterCluster)) := by
  simp only [ahead, MonsterCluster.moveMonsters, cell, stride, List.getElem?_map]
  cases game.monsterCluster.rows[row]? with
  | none => rfl
  | some found => simp only [Option.map_some, Option.bind_some, List.getElem?_map]

theorem updateBullet_box (hrigid : platform.Rigid bulletBox monsterSize) (bullet : Bullet ℚ) :
    bullet.updateBullet.getBoundingBox platform =
      { bullet.getBoundingBox platform with
        top := (bullet.getBoundingBox platform).top - bullet.speed } := by
  simp only [Bullet.getBoundingBox, Bullet.updateBullet, hrigid.bullet, FloatRect.mk.injEq, true_and,
    and_true]
  ring

theorem move_box (hrigid : platform.Rigid bulletBox monsterSize) (step : Vector2 ℚ)
    (monster : Monster ℚ) :
    (monster.move step).getMonsterBounds platform =
      { monster.getMonsterBounds platform with
        left := (monster.getMonsterBounds platform).left + step.x
        top := (monster.getMonsterBounds platform).top + step.y } := by
  simp only [Monster.getMonsterBounds, Monster.move, hrigid.monster, FloatRect.ofSize]

-- A bullet tunnels if and only if the two steps carry it over the monster and the call
-- spends neither.
theorem tunnels_iff (hrigid : platform.Rigid bulletBox monsterSize) (handTracker : HandTracker ℚ)
    (input : FrameInput ℚ) (game next : Collisions ℚ)
    (h : frame platform handTracker input game = some next) (index row col : Nat) :
    Tunnels platform game next index row col ↔
      JumpsAt platform input game index row col ∧
        ¬Spent platform (ahead platform handTracker input game) index row col := by
  obtain ⟨entering, hentering, rfl⟩ := frame_eq_some platform handTracker input game next h
  obtain ⟨hbullets, hrows⟩ := advance_ahead handTracker input game entering hentering
  rw [← spent_congr entering _ hbullets hrows]
  -- What the call makes of a pair that is there before the pass.
  have hafter (bullet : Bullet ℚ) (monster : Monster ℚ)
      (hbullet : game.player.bulletVec[index]? = some bullet)
      (hmonster : cell game.monsterCluster.rows row col = some monster) :=
    checkCollisions_at platform entering index row col bullet.updateBullet
      (monster.move (stride input.elapsed game.monsterCluster))
      (by rw [hbullets, ahead_bullet handTracker input game index bullet hbullet])
      (by rw [hrows, ahead_monster, hmonster, Option.map_some])
  constructor
  · rintro ⟨bullet, bullet', monster, monster', hboth, hunder, habreast, habreast', hcleared⟩
    obtain ⟨_, _, hbullet', hmonster', hbulletBox, hmonsterBox, halive⟩ :=
      hafter bullet monster hboth.bullet_before hboth.monster_before
    obtain rfl := Option.some.inj (hboth.bullet_after.symm.trans hbullet')
    obtain rfl := Option.some.inj (hboth.monster_after.symm.trans hmonster')
    obtain ⟨_, hunspent⟩ := halive.mp ⟨hboth.bullet_alive.2, hboth.monster_alive.2⟩
    rw [hbulletBox, hmonsterBox, updateBullet_box hrigid, move_box hrigid] at habreast' hcleared
    exact ⟨⟨bullet, monster, hboth.bullet_before, hboth.monster_before,
      ⟨hboth.bullet_alive.1, hboth.monster_alive.1⟩, hunder, habreast, habreast'.1, habreast'.2, hcleared⟩,
      hunspent⟩
  · rintro ⟨⟨bullet, monster, hbullet, hmonster, hjumps⟩, hunspent⟩
    obtain ⟨bullet', monster', hbullet', hmonster', hbulletBox, hmonsterBox, halive⟩ :=
      hafter bullet monster hbullet hmonster
    obtain ⟨hba, hma⟩ := halive.mpr ⟨hjumps.alive, hunspent⟩
    refine ⟨bullet, bullet', monster, monster', ⟨hbullet, hmonster, hbullet', hmonster',
      ⟨hjumps.alive.1, hba⟩, ⟨hjumps.alive.2, hma⟩⟩, hjumps.under, hjumps.abreast, ?_, ?_⟩
    · rw [hbulletBox, hmonsterBox, updateBullet_box hrigid, move_box hrigid]
      exact ⟨hjumps.left, hjumps.right⟩
    · rw [hbulletBox, hmonsterBox, updateBullet_box hrigid, move_box hrigid]
      exact hjumps.cleared

-- The descent is the longest way down.
theorem stride_down (elapsed : ℚ) (h : 0 ≤ elapsed) (cluster : MonsterCluster ℚ) :
    (stride elapsed cluster).y ≤ 532 * elapsed := by
  cases hd : cluster.nextDir with
  | down =>
      norm_num [stride, hd, displacement, SPRITE_SPEED]
      linarith
  | right =>
      simp only [stride, hd, displacement]
      linarith
  | left =>
      simp only [stride, hd, displacement]
      linarith

theorem Jumps.height_le (hrigid : platform.Rigid bulletBox monsterSize) (step : Vector2 ℚ)
    (bullet : Bullet ℚ) (monster : Monster ℚ) (h : Jumps platform step bullet monster) :
    bulletBox.height + monsterSize.y ≤ bullet.speed + step.y := by
  have hunder := h.under
  have hcleared := h.cleared
  simp only [FloatRect.Under, Bullet.getBoundingBox, Monster.getMonsterBounds, hrigid.bullet,
    hrigid.monster, FloatRect.ofSize] at hunder hcleared
  linarith

-- One that was jumped over is not met.
theorem Jumps.not_meets (hrigid : platform.Rigid bulletBox monsterSize) (step : Vector2 ℚ)
    (bullet : Bullet ℚ) (monster : Monster ℚ) (h : Jumps platform step bullet monster) :
    ¬Meets platform bullet.updateBullet (monster.move step) := by
  rintro ⟨_, _, hmeets⟩
  have hcleared := h.cleared
  rw [hrigid.intersects, overlaps_iff, updateBullet_box hrigid, move_box hrigid] at hmeets
  have htop := (lt_min_iff.mp (max_lt_iff.mp hmeets.2).2).1
  dsimp only at htop
  linarith

-- A descending monster and a bullet that touches it from below.
def touching (platform : Platform ℚ) (bulletBox : FloatRect ℚ) (monsterSize : Vector2 ℚ) :
    Collisions ℚ :=
  new
    { Player.new platform ⟨0, 0⟩ .alive with
      isFiring := true
      bulletVec := [⟨⟨-bulletBox.left, monsterSize.y - bulletBox.top⟩, 5, .alive⟩] }
    { MonsterCluster.new platform with
      rows := [[Monster.new platform]]
      nextDir := .down
      totalCount := 1 }
    Score.new

theorem touching_jumps (hrigid : platform.Rigid bulletBox monsterSize) (elapsed : ℚ)
    (h : bulletBox.height + monsterSize.y ≤ 5 + 532 * elapsed) :
    Jumps platform (stride elapsed (touching platform bulletBox monsterSize).monsterCluster)
      ⟨⟨-bulletBox.left, monsterSize.y - bulletBox.top⟩, 5, .alive⟩ (Monster.new platform) := by
  have hbullet : Bullet.getBoundingBox platform
      ⟨⟨-bulletBox.left, monsterSize.y - bulletBox.top⟩, 5, .alive⟩ =
        ⟨0, monsterSize.y, bulletBox.width, bulletBox.height⟩ := by
    simp [Bullet.getBoundingBox, hrigid.bullet]
  have hmonster : (Monster.new platform).getMonsterBounds platform =
      ⟨0, 0, monsterSize.x, monsterSize.y⟩ := hrigid.monster ⟨0, 0⟩
  have hstride : stride elapsed (touching platform bulletBox monsterSize).monsterCluster =
      ⟨0, 133 * elapsed * 4⟩ := by
    simp [stride, touching, Collisions.new, displacement, SPRITE_SPEED]
  have hleft : 0 < 0 + bulletBox.width := by linarith [hrigid.bullet_width]
  have hright : 0 < 0 + monsterSize.x := by linarith [hrigid.monster_width]
  rw [hstride]
  refine ⟨⟨rfl, rfl⟩, ?_, ?_, ?_, ?_, ?_⟩ <;> rw [hbullet, hmonster]
  · exact le_of_eq (zero_add monsterSize.y)
  · exact ⟨hright, hleft⟩
  · rwa [add_zero]
  · rwa [add_zero]
  · change monsterSize.y - ((5 : Int) : ℚ) + bulletBox.height ≤ 0 + 133 * elapsed * 4
    push_cast
    linarith

theorem touching_newBullets (handTracker : HandTracker ℚ) (elapsed : ℚ) :
    newBullets platform handTracker { waiting 0 with elapsed := elapsed }
      (touching platform bulletBox monsterSize).player = [] := by
  have hshot (destination : Vector2 ℚ) :
      ((touching platform bulletBox monsterSize).player.setDestination destination).shot platform =
        [] := rfl
  have hspace (player : Player ℚ) : player.spaceShot platform Controls.none = [] := rfl
  simp only [newBullets, hshot, ite_self, waiting, hspace, List.append_nil]

-- There is no second pair that could spend the two.
theorem touching_unspent (hrigid : platform.Rigid bulletBox monsterSize)
    (handTracker : HandTracker ℚ) (elapsed : ℚ)
    (h : bulletBox.height + monsterSize.y ≤ 5 + 532 * elapsed) :
    ¬Spent platform (ahead platform handTracker { waiting 0 with elapsed := elapsed }
      (touching platform bulletBox monsterSize)) 0 0 0 := by
  rintro ⟨index, row, col, hfirst, _⟩
  obtain ⟨bullet, monster, hbullet, hmonster, hmeets⟩ := hfirst.pair
  have hjumps := touching_jumps hrigid elapsed h
  simp only [ahead, touching_newBullets, List.append_nil] at hbullet
  obtain ⟨old, hold, rfl⟩ := List.mem_map.mp (List.mem_of_getElem? hbullet)
  rw [List.mem_singleton.mp hold] at hmeets
  rw [ahead_monster] at hmonster
  obtain ⟨before, hbefore, rfl⟩ := Option.map_eq_some_iff.mp hmonster
  obtain ⟨found, hrow, hcol⟩ := Option.bind_eq_some_iff.mp hbefore
  have hfound : found = [Monster.new platform] :=
    List.mem_singleton.mp (List.mem_of_getElem? hrow)
  subst hfound
  rw [List.mem_singleton.mp (List.mem_of_getElem? hcol)] at hmeets
  exact hjumps.not_meets hrigid _ _ _ hmeets

theorem touching_frame (platform : Platform ℚ) (bulletBox : FloatRect ℚ) (monsterSize : Vector2 ℚ)
    (handTracker : HandTracker ℚ) (elapsed : ℚ) :
    ∃ next, frame platform handTracker { waiting 0 with elapsed := elapsed }
      (touching platform bulletBox monsterSize) = some next := by
  simp [frame, advance, clusterPass, MonsterCluster.move, MonsterCluster.coolDown,
    MonsterCluster.moveMonsters, touching, Collisions.new, MonsterCluster.new]

-- No bullet tunnels in a pass if and only if each pair that is jumped over is spent in
-- it. Whatever the game, that is so if and only if the bullet's step and the descent fall
-- short of the two heights.
theorem noneTunnels_iff (hrigid : platform.Rigid bulletBox monsterSize)
    (handTracker : HandTracker ℚ) :
    (∀ input game next, frame platform handTracker input game = some next →
      (NoneTunnels platform game next ↔
        ∀ index row col, JumpsAt platform input game index row col →
          Spent platform (ahead platform handTracker input game) index row col)) ∧
    ∀ elapsed, 0 ≤ elapsed →
      ((∀ input game next, input.elapsed = elapsed →
          (∀ bullet ∈ game.player.bulletVec, bullet.speed = 5) →
          frame platform handTracker input game = some next → NoneTunnels platform game next) ↔
        5 + 532 * elapsed < bulletBox.height + monsterSize.y) := by
  refine ⟨fun input game next h => ?_, fun elapsed helapsed => ⟨fun hnone => ?_, ?_⟩⟩
  · simp only [NoneTunnels, tunnels_iff hrigid handTracker input game next h, not_and, not_not]
  · by_contra hslow
    rw [not_lt] at hslow
    obtain ⟨next, hnext⟩ := touching_frame platform bulletBox monsterSize handTracker elapsed
    have hspeed : ∀ bullet ∈ (touching platform bulletBox monsterSize).player.bulletVec,
        bullet.speed = 5 := by
      simp [touching, Collisions.new]
    refine hnone _ _ next rfl hspeed hnext 0 0 0 ?_
    rw [tunnels_iff hrigid handTracker _ _ next hnext]
    exact ⟨⟨_, _, rfl, rfl, touching_jumps hrigid elapsed hslow⟩,
      touching_unspent hrigid handTracker elapsed hslow⟩
  · rintro hfast input game next rfl hspeed h index row col htunnels
    rw [tunnels_iff hrigid handTracker input game next h] at htunnels
    obtain ⟨⟨bullet, monster, hbullet, _, hjumps⟩, _⟩ := htunnels
    have hheight := hjumps.height_le hrigid
    have hstride := stride_down input.elapsed helapsed game.monsterCluster
    rw [hspeed bullet (List.mem_of_getElem? hbullet)] at hheight
    push_cast at hheight
    linarith

theorem arcade_rigid : arcade.Rigid ⟨0, 0, 10, 10⟩ ⟨50, 50⟩ where
  bullet := fun position => by simp [arcade, FloatRect.ofSize]
  monster := fun _ => rfl
  intersects := rfl
  bullet_width := by norm_num
  bullet_height := by norm_num
  monster_width := by norm_num
  monster_height := by norm_num

-- A shot in the first pass, which takes the cluster to the right edge if the setup of
-- the camera lasts two seconds.
def launch : FrameInput ℚ :=
  { waiting 0 with controls := { Controls.none with keySpace := true }, elapsed := 2 }

theorem noneTunnels_iff_launch :
    ∃ game next, frame arcade arcadeTracker launch arcadeStart = some game ∧
      frame arcade arcadeTracker (waiting 0) game = some next ∧ NoneTunnels arcade game next := by
  have hrun : (frame arcade arcadeTracker launch arcadeStart).any (fun game =>
      (∀ bullet ∈ game.player.bulletVec, bullet.speed = 5) ∧
        (frame arcade arcadeTracker (waiting 0) game).isSome) = true := by
    decide +kernel
  obtain ⟨game, hgame, hrun⟩ := (Option.any_eq_true _ _).mp hrun
  obtain ⟨hspeed, hnext⟩ := of_decide_eq_true hrun
  obtain ⟨next, hnext⟩ := Option.isSome_iff_exists.mp hnext
  have hnone := ((noneTunnels_iff arcade_rigid arcadeTracker).2 (1 / 64) (by norm_num)).mpr
    (by norm_num)
  exact ⟨game, next, hgame, hnext, hnone (waiting 0) game next rfl hspeed hnext⟩

-- The descent that follows, in a pass of half a second: the bullet at (1005, 535) comes
-- to lie at (1005, 530), the monster at (1001, 308) at (1001, 574).
theorem slow_descent_tunnels :
    ∃ game next, frame arcade arcadeTracker launch arcadeStart = some game ∧
      frame arcade arcadeTracker { waiting 0 with elapsed := 1 / 2 } game = some next ∧
      Tunnels arcade game next 0 2 5 := by
  have hrun : (frame arcade arcadeTracker launch arcadeStart).any (fun game =>
      (frame arcade arcadeTracker { waiting 0 with elapsed := 1 / 2 } game).any fun next =>
        game.player.bulletVec[0]? = some ⟨⟨1005, 535⟩, 5, .alive⟩ ∧
          cell game.monsterCluster.rows 2 5 = some ⟨⟨1001, 308⟩, ⟨50, 50⟩, .alive⟩ ∧
          next.player.bulletVec[0]? = some ⟨⟨1005, 530⟩, 5, .alive⟩ ∧
          cell next.monsterCluster.rows 2 5 = some ⟨⟨1001, 574⟩, ⟨50, 50⟩, .alive⟩) = true := by
    decide +kernel
  obtain ⟨game, hgame, hrun⟩ := (Option.any_eq_true _ _).mp hrun
  obtain ⟨next, hnext, hrun⟩ := (Option.any_eq_true _ _).mp hrun
  obtain ⟨hbullet, hmonster, hbullet', hmonster'⟩ := of_decide_eq_true hrun
  refine ⟨game, next, hgame, hnext, _, _, _, _,
    ⟨hbullet, hmonster, hbullet', hmonster', ⟨rfl, rfl⟩, rfl, rfl⟩, ?_⟩
  norm_num [FloatRect.Under, FloatRect.Abreast, Bullet.getBoundingBox, Monster.getMonsterBounds,
    arcade, FloatRect.ofSize]

end SpaceInvaders

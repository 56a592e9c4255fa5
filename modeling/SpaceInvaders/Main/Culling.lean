import SpaceInvaders.Main.Window

namespace SpaceInvaders

open Transition FirstMatch Collisions

-- The boxes are fixed rectangles moved to the position of what they belong to,
-- and they intersect when they strictly overlap.
structure Platform.Boxes (platform : Platform ℚ) (shipSize monsterSize : Vector2 ℚ)
    (bulletBox : FloatRect ℚ) : Prop where
  ship : platform.ShipSize shipSize
  monster : ∀ position, platform.monsterBounds position = FloatRect.ofSize monsterSize position
  monster_height : 0 ≤ monsterSize.y
  bullet : ∀ position, platform.bulletBounds position =
    ⟨position.x + bulletBox.left, position.y + bulletBox.top, bulletBox.width, bulletBox.height⟩
  intersects : platform.intersects = FloatRect.overlaps

-- Destroyed, or wholly above the top of the window.
def playerBulletSpent (platform : Platform ℚ) (bullet : Bullet ℚ) : Bool :=
  bullet.state = .destroyed ∨
    (bullet.getBoundingBox platform).top + (bullet.getBoundingBox platform).height ≤ 0

-- Wholly below the bottom of the window.
def enemyBulletSpent (platform : Platform ℚ) (windowSize : Vector2 Nat) (bullet : Bullet ℚ) : Bool :=
  (windowSize.y : ℚ) ≤ (bullet.getBoundingBox platform).top

-- The places of the bullets that a cull removes if they are spent.
structure Choice where
  player : Nat → Bool
  enemy : Nat → Bool

def Collisions.withBullets (playerBullets enemyBullets : List (Bullet ℚ)) (game : Collisions ℚ) :
    Collisions ℚ :=
  { game with
    player := { game.player with bulletVec := playerBullets }
    monsterCluster := { game.monsterCluster with bulletVec := enemyBullets } }

def cull (platform : Platform ℚ) (windowSize : Vector2 Nat) (choice : Choice)
    (game : Collisions ℚ) : Collisions ℚ :=
  game.withBullets (sift (playerBulletSpent platform) choice.player game.player.bulletVec)
    (sift (enemyBulletSpent platform windowSize) choice.enemy game.monsterCluster.bulletVec)

-- A pass of the main loop and then a cull.
def culledFrame (platform : Platform ℚ) (handTracker : HandTracker ℚ) (input : FrameInput ℚ × Choice)
    (game : Collisions ℚ) : Option (Collisions ℚ) :=
  (frame platform handTracker input.1 game).map (cull platform input.1.windowSize input.2)

-- The second game is the first without some spent bullets.
def SameView (platform : Platform ℚ) (windowSize : Vector2 Nat) (full thin : Collisions ℚ) : Prop :=
  ∃ playerBullets enemyBullets, thin = full.withBullets playerBullets enemyBullets ∧
    Thinned (fun bullet => playerBulletSpent platform bullet = true) full.player.bulletVec
      playerBullets ∧
    Thinned (fun bullet => enemyBulletSpent platform windowSize bullet = true)
      full.monsterCluster.bulletVec enemyBullets

-- What keeps a spent bullet from meeting anything again.
structure Airspace (size : Vector2 ℚ) (windowSize : Vector2 Nat) (game : Collisions ℚ) : Prop where
  ship : ShipInside size windowSize game
  monsters : ∀ row ∈ game.monsterCluster.rows, ∀ monster ∈ row, 0 ≤ monster.position.y
  upward : ∀ bullet ∈ game.player.bulletVec, 0 ≤ bullet.speed
  downward : ∀ bullet ∈ game.monsterCluster.bulletVec, bullet.speed ≤ 0

variable {platform : Platform ℚ} {size monsterSize : Vector2 ℚ} {bulletBox : FloatRect ℚ}
  {windowSize : Vector2 Nat}

theorem SameView.refl (game : Collisions ℚ) : SameView platform windowSize game game :=
  ⟨_, _, rfl, .refl _, .refl _⟩

theorem SameView.cull {full thin : Collisions ℚ} (h : SameView platform windowSize full thin)
    (choice : Choice) : SameView platform windowSize full (cull platform windowSize choice thin) := by
  obtain ⟨playerBullets, enemyBullets, rfl, hplayer, henemy⟩ := h
  exact ⟨_, _, rfl, hplayer.trans (.sift _ choice.player playerBullets),
    henemy.trans (.sift _ choice.enemy enemyBullets)⟩

theorem updateBullet_playerBulletSpent (hboxes : platform.Boxes size monsterSize bulletBox)
    (bullet : Bullet ℚ) (hspeed : 0 ≤ bullet.speed) (h : playerBulletSpent platform bullet = true) :
    playerBulletSpent platform bullet.updateBullet = true := by
  have hcast : (0 : ℚ) ≤ bullet.speed := by exact_mod_cast hspeed
  simp only [playerBulletSpent, Bullet.getBoundingBox, hboxes.bullet, decide_eq_true_eq] at h ⊢
  rcases h with hs | hb
  · exact .inl hs
  · right
    simp only [Bullet.updateBullet]
    linarith

theorem updateBullet_enemyBulletSpent (hboxes : platform.Boxes size monsterSize bulletBox)
    (bullet : Bullet ℚ) (hspeed : bullet.speed ≤ 0)
    (h : enemyBulletSpent platform windowSize bullet = true) :
    enemyBulletSpent platform windowSize bullet.updateBullet = true := by
  have hcast : (bullet.speed : ℚ) ≤ 0 := by exact_mod_cast hspeed
  simp only [enemyBulletSpent, Bullet.getBoundingBox, hboxes.bullet, decide_eq_true_eq] at h ⊢
  simp only [Bullet.updateBullet]
  linarith

-- Above the window there are no monsters.
theorem hitRows_of_spent (hboxes : platform.Boxes size monsterSize bulletBox)
    (rows : List (List (Monster ℚ))) (hrows : ∀ row ∈ rows, ∀ monster ∈ row, 0 ≤ monster.position.y)
    (bullet : Bullet ℚ) (h : playerBulletSpent platform bullet = true) :
    hitRows platform rows bullet = none := by
  refine (hitRows_eq_none_iff platform rows bullet).mpr fun row hr monster hm hmeets => ?_
  obtain ⟨halive, _, hoverlap⟩ := hmeets
  have habove := hrows row hr monster hm
  simp only [playerBulletSpent, decide_eq_true_eq] at h
  rw [hboxes.intersects, overlaps_iff] at hoverlap
  rcases h with hs | hb
  · rw [hs] at halive
    cases halive
  · have htop := (max_lt_iff.mp hoverlap.2).2
    have hbottom := (lt_min_iff.mp htop).1
    simp only [Monster.getMonsterBounds, hboxes.monster, FloatRect.ofSize] at hbottom
    linarith

-- Below the window there is no ship.
theorem hitShip_of_spent (hboxes : platform.Boxes size monsterSize bulletBox) (game : Collisions ℚ)
    (hinside : Inside size windowSize game.player.position) (bullet : Bullet ℚ)
    (h : enemyBulletSpent platform windowSize bullet = true) :
    hitShip platform (game.player.getPlayerBounds platform) bullet = none := by
  refine (hitShip_eq_none_iff platform game bullet).mpr fun hstrikes => ?_
  have hbottom := hinside.bottom
  simp only [enemyBulletSpent, decide_eq_true_eq] at h
  rw [Strikes, hboxes.intersects, overlaps_iff] at hstrikes
  have htop := (max_lt_iff.mp hstrikes.2).1
  have hship := (lt_min_iff.mp htop).2
  simp only [Player.getPlayerBounds, hboxes.ship game.player.position, FloatRect.ofSize] at hship
  linarith

theorem clusterPass_velocity (elapsed : ℚ) (h : 0 ≤ elapsed) (direction : Direction) :
    0 ≤ (MonsterCluster.displacement (((SPRITE_SPEED / 3 : Int) : ℚ) * elapsed) direction).y := by
  have hspeed : (0 : ℚ) ≤ ((SPRITE_SPEED / 3 : Int) : ℚ) := by norm_num [SPRITE_SPEED]
  cases direction with
  | down =>
      simp only [MonsterCluster.displacement]
      positivity
  | right => exact le_refl 0
  | left => exact le_refl 0

theorem advance_airspace (hboxes : platform.Boxes size monsterSize bulletBox)
    (hx : size.x ≤ windowSize.x) (hy : size.y ≤ windowSize.y) (handTracker : HandTracker ℚ)
    (input : FrameInput ℚ) (hwindow : input.windowSize = windowSize) (helapsed : 0 ≤ input.elapsed)
    (game entering : Collisions ℚ) (hair : Airspace size windowSize game)
    (h : advance platform handTracker input game = some entering) :
    Airspace size windowSize entering := by
  have hship := advance_inside hboxes.ship hx hy handTracker input hwindow game entering
    hair.ship.spawnPosition h
  obtain ⟨cluster, hcluster, rfl⟩ := advance_eq_some platform handTracker input game entering h
  obtain ⟨fired, cooldown, hfired, rfl⟩ := MonsterCluster.move_eq_some platform _ _ _ _ cluster hcluster
  refine ⟨hship, ?_, ?_, ?_⟩
  · intro row hr monster hm
    obtain ⟨before, hb, rfl⟩ := List.mem_map.mp hr
    obtain ⟨old, ho, rfl⟩ := List.mem_map.mp hm
    exact add_nonneg (hair.monsters before hb old ho) (clusterPass_velocity input.elapsed helapsed _)
  · intro bullet hb
    simp only [playerPass_bulletVec] at hb
    obtain ⟨old, ho, rfl⟩ := List.mem_map.mp hb
    rcases List.mem_append.mp ho with ho | ho
    · exact hair.upward old ho
    · obtain ⟨x, y, rfl⟩ := mem_newBullets platform handTracker input game.player old ho
      simp
  · intro bullet hb
    obtain ⟨old, ho, rfl⟩ := List.mem_map.mp hb
    rcases List.mem_append.mp ho with ho | ho
    · exact hair.downward old ho
    · rcases hfired with rfl | ⟨x, y, rfl⟩
      · cases ho
      · rw [List.mem_singleton.mp ho]
        simp

theorem checkCollisions_airspace (game : Collisions ℚ) (hair : Airspace size windowSize game) :
    Airspace size windowSize (checkCollisions platform game) := by
  obtain ⟨hpositions, hplayer, henemy⟩ := checkCollisions_keeps platform game
  refine ⟨checkCollisions_inside game hair.ship, ?_, ?_, ?_⟩
  · have hall : ∀ row ∈ (checkCollisions platform game).monsterCluster.rows.map
        (List.map Monster.position), ∀ position ∈ row, 0 ≤ position.y := by
      rw [hpositions]
      simpa using hair.monsters
    simpa using hall
  · have hall : ∀ speed ∈ (checkCollisions platform game).player.bulletVec.map Bullet.speed,
        0 ≤ speed := by
      rw [hplayer]
      exact List.forall_mem_map.mpr hair.upward
    exact List.forall_mem_map.mp hall
  · have hall : ∀ speed ∈ (checkCollisions platform game).monsterCluster.bulletVec.map Bullet.speed,
        speed ≤ 0 := by
      rw [henemy]
      exact List.forall_mem_map.mpr hair.downward
    exact fun bullet hb => hall bullet.speed (List.mem_map_of_mem hb)

-- One advance takes the same bullets up and down in both games.
theorem advance_sameView (hboxes : platform.Boxes size monsterSize bulletBox)
    (handTracker : HandTracker ℚ) (input : FrameInput ℚ) (full thin : Collisions ℚ)
    (hair : Airspace size windowSize full) (h : SameView platform windowSize full thin) :
    Option.Rel (SameView platform windowSize) (advance platform handTracker input full)
      (advance platform handTracker input thin) := by
  obtain ⟨playerBullets, enemyBullets, rfl, hplayer, henemy⟩ := h
  obtain ⟨outcome, hshot, houtcome⟩ := MonsterCluster.move_withBullets platform
    (((SPRITE_SPEED / 3 : Int) : ℚ) * input.elapsed) input.windowSize.x input.random full.monsterCluster
  have hfull : clusterPass platform input full.monsterCluster = _ :=
    houtcome full.monsterCluster.bulletVec
  have hthin : clusterPass platform input
      (full.withBullets playerBullets enemyBullets).monsterCluster = _ := houtcome enemyBullets
  have hpass : playerPass platform handTracker input
      (full.withBullets playerBullets enemyBullets).player = _ :=
    playerPass_withBullets platform handTracker input playerBullets full.player
  rw [advance, advance, hfull, hthin, hpass]
  cases outcome with
  | none => exact .none
  | some found =>
      refine .some ⟨(playerBullets ++ newBullets platform handTracker input full.player).map
        Bullet.updateBullet, (enemyBullets ++ found.1).map Bullet.updateBullet, rfl, ?_, ?_⟩
      · simp only [playerPass_bulletVec]
        refine (hplayer.append (.refl _)).map fun bullet hb => ?_
        refine updateBullet_playerBulletSpent hboxes bullet ?_
        rcases List.mem_append.mp hb with hb | hb
        · exact hair.upward bullet hb
        · obtain ⟨x, y, rfl⟩ := mem_newBullets platform handTracker input full.player bullet hb
          simp
      · refine (henemy.append (.refl _)).map fun bullet hb => ?_
        refine updateBullet_enemyBulletSpent hboxes bullet ?_
        rcases List.mem_append.mp hb with hb | hb
        · exact hair.downward bullet hb
        · rcases hshot found rfl with hf | ⟨x, y, hf⟩
          · rw [hf] at hb
            cases hb
          · rw [hf, List.mem_singleton] at hb
            simp [hb]

theorem checkDamage_sameView (hboxes : platform.Boxes size monsterSize bulletBox)
    (full thin : Collisions ℚ) (hair : Airspace size windowSize full)
    (h : SameView platform windowSize full thin) :
    SameView platform windowSize (checkDamage platform full) (checkDamage platform thin) := by
  obtain ⟨playerBullets, enemyBullets, rfl, hplayer, henemy⟩ := h
  have hrel := updateFirst_thinned (hitShip platform (full.player.getPlayerBounds platform)) _
    (hitShip_of_spent hboxes full hair.ship.position) henemy
  have hdie : ({ full.player with bulletVec := playerBullets } : Player ℚ).die =
      { full.player.die with bulletVec := playerBullets } := by
    unfold Player.die
    dsimp only
    split_ifs <;> rfl
  simp only [Player.getPlayerBounds] at hrel
  by_cases hvulnerable : full.player.state = .alive ∧ full.deathCooldown = 0
  · rcases rel_cases hrel with ⟨hf, ht⟩ | ⟨found, other, hf, ht, hthinned, _⟩ <;>
      simp only [checkDamage, withBullets, Player.getPlayerBounds, if_pos hvulnerable, hf, ht]
    · exact ⟨playerBullets, enemyBullets, rfl, hplayer, henemy⟩
    · refine ⟨playerBullets, other.1, by rw [hdie]; rfl, ?_, hthinned⟩
      rw [die_bulletVec]
      exact hplayer
  · by_cases hwaiting : full.deathCooldown < 50 <;>
      simp only [checkDamage, withBullets, hvulnerable, hwaiting, ite_true, ite_false]
    · exact ⟨playerBullets, enemyBullets, rfl, hplayer, henemy⟩
    · exact ⟨playerBullets, enemyBullets, rfl, hplayer, henemy⟩

-- The searches for a hit find the same bullets.
theorem checkCollisions_sameView (hboxes : platform.Boxes size monsterSize bulletBox)
    (full thin : Collisions ℚ) (hair : Airspace size windowSize full)
    (h : SameView platform windowSize full thin) :
    SameView platform windowSize (checkCollisions platform full) (checkCollisions platform thin) := by
  have hdamage := checkDamage_sameView hboxes full thin hair h
  obtain ⟨playerBullets, enemyBullets, rfl, hplayer, henemy⟩ := h
  have hrel := updateFirst_thinned (hitRows platform full.monsterCluster.rows) _
    (hitRows_of_spent hboxes full.monsterCluster.rows hair.monsters) hplayer
  have hsearch : updateFirst
      (hitRows platform (full.withBullets playerBullets enemyBullets).monsterCluster.rows)
      (full.withBullets playerBullets enemyBullets).player.bulletVec =
    updateFirst (hitRows platform full.monsterCluster.rows) playerBullets := rfl
  rcases rel_cases hrel with ⟨hf, ht⟩ | ⟨found, other, hf, ht, hthinned, hrows⟩
  · simpa only [checkCollisions, hf, hsearch, ht] using hdamage
  · simp only [checkCollisions, hf, hsearch, ht]
    exact ⟨other.1, enemyBullets, by rw [hrows]; rfl, hthinned, henemy⟩

theorem culledFrame_rel (hboxes : platform.Boxes size monsterSize bulletBox)
    (hx : size.x ≤ windowSize.x) (hy : size.y ≤ windowSize.y) (handTracker : HandTracker ℚ)
    (input : FrameInput ℚ × Choice) (hwindow : input.1.windowSize = windowSize)
    (helapsed : 0 ≤ input.1.elapsed) (full thin : Collisions ℚ)
    (hair : Airspace size windowSize full) (h : SameView platform windowSize full thin) :
    Option.Rel (fun next other => Airspace size windowSize next ∧
        SameView platform windowSize next other)
      (frame platform handTracker input.1 full) (culledFrame platform handTracker input thin) := by
  have hadvance := advance_sameView hboxes handTracker input.1 full thin hair h
  unfold culledFrame frame
  rw [hwindow]
  rcases rel_cases hadvance with ⟨hf, ht⟩ | ⟨entering, other, hf, ht, hview⟩
  · rw [hf, ht]
    exact .none
  · have hentering := advance_airspace hboxes hx hy handTracker input.1 hwindow helapsed full entering
      hair hf
    rw [hf, ht]
    exact .some ⟨checkCollisions_airspace entering hentering,
      (checkCollisions_sameView hboxes entering other hentering hview).cull input.2⟩

-- A cluster of rows of these sizes, placed at the point.
def MonsterCluster.lineUp (platform : Platform ℚ) (rowSizes : List Int) (x y : ℚ) :
    MonsterCluster ℚ :=
  (rowSizes.foldl (fun cluster size => cluster.addRow platform size) (new platform)).setPosition
    platform x y

-- The monsters of a cluster that is being set up: all of one size, with a gap of that size.
structure MonsterCluster.Uniform (platform : Platform ℚ) (cluster : MonsterCluster ℚ) : Prop where
  gap : cluster.gap.y = (Monster.new platform).spriteSize.y
  monsters : ∀ row ∈ cluster.rows, ∀ monster ∈ row,
    monster.spriteSize.y = (Monster.new platform).spriteSize.y
  bulletVec : cluster.bulletVec = []

theorem MonsterCluster.Uniform.setPosition {cluster : MonsterCluster ℚ}
    (h : Uniform platform cluster) (x y : ℚ) : Uniform platform (cluster.setPosition platform x y) := by
  refine ⟨h.gap, fun row hr monster hm => ?_, h.bulletVec⟩
  obtain ⟨rowIndex, hi, rfl⟩ := List.mem_mapIdx.mp hr
  obtain ⟨monsterIndex, hj, rfl⟩ := List.mem_mapIdx.mp hm
  have hmonster := h.monsters _ (List.getElem_mem hi) _ (List.getElem_mem hj)
  exact hmonster

theorem MonsterCluster.Uniform.addRow {cluster : MonsterCluster ℚ} (h : Uniform platform cluster)
    (numberOfMonsters : Int) : Uniform platform (cluster.addRow platform numberOfMonsters) := by
  have hrow : Uniform platform
      { cluster with
        totalCount := cluster.totalCount + numberOfMonsters.toNat
        rows := cluster.rows ++ [List.replicate numberOfMonsters.toNat (Monster.new platform)] } := by
    refine ⟨h.gap, fun row hr monster hm => ?_, h.bulletVec⟩
    rcases List.mem_append.mp hr with hr | hr
    · exact h.monsters row hr monster hm
    · rw [List.mem_singleton.mp hr] at hm
      rw [List.eq_of_mem_replicate hm]
  exact hrow.setPosition _ _

theorem MonsterCluster.uniform_foldl (rowSizes : List Int) (cluster : MonsterCluster ℚ)
    (h : Uniform platform cluster) :
    Uniform platform (rowSizes.foldl (fun found size => found.addRow platform size) cluster) := by
  induction rowSizes generalizing cluster with
  | nil => exact h
  | cons numberOfMonsters rest ih => exact ih _ (h.addRow numberOfMonsters)

theorem MonsterCluster.lineUp_above (hboxes : platform.Boxes size monsterSize bulletBox)
    (rowSizes : List Int) (x y : ℚ) (hy : 0 ≤ y) :
    (∀ row ∈ (lineUp platform rowSizes x y).rows, ∀ monster ∈ row, 0 ≤ monster.position.y) ∧
      (lineUp platform rowSizes x y).bulletVec = [] := by
  have huniform := uniform_foldl rowSizes (new platform)
    ⟨rfl, fun row hr => absurd hr List.not_mem_nil, rfl⟩
  have hheight : 0 ≤ (Monster.new platform).spriteSize.y := by
    simp only [Monster.new, hboxes.monster]
    exact hboxes.monster_height
  refine ⟨fun row hr monster hm => ?_, huniform.bulletVec⟩
  obtain ⟨rowIndex, hi, rfl⟩ := List.mem_mapIdx.mp hr
  obtain ⟨monsterIndex, hj, rfl⟩ := List.mem_mapIdx.mp hm
  have hmonster := huniform.monsters _ (List.getElem_mem hi) _ (List.getElem_mem hj)
  simp only [Monster.setPosition, Monster.getHeight, hmonster, huniform.gap]
  positivity

-- Removing spent bullets between the passes changes nothing but the bullets
-- themselves: both runs fault together, and what they reach differs by spent bullets only.
theorem culling_unobservable (hboxes : platform.Boxes size monsterSize bulletBox)
    (hx : 2 * size.x ≤ windowSize.x) (hy : 2 * size.y ≤ windowSize.y) (handTracker : HandTracker ℚ)
    (windowPosition : Vector2 Int) (state : State) (rowSizes : List Int) (xPos yPos : ℚ)
    (hyPos : 0 ≤ yPos) (inputs : List (FrameInput ℚ × Choice))
    (hwindow : ∀ input ∈ inputs, input.1.windowSize = windowSize)
    (helapsed : ∀ input ∈ inputs, 0 ≤ input.1.elapsed) :
    let player := (Player.new platform windowPosition state).setPosition
      ((windowSize.x : ℚ) / 2) ((windowSize.y : ℚ) / 2)
    let first := Collisions.new player (MonsterCluster.lineUp platform rowSizes xPos yPos) Score.new
    Option.Rel (SameView platform windowSize)
      (run (frame platform handTracker) first (inputs.map Prod.fst))
      (run (culledFrame platform handTracker) first inputs) := by
  intro player first
  have hw : (0 : ℚ) ≤ windowSize.x := Nat.cast_nonneg _
  have hh : (0 : ℚ) ≤ windowSize.y := Nat.cast_nonneg _
  obtain ⟨habove, hnone⟩ := MonsterCluster.lineUp_above hboxes rowSizes xPos yPos hyPos
  have hair : Airspace size windowSize first := by
    refine ⟨⟨center_inside hx hy, center_inside hx hy⟩, habove, ?_, ?_⟩
    · exact fun bullet hb => absurd hb List.not_mem_nil
    · exact fun bullet hb => absurd (hnone ▸ hb) List.not_mem_nil
  have hstep : ∀ pair ∈ inputs.map fun input => (input.1, input), ∀ full thin,
      Airspace size windowSize full ∧ SameView platform windowSize full thin →
      Option.Rel (fun full thin => Airspace size windowSize full ∧
          SameView platform windowSize full thin)
        (frame platform handTracker pair.1 full) (culledFrame platform handTracker pair.2 thin) := by
    rintro pair hp full thin ⟨hair, hview⟩
    obtain ⟨input, hi, rfl⟩ := List.mem_map.mp hp
    exact culledFrame_rel hboxes (by linarith) (by linarith) handTracker input (hwindow input hi)
      (helapsed input hi) full thin hair hview
  have hsim := run_simulation _ _ hstep first first ⟨hair, .refl first⟩
  simp only [List.map_map, Function.comp_def, List.map_id'] at hsim
  rcases rel_cases hsim with ⟨hf, ht⟩ | ⟨full, thin, hf, ht, _, hview⟩
  · rw [hf, ht]
    exact .none
  · rw [hf, ht]
    exact .some hview

theorem arcade_boxes : arcade.Boxes ⟨100, 100⟩ ⟨50, 50⟩ ⟨0, 0, 10, 10⟩ where
  ship := fun _ => rfl
  monster := fun _ => rfl
  monster_height := by norm_num
  bullet := fun position => by simp [arcade, FloatRect.ofSize]
  intersects := rfl

-- One shot from the middle of a small window, and passes until it is over the
-- top. Every spent bullet is removed.
def overTop : List (FrameInput ℚ × Choice) :=
  let all : Choice := ⟨fun _ => true, fun _ => true⟩
  let wait : FrameInput ℚ := { waiting 0 with windowSize := ⟨200, 200⟩ }
  ({ wait with hand := fun _ => List.replicate 21 ⟨320, 240⟩ }, all) :: List.replicate 22 (wait, all)

def overTopStart : Collisions ℚ :=
  new ((Player.new arcade ⟨0, 0⟩ .alive).setPosition (((200 : Nat) : ℚ) / 2) (((200 : Nat) : ℚ) / 2))
    (MonsterCluster.lineUp arcade [1] 50 0) Score.new

theorem culling_unobservable_overTop :
    ∃ full thin,
      run (frame arcade (HandTracker.new ⟨200, 200⟩ ⟨640, 480⟩)) overTopStart
        (overTop.map Prod.fst) = some full ∧
      run (culledFrame arcade (HandTracker.new ⟨200, 200⟩ ⟨640, 480⟩)) overTopStart overTop = some thin ∧
      full.player.bulletVec.length = 1 ∧ thin.player.bulletVec.length = 0 ∧
      SameView arcade ⟨200, 200⟩ full thin := by
  have hfull : (run (frame arcade (HandTracker.new ⟨200, 200⟩ ⟨640, 480⟩)) overTopStart
      (overTop.map Prod.fst)).any (fun full => full.player.bulletVec.length = 1) = true := by
    decide +kernel
  have hthin : (run (culledFrame arcade (HandTracker.new ⟨200, 200⟩ ⟨640, 480⟩)) overTopStart
      overTop).any (fun thin => thin.player.bulletVec.length = 0) = true := by
    decide +kernel
  obtain ⟨full, hf, hfull⟩ := (Option.any_eq_true _ _).mp hfull
  obtain ⟨thin, ht, hthin⟩ := (Option.any_eq_true _ _).mp hthin
  have hwindow : ∀ input ∈ overTop, input.1.windowSize = ⟨200, 200⟩ := by decide +kernel
  have helapsed : ∀ input ∈ overTop, 0 ≤ input.1.elapsed := by decide +kernel
  have h : Option.Rel (SameView arcade ⟨200, 200⟩)
      (run (frame arcade (HandTracker.new ⟨200, 200⟩ ⟨640, 480⟩)) overTopStart
        (overTop.map Prod.fst))
      (run (culledFrame arcade (HandTracker.new ⟨200, 200⟩ ⟨640, 480⟩)) overTopStart overTop) :=
    culling_unobservable arcade_boxes (by norm_num) (by norm_num) _ ⟨0, 0⟩ .alive [1] 50 0
      (le_refl 0) overTop hwindow helapsed
  rw [hf, ht] at h
  exact ⟨full, thin, hf, ht, of_decide_eq_true hfull, of_decide_eq_true hthin,
    Option.rel_some_some.mp h⟩

end SpaceInvaders

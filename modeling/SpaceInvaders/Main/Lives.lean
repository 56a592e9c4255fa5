import SpaceInvaders.Main.Lemmas
import SpaceInvaders.GameProcessing.Collisions.Kills

namespace SpaceInvaders

open Transition Collisions

variable {α : Type}

-- The number of the enemy bullet that the damage loop would stop at.
def striker (platform : Platform α) (game : Collisions α) : Option Nat :=
  game.monsterCluster.bulletVec.findIdx? fun bullet => Strikes platform game bullet

-- A life that this call takes is taken by a bullet that was alive and that the call hides.
def PaidByAlive (platform : Platform α) (entering : Collisions α) : Prop :=
  (checkCollisions platform entering).player.lives < entering.player.lives →
    ∃ (index : Nat) (bullet : Bullet α), entering.monsterCluster.bulletVec[index]? = some bullet ∧
      bullet.state = .alive ∧ Strikes platform entering bullet ∧
      (bulletStates (checkCollisions platform entering).monsterCluster.bulletVec)[index]? =
        some .destroyed

-- If the damage loop runs and there is a life to lose, the first enemy bullet
-- that overlaps the ship is not a hidden one.
def AliveStriker (platform : Platform α) (entering : Collisions α) : Prop :=
  ¬Kills platform entering → entering.Vulnerable → 0 < entering.player.lives →
    ∀ bullet, entering.monsterCluster.bulletVec.find? (fun bullet => Strikes platform entering bullet) =
      some bullet → bullet.state = .alive

-- The call takes a life, or keeps the lives. It hides one enemy bullet, or none.
theorem checkCollisions_enemy (platform : Platform α) (game : Collisions α) :
    (¬Kills platform game ∧ game.Vulnerable ∧ ∃ before bullet after,
      game.monsterCluster.bulletVec = before ++ bullet :: after ∧
      (∀ other ∈ before, ¬Strikes platform game other) ∧ Strikes platform game bullet ∧
      (checkCollisions platform game).player.lives = game.player.die.lives ∧
      (checkCollisions platform game).monsterCluster.bulletVec = before ++ bullet.hide :: after) ∨
    ((¬Kills platform game → game.Vulnerable →
        ∀ bullet ∈ game.monsterCluster.bulletVec, ¬Strikes platform game bullet) ∧
      (checkCollisions platform game).player.lives = game.player.lives ∧
      (checkCollisions platform game).monsterCluster.bulletVec = game.monsterCluster.bulletVec) := by
  rcases checkCollisions_cases platform game with ⟨hk, _, _, hcheck⟩ |
    ⟨hk, hv, before, bullet, after, hbullets, hnone, hstrikes, hcheck⟩ | ⟨_, _, hnone, hcheck⟩ |
    ⟨_, hv, _, hcheck⟩ | ⟨_, hv, _, hcheck⟩ <;> rw [hcheck]
  · exact .inr ⟨fun hn => absurd hk hn, rfl, rfl⟩
  · exact .inl ⟨hk, hv, before, bullet, after, hbullets, hnone, hstrikes, rfl, rfl⟩
  · exact .inr ⟨fun _ _ => hnone, rfl, rfl⟩
  · exact .inr ⟨fun _ hv' => absurd hv' hv, rfl, rfl⟩
  · exact .inr ⟨fun _ hv' => absurd hv' hv, rfl, rfl⟩

theorem find?_striker (p : Bullet α → Bool) {before : List (Bullet α)} (after : List (Bullet α))
    {bullet : Bullet α} (hnone : ∀ other ∈ before, ¬p other) (hb : p bullet) :
    (before ++ bullet :: after).find? p = some bullet := by
  simp only [List.find?_append, List.find?_cons, hb]
  rw [List.find?_eq_none.mpr hnone]
  rfl

theorem findIdx?_striker (p : Bullet α → Bool) {before : List (Bullet α)} (after : List (Bullet α))
    {bullet : Bullet α} (hnone : ∀ other ∈ before, ¬p other) (hb : p bullet) :
    (before ++ bullet :: after).findIdx? p = some before.length := by
  rw [List.findIdx?_append, List.findIdx?_eq_none_iff.mpr (by simpa using hnone)]
  simp [List.findIdx?_cons, hb]

-- One call: its life is paid by an alive bullet exactly when the striker is alive.
theorem paidByAlive_iff (platform : Platform α) (entering : Collisions α) :
    PaidByAlive platform entering ↔ AliveStriker platform entering := by
  rcases checkCollisions_enemy platform entering with
    ⟨hk, hv, before, bullet, after, hbullets, hnone, hstrikes, hlives, hnext⟩ | ⟨hnone, hlives, _⟩
  · have hfind := find?_striker (fun b => Strikes platform entering b) after
      (by simpa using hnone) (by simpa using hstrikes)
    rw [die_lives] at hlives
    constructor
    · intro hpaid _ _ hpos found hfound
      rw [hbullets, hfind, Option.some.injEq] at hfound
      subst found
      obtain ⟨index, alive, hget, halive, _, hhidden⟩ := hpaid (by rw [hlives, if_pos hpos]; omega)
      rw [hbullets] at hget
      rw [hnext, bulletStates, List.getElem?_map] at hhidden
      rcases Nat.lt_trichotomy index before.length with hlt | rfl | hgt
      · rw [List.getElem?_append_left hlt] at hget hhidden
        simp [hget, halive] at hhidden
      · simp only [List.getElem?_append_right (Nat.le_refl _), Nat.sub_self,
          List.getElem?_cons_zero, Option.some.injEq] at hget
        exact hget ▸ halive
      · obtain ⟨offset, rfl⟩ : ∃ offset, index = before.length + (offset + 1) :=
          ⟨index - before.length - 1, by omega⟩
        simp only [List.getElem?_append_right (Nat.le_add_right _ _), Nat.add_sub_cancel_left,
          List.getElem?_cons_succ] at hget hhidden
        simp [hget, halive] at hhidden
    · intro halive hlost
      have hpos : 0 < entering.player.lives := by
        by_contra hn
        rw [hlives, if_neg hn] at hlost
        omega
      refine ⟨before.length, bullet, by simp [hbullets], ?_, hstrikes, ?_⟩
      · exact halive hk hv hpos bullet (hbullets ▸ hfind)
      · simp [hnext, bulletStates]
  · constructor
    · intro _ hk hv hpos bullet hfind
      have hb := List.find?_some hfind
      exact absurd (by simpa using hb) (hnone hk hv bullet (List.mem_of_find?_eq_some hfind))
    · intro _ hlost
      rw [hlives] at hlost
      omega

-- No more lives are gone than enemy bullets are hidden.
def LivesAccounted (game : Collisions α) : Prop :=
  3 - game.player.lives ≤ ((bulletStates game.monsterCluster.bulletVec).count State.destroyed : Int)

theorem lives_checkCollisions (platform : Platform α) (entering : Collisions α)
    (halive : AliveStriker platform entering) (h : LivesAccounted entering) :
    LivesAccounted (checkCollisions platform entering) := by
  unfold LivesAccounted at h ⊢
  rcases checkCollisions_enemy platform entering with
    ⟨hk, hv, before, bullet, after, hbullets, hnone, hstrikes, hlives, hnext⟩ | ⟨_, hlives, hnext⟩
  · rw [hlives, hnext, die_lives]
    rw [hbullets] at h
    simp only [bulletStates, List.map_append, List.map_cons, count_cell, Bullet.hide_state,
      ite_true] at h ⊢
    split_ifs with hpos
    · have hstate := halive hk hv hpos bullet (by
        rw [hbullets]
        exact find?_striker _ _ (by simpa using hnone) (by simpa using hstrikes))
      simp only [hstate, reduceCtorEq, ite_false] at h
      omega
    · split_ifs at h <;> omega
  · rw [hlives, hnext]
    exact h

variable [Coord α]

-- The enemy bullet that takes a life in this pass.
def lifeTaker (platform : Platform α) (handTracker : HandTracker α) (input : FrameInput α)
    (game : Collisions α) : List Nat :=
  match advance platform handTracker input game with
  | some entering =>
      if (checkCollisions platform entering).player.lives < entering.player.lives then
        (striker platform entering).toList
      else
        []
  | none => []

theorem advance_bulletStates (platform : Platform α) (handTracker : HandTracker α)
    (input : FrameInput α) (game entering : Collisions α)
    (h : advance platform handTracker input game = some entering) :
    Grown (bulletStates game.monsterCluster.bulletVec)
      (bulletStates entering.monsterCluster.bulletVec) := by
  obtain ⟨cluster, hc, rfl⟩ := advance_eq_some platform handTracker input game entering h
  exact move_bulletStates platform _ _ _ _ cluster hc

theorem lifeTaker_cases (platform : Platform α) (handTracker : HandTracker α)
    (input : FrameInput α) (game entering : Collisions α)
    (ha : advance platform handTracker input game = some entering)
    (halive : AliveStriker platform entering) :
    lifeTaker platform handTracker input game = [] ∨ ∃ index : Nat,
      lifeTaker platform handTracker input game = [index] ∧
      (bulletStates entering.monsterCluster.bulletVec)[index]? = some .alive ∧
      (bulletStates (checkCollisions platform entering).monsterCluster.bulletVec)[index]? =
        some .destroyed := by
  unfold lifeTaker
  simp only [ha]
  split_ifs with hlost
  · rcases checkCollisions_enemy platform entering with
      ⟨hk, hv, before, bullet, after, hbullets, hnone, hstrikes, hlives, hnext⟩ | ⟨_, hlives, _⟩
    · have hpos : 0 < entering.player.lives := by
        by_contra hn
        rw [hlives, die_lives, if_neg hn] at hlost
        omega
      have hfind := find?_striker (fun b => Strikes platform entering b) after
        (by simpa using hnone) (by simpa using hstrikes)
      have hindex := findIdx?_striker (fun b => Strikes platform entering b) after
        (by simpa using hnone) (by simpa using hstrikes)
      have hstate := halive hk hv hpos bullet (hbullets ▸ hfind)
      refine .inr ⟨before.length, ?_, ?_, ?_⟩
      · rw [striker, hbullets, hindex]
        rfl
      · simp [hbullets, bulletStates, hstate]
      · simp [hnext, bulletStates]
    · omega
  · exact .inl rfl

-- A bullet that takes a life was not hidden before and is hidden from then on.
theorem lifeTakers_nodup (platform : Platform α) (handTracker : HandTracker α)
    (inputs : List (FrameInput α)) (first : Collisions α)
    (halive : ∀ entering, Enters platform handTracker first inputs entering →
      AliveStriker platform entering) :
    (log (frame platform handTracker) (lifeTaker platform handTracker) first inputs).Nodup ∧
    ∀ index ∈ log (frame platform handTracker) (lifeTaker platform handTracker) first inputs,
      (bulletStates first.monsterCluster.bulletVec)[index]? ≠ some .destroyed := by
  induction inputs generalizing first with
  | nil => simp [log]
  | cons input rest ih =>
      cases ha : advance platform handTracker input first with
      | none => simp [log, lifeTaker, frame, ha]
      | some entering =>
          have hnext : frame platform handTracker input first =
            some (checkCollisions platform entering) := by simp [frame, ha]
          have htail : ∀ other, Enters platform handTracker (checkCollisions platform entering) rest
              other → AliveStriker platform other := by
            intro other hother
            obtain ⟨game, input', next, hvisit, hadvance⟩ := hother
            exact halive other ⟨game, input', next, hvisit.tail hnext, hadvance⟩
          obtain ⟨hnodup, hfresh⟩ := ih (checkCollisions platform entering) htail
          have hadvance := (advance_bulletStates platform handTracker input first entering ha).stayDestroyed
          have hcheck := checkCollisions_enemyBullets platform entering
          have hlater : ∀ index ∈ log (frame platform handTracker) (lifeTaker platform handTracker)
              (checkCollisions platform entering) rest,
              (bulletStates first.monsterCluster.bulletVec)[index]? ≠ some .destroyed :=
            fun index hm hd => hfresh index hm (hcheck index (hadvance index hd))
          simp only [log, hnext]
          rcases lifeTaker_cases platform handTracker input first entering ha
              (halive entering ⟨first, input, _, visits_head _ _ _ _ hnext, ha⟩) with
            hemit | ⟨index, hemit, hbefore, hafter⟩
          · rw [hemit, List.nil_append]
            exact ⟨hnodup, hlater⟩
          · rw [hemit, List.singleton_append]
            refine ⟨List.nodup_cons.mpr ⟨fun hm => hfresh index hm hafter, hnodup⟩, ?_⟩
            intro other hm
            rcases List.mem_cons.mp hm with rfl | hm
            · intro hd
              rw [hadvance other hd] at hbefore
              cases hbefore
            · exact hlater other hm

-- Every life of a run is paid by an alive bullet exactly if no pass finds a
-- hidden bullet as the striker. In such a run no bullet takes two lives.
theorem life_losses (platform : Platform α) (handTracker : HandTracker α)
    (windowPosition : Vector2 Int) (windowSize : Vector2 Nat) (state : State)
    (inputs : List (FrameInput α)) :
    let first := start platform windowPosition windowSize state
    ((∀ entering, Enters platform handTracker first inputs entering → PaidByAlive platform entering) ↔
      (∀ entering, Enters platform handTracker first inputs entering →
        AliveStriker platform entering)) ∧
    ((∀ entering, Enters platform handTracker first inputs entering →
        AliveStriker platform entering) →
      (log (frame platform handTracker) (lifeTaker platform handTracker) first inputs).Nodup ∧
      ∀ game, run (frame platform handTracker) first inputs = some game →
        LivesAccounted game) := by
  intro first
  refine ⟨by simp only [paidByAlive_iff], ?_⟩
  intro halive
  refine ⟨(lifeTakers_nodup platform handTracker inputs first halive).1, ?_⟩
  intro game hrun
  apply run_invariant LivesAccounted inputs first game ?_ ?_ hrun
  · intro before input after hvisit hinv
    obtain ⟨entering, ha, rfl⟩ := frame_eq_some platform handTracker input before after hvisit.step_eq
    apply lives_checkCollisions platform entering (halive entering ⟨before, input, _, hvisit, ha⟩)
    unfold LivesAccounted
    rw [advance_lives platform handTracker input before entering ha,
      (advance_bulletStates platform handTracker input before entering ha).count_destroyed]
    exact hinv
  · exact Int.le_of_eq rfl

-- The ship waits for the bullet of pass 51, is hit in pass 95, and is steered
-- onto the same hidden bullet by the end of its 51 passes of protection.
def hitTwice : List (FrameInput ℚ) :=
  List.replicate 95 (waiting 6) ++ List.replicate 51 (openHand 0)

theorem hidden_bullet_takes_life :
    ∃ game, run (frame arcade arcadeTracker) arcadeStart hitTwice = some game ∧
      ¬LivesAccounted game ∧
      ¬(log (frame arcade arcadeTracker) (lifeTaker arcade arcadeTracker) arcadeStart hitTwice).Nodup := by
  have hrun : (run (frame arcade arcadeTracker) arcadeStart hitTwice).any (fun game =>
      ¬ 3 - game.player.lives ≤ ((bulletStates game.monsterCluster.bulletVec).count State.destroyed : Int))
      = true := by
    decide +kernel
  have hlog : log (frame arcade arcadeTracker) (lifeTaker arcade arcadeTracker) arcadeStart hitTwice =
      [0, 0] := by
    decide +kernel
  obtain ⟨game, hgame, hlives⟩ := (Option.any_eq_true _ _).mp hrun
  have hfew := of_decide_eq_true hlives
  exact ⟨game, hgame, hfew, by simp [hlog]⟩

end SpaceInvaders

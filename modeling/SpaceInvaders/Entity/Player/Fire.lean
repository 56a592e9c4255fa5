import SpaceInvaders.Library.Spacing
import SpaceInvaders.Entity.Player.Lemmas

namespace SpaceInvaders.Player

open Transition Spacing

variable {α : Type} [Coord α]

-- A shot from outside, for a closed fist, or an update.
inductive Action where
  | shoot
  | update (controls : Controls) (windowSize : Vector2 Nat)

def act (platform : Platform α) : Action → Player α → Option (Player α)
  | .shoot, player => some (player.shoot platform)
  | .update controls windowSize, player => some (player.update platform controls windowSize)

-- A mark for each bullet that is appended and a tick for each cooldown step. The
-- Space key shoots before the cooldown step.
def beats (platform : Platform α) : Action → Player α → List Bool
  | .shoot, player => (player.shot platform).map fun _ => true
  | .update controls _, player => ((player.spaceShot platform controls).map fun _ => true) ++ [false]

def updates (actions : List Action) : Nat :=
  actions.countP fun
    | .update _ _ => true
    | .shoot => false

-- What the fire rate depends on.
def trigger (player : Player α) : Bool × Int := (player.isFiring, player.cooldown)

omit [Coord α] in
theorem coolDown_trigger (player other : Player α) (h : player.trigger = other.trigger) :
    player.coolDown.trigger = other.coolDown.trigger := by
  obtain ⟨hfiring, hcooldown⟩ := Prod.mk.inj h
  unfold coolDown
  rw [hfiring, hcooldown]
  split_ifs
  · simp [trigger]
  · rfl
  · exact h

theorem steer_trigger (controls : Controls) (player : Player α) :
    (player.steer controls).trigger = player.trigger :=
  steer_keeps trigger (fun _ _ _ => rfl) controls player

theorem confine_trigger (platform : Platform α) (windowSize : Vector2 Nat) (player : Player α) :
    (player.confine platform windowSize).trigger = player.trigger := by
  have hleft (p : Player α) : p.clampLeft.trigger = p.trigger := by
    unfold clampLeft
    split_ifs <;> rfl
  have hup (p : Player α) : p.clampUp.trigger = p.trigger := by
    unfold clampUp
    split_ifs <;> rfl
  have hbottom (p : Player α) : (p.clampBottom platform windowSize).trigger = p.trigger := by
    unfold clampBottom
    dsimp only
    split_ifs <;> rfl
  have hright (p : Player α) : (p.clampRight platform windowSize).trigger = p.trigger := by
    unfold clampRight
    dsimp only
    split_ifs <;> rfl
  simp only [confine, hleft, hup, hbottom, hright]

-- To the trigger an update is the shot for the Space key and the cooldown step.
theorem update_trigger (platform : Platform α) (controls : Controls) (windowSize : Vector2 Nat)
    (player : Player α) :
    (player.update platform controls windowSize).trigger =
      (player.updateMovement platform controls).coolDown.trigger := by
  have hconfine := confine_trigger platform windowSize
    (player.updateMovement platform controls).updatePhysics
  exact coolDown_trigger _ _ hconfine

-- A player is left as it is, or fires one bullet.
theorem shoot_cases (platform : Platform α) (player : Player α) :
    (player.isFiring = true ∧ player.shoot platform = player ∧ player.shot platform = []) ∨
    (player.isFiring = false ∧ ∃ bullet, player.shot platform = [bullet] ∧
      player.shoot platform =
        { player with isFiring := true, bulletVec := player.bulletVec ++ [bullet] }) := by
  unfold shoot shot
  cases h : player.isFiring with
  | true => exact .inl ⟨rfl, by simp, by simp⟩
  | false =>
      refine .inr ⟨rfl, Bullet.new
        (player.position.x + (player.getPlayerBounds platform).width / ((2 : Int) : α))
        player.position.y 5, ?_, ?_⟩ <;> simp

-- The past of the trigger: while it is held back, the cooldown counts the steps
-- since the last bullet, and after that there were enough of them.
structure Held (trigger : Bool × Int) (past : List Bool) : Prop where
  spaced : Spaced 11 past
  firing : trigger.1 = true → ∃ ticks, quiet past = some ticks ∧ trigger.2 = ticks ∧ ticks ≤ 10
  idle : trigger.1 = false → trigger.2 = 0 ∧ ∀ ticks ∈ quiet past, 11 ≤ ticks

theorem Held.shoot {player : Player α} {past : List Bool} (h : Held player.trigger past)
    (platform : Platform α) :
    Held (player.shoot platform).trigger (((player.shot platform).map fun _ => true) ++ past) := by
  rcases shoot_cases platform player with ⟨_, hshoot, hshot⟩ | ⟨hidle, bullet, hshot, hshoot⟩
  · rw [hshoot, hshot]
    exact h
  · obtain ⟨hcooldown, hquiet⟩ := h.idle hidle
    rw [hshoot, hshot]
    refine ⟨spaced_mark hquiet h.spaced, fun _ => ⟨0, rfl, hcooldown, by omega⟩, fun hf => ?_⟩
    cases hf

omit [Coord α] in
theorem Held.coolDown {player : Player α} {past : List Bool} (h : Held player.trigger past) :
    Held player.coolDown.trigger (false :: past) := by
  have hspaced := spaced_tick h.spaced
  cases hfiring : player.isFiring with
  | true =>
      obtain ⟨ticks, hquiet, hcooldown, hle⟩ := h.firing hfiring
      have hcount : player.cooldown = ticks := hcooldown
      by_cases hwait : ticks < 10
      · have hstep : player.coolDown = { player with cooldown := player.cooldown + 1 } := by
          rw [Player.coolDown, if_pos ⟨by omega, hfiring⟩]
        rw [hstep]
        refine ⟨hspaced, fun _ => ⟨ticks + 1, by simp [hquiet], ?_, by omega⟩, fun hidle => ?_⟩
        · simp only [trigger, hcount]
          push_cast
          rfl
        · simp only [trigger, hfiring] at hidle
          cases hidle
      · have hstep : player.coolDown = { player with isFiring := false, cooldown := 0 } := by
          rw [Player.coolDown, if_neg (by omega), if_pos (by omega)]
        rw [hstep]
        refine ⟨hspaced, nofun, fun _ => ⟨rfl, fun later hlater => ?_⟩⟩
        obtain ⟨earlier, hearlier, rfl⟩ := mem_quiet_tick hlater
        rw [hquiet] at hearlier
        cases hearlier
        omega
  | false =>
      obtain ⟨hcooldown, hquiet⟩ := h.idle hfiring
      have hzero : player.cooldown = 0 := hcooldown
      have hstep : player.coolDown = player := by
        rw [Player.coolDown, if_neg (by simp [hfiring]), if_neg (by omega)]
      rw [hstep]
      refine ⟨hspaced, fun hf => ?_, fun _ => ⟨hcooldown, fun later hlater => ?_⟩⟩
      · rw [show player.trigger.1 = player.isFiring from rfl, hfiring] at hf
        cases hf
      · obtain ⟨earlier, hearlier, rfl⟩ := mem_quiet_tick hlater
        have := hquiet earlier hearlier
        omega

theorem Held.updateMovement {player : Player α} {past : List Bool} (h : Held player.trigger past)
    (platform : Platform α) (controls : Controls) :
    Held (player.updateMovement platform controls).trigger
      (((player.spaceShot platform controls).map fun _ => true) ++ past) := by
  rw [← steer_trigger controls player] at h
  unfold Player.updateMovement spaceShot
  split_ifs
  · exact h.shoot platform
  · exact h

theorem act_held (platform : Platform α) (action : Action) (before after : Player α × List Bool)
    (hbefore : Held before.1.trigger before.2)
    (h : withLog (act platform) (beats platform) action before = some after) :
    Held after.1.trigger after.2 := by
  obtain ⟨player, past⟩ := before
  obtain ⟨next, hnext, rfl⟩ := withLog_eq_some (beats platform) action player past after h
  have hreverse (bullets : List (Bullet α)) :
      (bullets.map fun _ => true).reverse = bullets.map fun _ => true := by
    simp only [List.map_const', List.reverse_replicate]
  cases action with
  | shoot =>
      cases hnext
      simp only [beats, hreverse]
      exact hbefore.shoot platform
  | update controls windowSize =>
      cases hnext
      simp only [beats, List.reverse_append, hreverse, List.reverse_singleton, List.cons_append,
        update_trigger]
      exact (hbefore.updateMovement platform controls).coolDown

-- No action takes a bullet away.
theorem log_bullets (platform : Platform α) (actions : List Action) (first player : Player α)
    (hrun : run (act platform) first actions = some player) :
    player.bulletVec.length =
      first.bulletVec.length + (log (act platform) (beats platform) first actions).count true := by
  induction actions generalizing first with
  | nil =>
      cases hrun
      rfl
  | cons action rest ih =>
      rw [run_cons, Option.bind_eq_some_iff] at hrun
      obtain ⟨next, hnext, hrun⟩ := hrun
      rw [ih next hrun]
      simp only [log, hnext, List.count_append]
      cases action with
      | shoot =>
          cases hnext
          simp [shoot_bulletVec, beats, Nat.add_assoc]
      | update controls windowSize =>
          cases hnext
          simp [update_bulletVec, beats, Nat.add_assoc]

theorem log_updates (platform : Platform α) (actions : List Action) (first player : Player α)
    (hrun : run (act platform) first actions = some player) :
    (log (act platform) (beats platform) first actions).count false = updates actions := by
  induction actions generalizing first with
  | nil => rfl
  | cons action rest ih =>
      rw [run_cons, Option.bind_eq_some_iff] at hrun
      obtain ⟨next, hnext, hrun⟩ := hrun
      have hrest := ih next hrun
      have hmarks (bullets : List (Bullet α)) : (bullets.map fun _ => true).count false = 0 := by
        simp [List.count_replicate]
      simp only [log, hnext, List.count_append, hrest]
      cases action with
      | shoot =>
          simp only [beats, updates, hmarks, List.countP_cons, Nat.zero_add, Bool.false_eq_true,
            ite_false, Nat.add_zero]
      | update controls windowSize =>
          simp only [beats, updates, List.count_append, hmarks, List.countP_cons, ite_true,
            List.count_singleton_self]
          omega

-- A shot that finds the trigger free creates a bullet, from outside and in an update.
structure Fires (platform : Platform α) (player : Player α) : Prop where
  shoot : ∃ bullet, player.shoot platform =
    { player with isFiring := true, bulletVec := player.bulletVec ++ [bullet] }
  space : ∀ controls windowSize, controls.keySpace = true →
    ∃ bullet, (player.update platform controls windowSize).bulletVec =
      (player.bulletVec ++ [bullet]).map Bullet.updateBullet

theorem fires_of_idle (platform : Platform α) (player : Player α) (h : player.isFiring = false) :
    Fires platform player := by
  constructor
  · rcases shoot_cases platform player with ⟨hfiring, _⟩ | ⟨_, bullet, _, hshoot⟩
    · rw [h] at hfiring
      cases hfiring
    · exact ⟨bullet, hshoot⟩
  · intro controls windowSize hspace
    have hidle : (player.steer controls).isFiring = false :=
      (congrArg Prod.fst (steer_trigger controls player)).trans h
    rcases shoot_cases platform (player.steer controls) with ⟨hfiring, _⟩ | ⟨_, bullet, hshot, _⟩
    · rw [hidle] at hfiring
      cases hfiring
    · refine ⟨bullet, ?_⟩
      rw [update_bulletVec, spaceShot, if_pos hspace, hshot]

-- Any shots and updates after each other: the trigger stays in its range, bullets are
-- eleven cooldown steps apart, and after eleven steps without one the next shot fires.
theorem fire_rate (platform : Platform α) (windowPosition : Vector2 Int) (state : State)
    (actions : List Action) (player : Player α)
    (hrun : run (act platform) (new platform windowPosition state) actions = some player) :
    (0 ≤ player.cooldown ∧ player.cooldown ≤ 10 ∧ (player.isFiring = false → player.cooldown = 0)) ∧
    (∀ shooter : Player α, shooter.shoot platform = shooter ∨ ∃ bullet, shooter.shoot platform =
      { shooter with isFiring := true, bulletVec := shooter.bulletVec ++ [bullet] }) ∧
    Spaced 11 (log (act platform) (beats platform) (new platform windowPosition state) actions) ∧
    player.bulletVec.length =
      (log (act platform) (beats platform) (new platform windowPosition state) actions).count true ∧
    player.bulletVec.length ≤ 1 + updates actions / 11 ∧
    ∀ before ticks, log (act platform) (beats platform) (new platform windowPosition state) actions =
      before ++ true :: List.replicate ticks false → 11 ≤ ticks → Fires platform player := by
  have hfirst : Held (new platform windowPosition state).trigger [] :=
    ⟨spaced_nil 11, nofun, fun _ => ⟨rfl, by simp⟩⟩
  have hheld := run_invariant (fun state => Held state.1.trigger state.2) actions _ _
    (fun before action after hvisit hbefore => act_held platform action before after hbefore
      hvisit.step_eq) hfirst
    (run_withLog (beats platform) actions (new platform windowPosition state) player [] hrun)
  rw [List.append_nil] at hheld
  have hspaced : Spaced 11 (log (act platform) (beats platform) (new platform windowPosition state)
      actions) := by
    simpa using hheld.spaced.reverse
  have hbullets := log_bullets platform actions _ player hrun
  have hupdates := log_updates platform actions _ player hrun
  have hnone : (new platform windowPosition state).bulletVec.length = 0 := rfl
  rw [hnone, Nat.zero_add] at hbullets
  refine ⟨?_, ?_, hspaced, hbullets, ?_, ?_⟩
  · cases hfiring : player.isFiring with
    | true =>
        obtain ⟨ticks, _, hcooldown, hle⟩ := hheld.firing hfiring
        have hcount : player.cooldown = ticks := hcooldown
        exact ⟨by omega, by omega, nofun⟩
    | false =>
        have hzero : player.cooldown = 0 := (hheld.idle hfiring).1
        exact ⟨by omega, by omega, fun _ => hzero⟩
  · intro shooter
    rcases shoot_cases platform shooter with ⟨_, hshoot, _⟩ | ⟨_, bullet, _, hshoot⟩
    · exact .inl hshoot
    · exact .inr ⟨bullet, hshoot⟩
  · rw [hbullets, ← hupdates]
    exact marks_le_div (by omega) hspaced
  · intro before ticks hlog hticks
    apply fires_of_idle
    by_contra hidle
    have hfiring : player.isFiring = true := by simpa using hidle
    obtain ⟨since, hsince, _, hle⟩ := hheld.firing hfiring
    have hquiet := (quiet_eq_some_iff (List.replicate ticks false ++ true :: before.reverse) ticks).mpr
      ⟨before.reverse, rfl⟩
    simp only [hlog, List.reverse_append, List.reverse_cons, List.reverse_replicate, List.append_assoc,
      List.singleton_append, hquiet] at hsince
    cases hsince
    omega

-- A shot, eleven updates and a shot.
theorem fire_rate_arcade :
    ∃ player, run (act arcade) (new arcade ⟨0, 0⟩ .alive)
        (.shoot :: List.replicate 11 (.update .none ⟨1920, 1080⟩)) = some player ∧
      player.bulletVec.length ≤ 2 ∧ Fires arcade player := by
  have hrun : (run (act arcade) (new arcade ⟨0, 0⟩ .alive)
      (.shoot :: List.replicate 11 (.update .none ⟨1920, 1080⟩))).isSome = true := rfl
  have hlog : log (act arcade) (beats arcade) (new arcade ⟨0, 0⟩ .alive)
      (.shoot :: List.replicate 11 (.update .none ⟨1920, 1080⟩)) =
        [] ++ true :: List.replicate 11 false := by
    decide +kernel
  obtain ⟨player, hplayer⟩ := Option.isSome_iff_exists.mp hrun
  obtain ⟨_, _, _, _, hbullets, hfires⟩ := fire_rate arcade ⟨0, 0⟩ .alive
    (.shoot :: List.replicate 11 (.update .none ⟨1920, 1080⟩)) player hplayer
  exact ⟨player, hplayer, hbullets, hfires [] 11 hlog (by omega)⟩

end SpaceInvaders.Player

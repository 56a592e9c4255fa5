import SpaceInvaders.Library.Spacing
import SpaceInvaders.GameProcessing.Collisions.Shield

namespace SpaceInvaders.Collisions

open Transition Spacing

variable {α : Type}

-- Everything may have changed since the last check but what only a check changes.
def arrange (scene game : Collisions α) : Collisions α :=
  { scene with
    player := { scene.player with lives := game.player.lives, state := game.player.state }
    deathCooldown := game.deathCooldown }

-- One call, for a scene that takes the place of the rest of the game.
def call (platform : Platform α) (scene game : Collisions α) : Option (Collisions α) :=
  some (checkCollisions platform (arrange scene game))

def TakesLife (platform : Platform α) (scene game : Collisions α) : Prop :=
  (checkCollisions platform (arrange scene game)).player.lives < game.player.lives

instance instDecidableTakesLife (platform : Platform α) (scene game : Collisions α) :
    Decidable (TakesLife platform scene game) :=
  inferInstanceAs (Decidable (_ < _))

-- The calls, marked where they take a life.
def takes (platform : Platform α) (scene game : Collisions α) : List Bool :=
  [decide (TakesLife platform scene game)]

structure Guarded (game : Collisions α) : Prop where
  lives : 0 ≤ game.player.lives ∧ game.player.lives ≤ 3
  deathCooldown : 0 ≤ game.deathCooldown ∧ game.deathCooldown ≤ 50
  destroyed : game.player.state = .destroyed → 1 ≤ game.deathCooldown
  alive : game.player.state = .alive → 1 ≤ game.deathCooldown → game.player.lives = 0

-- What a call can do to the lives, the state and the cooldown.
inductive Outcome (game next : Collisions α) : Prop
  | nothing : next.player.lives = game.player.lives → next.player.state = game.player.state →
      next.deathCooldown = game.deathCooldown → Outcome game next
  | hit : game.player.state = .alive → game.deathCooldown = 0 → 0 < game.player.lives →
      next.player.lives = game.player.lives - 1 → next.player.state = .destroyed →
      next.deathCooldown = 1 → Outcome game next
  | noLives : game.player.state = .alive → game.deathCooldown = 0 → ¬0 < game.player.lives →
      next.player.lives = game.player.lives → next.player.state = .alive →
      next.deathCooldown = 1 → Outcome game next
  | waits : ¬(game.player.state = .alive ∧ game.deathCooldown = 0) → game.deathCooldown < 50 →
      next.player.lives = game.player.lives → next.player.state = game.player.state →
      next.deathCooldown = game.deathCooldown + 1 → Outcome game next
  | recovers : ¬(game.player.state = .alive ∧ game.deathCooldown = 0) → ¬game.deathCooldown < 50 →
      next.player.lives = game.player.lives → next.player.state = .alive →
      next.deathCooldown = 0 → Outcome game next

theorem checkCollisions_outcome (platform : Platform α) (game : Collisions α) :
    Outcome game (checkCollisions platform game) := by
  rcases checkCollisions_cases platform game with ⟨_, _, _, hcheck⟩ |
    ⟨_, hv, _, _, _, _, _, _, hcheck⟩ | ⟨_, _, _, hcheck⟩ | ⟨_, hv, hc, hcheck⟩ |
    ⟨_, hv, hc, hcheck⟩ <;> rw [hcheck]
  · exact .nothing rfl rfl rfl
  · obtain ⟨hstate, hcooldown⟩ := hv
    by_cases hlives : 0 < game.player.lives
    · exact .hit hstate hcooldown hlives (by simp [struck, Player.die, hlives])
        (by simp [struck, Player.die, hlives]) (by simp [struck, hcooldown])
    · exact .noLives hstate hcooldown hlives (by simp [struck, Player.die, hlives])
        (by simp [struck, Player.die, hlives, hstate]) (by simp [struck, hcooldown])
  · exact .nothing rfl rfl rfl
  · exact .waits hv hc rfl rfl rfl
  · exact .recovers hv hc rfl rfl rfl

theorem call_outcome (platform : Platform α) (scene game next : Collisions α)
    (h : call platform scene game = some next) : Outcome game next := by
  cases h
  cases checkCollisions_outcome platform (arrange scene game) with
  | nothing hl hs hc => exact .nothing hl hs hc
  | hit hstate hcooldown hlives hl hs hc => exact .hit hstate hcooldown hlives hl hs hc
  | noLives hstate hcooldown hlives hl hs hc => exact .noLives hstate hcooldown hlives hl hs hc
  | waits hv hwait hl hs hc => exact .waits hv hwait hl hs hc
  | recovers hv hwait hl hs hc => exact .recovers hv hwait hl hs hc

theorem Outcome.guarded {game next : Collisions α} (h : Outcome game next) (hgame : Guarded game) :
    Guarded next := by
  obtain ⟨hlives, hcooldown, hdestroyed, halive⟩ := hgame
  cases h with
  | nothing hl hs hc =>
      rw [← hl] at hlives halive
      rw [← hs] at hdestroyed halive
      rw [← hc] at hcooldown hdestroyed halive
      exact ⟨hlives, hcooldown, hdestroyed, halive⟩
  | hit _ _ hlives' hl hs hc =>
      refine ⟨by omega, by omega, by omega, fun ha => ?_⟩
      rw [hs] at ha
      cases ha
  | noLives _ _ hlives' hl hs hc => exact ⟨by omega, by omega, by omega, by omega⟩
  | waits hv hwait hl hs hc =>
      refine ⟨by omega, by omega, by omega, fun ha _ => ?_⟩
      rw [hs] at ha
      have hpositive : game.deathCooldown ≠ 0 := fun hzero => hv ⟨ha, hzero⟩
      rw [hl]
      exact halive ha (by omega)
  | recovers _ _ hl hs hc =>
      refine ⟨by omega, by omega, fun hd => ?_, by omega⟩
      rw [hs] at hd
      cases hd

theorem Outcome.lives {game next : Collisions α} (h : Outcome game next) :
    next.player.lives ≤ game.player.lives ∧ game.player.lives ≤ next.player.lives + 1 := by
  cases h with
  | nothing hl _ _ => omega
  | hit _ _ _ hl _ _ => omega
  | noLives _ _ _ hl _ _ => omega
  | waits _ _ hl _ _ => omega
  | recovers _ _ hl _ _ => omega

-- A ship that can be hit has had its time, a destroyed one has waited for no longer
-- than the calls since its death.
structure Sheltered (state : Collisions α × List Bool) : Prop where
  guarded : Guarded state.1
  spaced : Spaced 50 state.2
  alive : state.1.player.state = .alive → ∀ ticks ∈ quiet state.2, 50 ≤ ticks
  destroyed : state.1.player.state = .destroyed →
    ∀ ticks ∈ quiet state.2, state.1.deathCooldown ≤ ticks + 1

theorem Sheltered.mark {game next : Collisions α} {past : List Bool} (h : Sheltered (game, past))
    (houtcome : Outcome game next) (hlost : next.player.lives < game.player.lives) :
    Sheltered (next, true :: past) := by
  cases houtcome with
  | nothing hl _ _ => omega
  | noLives _ _ _ hl _ _ => omega
  | waits _ _ hl _ _ => omega
  | recovers _ _ hl _ _ => omega
  | hit hstate hcooldown hlives hl hs hc =>
      refine ⟨(Outcome.hit hstate hcooldown hlives hl hs hc).guarded h.guarded,
        spaced_mark (h.alive hstate) h.spaced, fun ha => ?_, fun _ ticks _ => ?_⟩
      · rw [hs] at ha
        cases ha
      · dsimp only
        omega

theorem Sheltered.tick {game next : Collisions α} {past : List Bool} (h : Sheltered (game, past))
    (houtcome : Outcome game next) (hkept : ¬next.player.lives < game.player.lives) :
    Sheltered (next, false :: past) := by
  have hguarded := houtcome.guarded h.guarded
  have hspaced := spaced_tick h.spaced
  have hcooldown := h.guarded.deathCooldown
  cases houtcome with
  | hit _ _ _ hl _ _ => omega
  | nothing hl hs hc =>
      refine ⟨hguarded, hspaced, fun ha ticks ht => ?_, fun hd ticks ht => ?_⟩ <;>
        obtain ⟨earlier, hearlier, rfl⟩ := mem_quiet_tick ht
      · have := h.alive (hs ▸ ha) earlier hearlier
        omega
      · have := h.destroyed (hs ▸ hd) earlier hearlier
        dsimp only at this ⊢
        omega
  | noLives hstate _ _ hl hs hc =>
      refine ⟨hguarded, hspaced, fun _ ticks ht => ?_, fun hd => ?_⟩
      · obtain ⟨earlier, hearlier, rfl⟩ := mem_quiet_tick ht
        have := h.alive hstate earlier hearlier
        omega
      · rw [hs] at hd
        cases hd
  | waits _ hwait hl hs hc =>
      refine ⟨hguarded, hspaced, fun ha ticks ht => ?_, fun hd ticks ht => ?_⟩ <;>
        obtain ⟨earlier, hearlier, rfl⟩ := mem_quiet_tick ht
      · have := h.alive (hs ▸ ha) earlier hearlier
        omega
      · have := h.destroyed (hs ▸ hd) earlier hearlier
        dsimp only at this ⊢
        omega
  | recovers _ hwait hl hs hc =>
      refine ⟨hguarded, hspaced, fun _ ticks ht => ?_, fun hd => ?_⟩
      · obtain ⟨earlier, hearlier, rfl⟩ := mem_quiet_tick ht
        cases hstate : game.player.state with
        | alive =>
            have := h.alive hstate earlier hearlier
            omega
        | destroyed =>
            have := h.destroyed hstate earlier hearlier
            dsimp only at this
            omega
      · rw [hs] at hd
        cases hd

theorem call_sheltered (platform : Platform α) (scene : Collisions α)
    (before after : Collisions α × List Bool) (hbefore : Sheltered before)
    (h : withLog (call platform) (takes platform) scene before = some after) : Sheltered after := by
  obtain ⟨game, past⟩ := before
  obtain ⟨next, hnext, rfl⟩ := withLog_eq_some (takes platform) scene game past after h
  have houtcome := call_outcome platform scene game next hnext
  by_cases hlost : TakesLife platform scene game
  · simp only [takes, hlost, decide_true, List.reverse_singleton, List.singleton_append]
    cases hnext
    exact hbefore.mark houtcome hlost
  · simp only [takes, hlost, decide_false, List.reverse_singleton, List.singleton_append]
    cases hnext
    exact hbefore.tick houtcome hlost

-- Over any calls, with anything else between them: the lives go from three to none one by
-- one, the cooldown guards a dead ship, and 50 calls lie between two deaths.
theorem invulnerability (platform : Platform α) (first : Collisions α)
    (hlives : first.player.lives = 3) (hstate : first.player.state = .alive)
    (hcooldown : first.deathCooldown = 0) (scenes : List (Collisions α)) (game : Collisions α)
    (hrun : run (call platform) first scenes = some game) :
    Guarded game ∧
    (∀ before scene after, Visits (call platform) first scenes before scene after →
      after.player.lives ≤ before.player.lives ∧ before.player.lives ≤ after.player.lives + 1) ∧
    Spaced 50 (log (call platform) (takes platform) first scenes) := by
  have hguarded : Guarded first := by
    refine ⟨by omega, by omega, fun hd => ?_, by omega⟩
    rw [hstate] at hd
    cases hd
  have hfirst : Sheltered (first, []) := ⟨hguarded, spaced_nil 50, by simp, by simp⟩
  have hfinal := run_invariant Sheltered scenes (first, []) _
    (fun before scene after hvisit hbefore => call_sheltered platform scene before after hbefore
      hvisit.step_eq) hfirst (run_withLog (takes platform) scenes first game [] hrun)
  refine ⟨hfinal.guarded, ?_, ?_⟩
  · intro before scene after hvisit
    exact (call_outcome platform scene before after hvisit.step_eq).lives
  · simpa using hfinal.spaced.reverse

-- The ship is hit in the first of three calls and not in the others.
theorem invulnerability_underFire :
    ∃ game, run (call arcade) (underFire [] []) (List.replicate 3 (underFire [] [])) = some game ∧
      Guarded game ∧
      Spaced 50 (log (call arcade) (takes arcade) (underFire [] []) (List.replicate 3 (underFire [] []))) := by
  have hrun : (run (call arcade) (underFire [] []) (List.replicate 3 (underFire [] []))).isSome = true := rfl
  obtain ⟨game, hgame⟩ := Option.isSome_iff_exists.mp hrun
  obtain ⟨hguarded, _, hspaced⟩ := invulnerability arcade (underFire [] []) rfl rfl rfl
    (List.replicate 3 (underFire [] [])) game hgame
  exact ⟨game, hgame, hguarded, hspaced⟩

end SpaceInvaders.Collisions

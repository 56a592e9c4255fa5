import SpaceInvaders.Main.Lemmas
import SpaceInvaders.GameProcessing.Collisions.Lemmas

namespace SpaceInvaders

open Transition Collisions

variable {α : Type}

-- What a frame shows of the game.
def view (game : Collisions α) : Int × Score × Vector2 α × List (List State) :=
  (game.player.lives, game.score, game.player.position,
    game.monsterCluster.rows.map fun row => row.map Monster.state)

-- The same game with a destroyed ship that has waited for `cooldown` checks.
def asleep (cooldown : Int) (game : Collisions α) : Collisions α :=
  { game with player := { game.player with state := .destroyed }, deathCooldown := cooldown }

-- The game as it starts when the ship happens to be alive.
def Fresh (game : Collisions α) : Prop :=
  game.Vulnerable ∧ game.player.lives = 3

-- No enemy bullet is on the ship in a check without a kill while a destroyed
-- ship still has all its lives, which is so only before its first cooldown is over.
def Undisturbed (platform : Platform α) (entering : Collisions α) : Prop :=
  ¬Kills platform entering → entering.player.state = .destroyed → entering.player.lives = 3 →
    ∀ bullet ∈ entering.monsterCluster.bulletVec, ¬Strikes platform entering bullet

theorem view_asleep (cooldown : Int) (game : Collisions α) : view (asleep cooldown game) = view game := rfl

theorem kills_asleep (platform : Platform α) (cooldown : Int) (game : Collisions α) :
    Kills platform (asleep cooldown game) ↔ Kills platform game := Iff.rfl

theorem checkCollisions_asleep_of_kill (platform : Platform α) (cooldown : Int) (game : Collisions α)
    (h : Kills platform game) :
    checkCollisions platform (asleep cooldown game) = asleep cooldown (checkCollisions platform game) := by
  cases hk : FirstMatch.updateFirst (hitRows platform game.monsterCluster.rows)
      game.player.bulletVec with
  | none => exact absurd h ((no_kill_iff platform game).mp hk)
  | some found => simp [checkCollisions, asleep, hk]

-- A check without a kill counts the cooldown or ends it.
theorem checkCollisions_asleep_of_no_kill (platform : Platform α) (cooldown : Int)
    (game : Collisions α) (h : ¬Kills platform game) (halive : game.Vulnerable) :
    checkCollisions platform (asleep cooldown game) =
      if cooldown < 50 then asleep (cooldown + 1) game else game := by
  rw [checkCollisions_of_no_kill platform _ (mt (kills_asleep platform cooldown game).mp h)]
  obtain ⟨hstate, hcooldown⟩ := halive
  have hgame : { game with
      player := { game.player with state := .alive }, deathCooldown := 0 } = game := by
    rw [← hstate, ← hcooldown]
  by_cases hwait : cooldown < 50 <;>
    simp only [checkDamage, asleep, reduceCtorEq, false_and, hwait, ite_true, ite_false]
  exact hgame

theorem checkCollisions_of_no_strike (platform : Platform α) (game : Collisions α)
    (h : ¬Kills platform game) (halive : game.Vulnerable)
    (hnone : ∀ bullet ∈ game.monsterCluster.bulletVec, ¬Strikes platform game bullet) :
    checkCollisions platform game = game := by
  rw [checkCollisions_of_no_kill platform game h]
  rcases checkDamage_cases platform game with
    ⟨_, _, bullet, _, hbullets, _, hstrikes, _⟩ | ⟨_, _, heq⟩ | ⟨hv, _⟩ | ⟨hv, _⟩
  · exact absurd hstrikes (hnone bullet (by simp [hbullets]))
  · exact heq
  · exact absurd halive hv
  · exact absurd halive hv

theorem checkCollisions_lives_of_strike (platform : Platform α) (game : Collisions α)
    (h : ¬Kills platform game) (halive : game.Vulnerable) (hlives : 0 < game.player.lives)
    (hstrike : ¬∀ bullet ∈ game.monsterCluster.bulletVec, ¬Strikes platform game bullet) :
    (checkCollisions platform game).player.lives = game.player.lives - 1 := by
  rw [checkCollisions_of_no_kill platform game h]
  rcases checkDamage_cases platform game with
    ⟨_, _, _, _, _, _, _, heq⟩ | ⟨_, hnone, _⟩ | ⟨hv, _⟩ | ⟨hv, _⟩
  · rw [heq, struck, die_lives, if_pos hlives]
  · exact absurd hnone hstrike
  · exact absurd halive hv
  · exact absurd halive hv

-- Once a ship has been hit, it has fewer than three lives whenever it is destroyed.
def HitBefore (game : Collisions α) : Prop :=
  game.player.lives ≤ 3 ∧ (game.player.state = .destroyed → game.player.lives ≤ 2)

theorem checkCollisions_hitBefore (platform : Platform α) (game : Collisions α)
    (h : HitBefore game) : HitBefore (checkCollisions platform game) := by
  obtain ⟨hlives, hdestroyed⟩ := h
  rcases checkCollisions_cases platform game with ⟨_, _, _, hcheck⟩ |
    ⟨_, _, _, _, _, _, _, _, hcheck⟩ | ⟨_, _, _, hcheck⟩ | ⟨_, _, _, hcheck⟩ |
    ⟨_, _, _, hcheck⟩ <;> rw [hcheck]
  · exact ⟨hlives, hdestroyed⟩
  · unfold HitBefore struck Player.die
    dsimp only
    split_ifs
    · dsimp only
      omega
    · exact ⟨hlives, hdestroyed⟩
  · exact ⟨hlives, hdestroyed⟩
  · exact ⟨hlives, hdestroyed⟩
  · exact ⟨hlives, fun hstate => by cases hstate⟩

variable [Coord α]

theorem advance_asleep (platform : Platform α) (handTracker : HandTracker α) (input : FrameInput α)
    (cooldown : Int) (game : Collisions α) :
    advance platform handTracker input (asleep cooldown game) =
      (advance platform handTracker input game).map (asleep cooldown) := by
  have hpass : playerPass platform handTracker input (asleep cooldown game).player = _ :=
    playerPass_withState platform handTracker input .destroyed game.player
  have hcluster : clusterPass platform input (asleep cooldown game).monsterCluster =
    clusterPass platform input game.monsterCluster := rfl
  rw [advance, advance, hpass, hcluster, Option.map_map]
  rfl

theorem advance_fresh (platform : Platform α) (handTracker : HandTracker α) (input : FrameInput α)
    (game entering : Collisions α) (h : Fresh game)
    (ha : advance platform handTracker input game = some entering) : Fresh entering := by
  obtain ⟨cluster, _, rfl⟩ := advance_eq_some platform handTracker input game entering ha
  obtain ⟨⟨hstate, hcooldown⟩, hlives⟩ := h
  exact ⟨⟨by simpa using hstate, hcooldown⟩, by simpa using hlives⟩

theorem frame_hitBefore (platform : Platform α) (handTracker : HandTracker α) (input : FrameInput α)
    (game entering : Collisions α) (h : HitBefore game)
    (ha : advance platform handTracker input game = some entering) : HitBefore entering := by
  obtain ⟨cluster, _, rfl⟩ := advance_eq_some platform handTracker input game entering ha
  simpa [HitBefore] using h

-- A ship that has been alive is undisturbed in this sense for good.
theorem undisturbed_of_hitBefore (platform : Platform α) (handTracker : HandTracker α)
    (inputs : List (FrameInput α)) (first entering : Collisions α) (h : HitBefore first)
    (henters : Enters platform handTracker first inputs entering) :
    Undisturbed platform entering := by
  obtain ⟨game, input, next, hvisit, ha⟩ := henters
  have hgame : HitBefore game := by
    refine hvisit.invariant HitBefore ?_ h
    intro before other after hv hbefore
    obtain ⟨found, hfound, rfl⟩ := frame_eq_some platform handTracker other before after hv.step_eq
    exact checkCollisions_hitBefore platform found
      (frame_hitBefore platform handTracker other before found hbefore hfound)
  obtain ⟨_, hdestroyed⟩ := frame_hitBefore platform handTracker input game entering hgame ha
  intro _ hstate hlives
  have := hdestroyed hstate
  omega

-- The two runs look the same at the end of every frame.
def LookSame (platform : Platform α) (handTracker : HandTracker α) (first second : Collisions α)
    (inputs : List (FrameInput α)) : Prop :=
  ∀ frames, (run (frame platform handTracker) first (inputs.take frames)).map view =
    (run (frame platform handTracker) second (inputs.take frames)).map view

theorem lookSame_cons (platform : Platform α) (handTracker : HandTracker α)
    (first second next other : Collisions α) (input : FrameInput α) (rest : List (FrameInput α))
    (hview : view first = view second) (hnext : frame platform handTracker input first = some next)
    (hother : frame platform handTracker input second = some other) :
    LookSame platform handTracker first second (input :: rest) ↔
      LookSame platform handTracker next other rest := by
  constructor
  · intro h frames
    have hframes := h (frames + 1)
    simpa [hnext, hother] using hframes
  · intro h frames
    cases frames with
    | zero => simpa using hview
    | succ frames => simpa [hnext, hother] using h frames

-- The step of the induction below: what one check does to the two games.
theorem lookSame_check (platform : Platform α) (handTracker : HandTracker α)
    (rest : List (FrameInput α))
    (ih : ∀ cooldown : Int, cooldown ≤ 50 → ∀ game, Fresh game →
      (LookSame platform handTracker game (asleep cooldown game) rest ↔
        ∀ entering, Enters platform handTracker (asleep cooldown game) rest entering →
          Undisturbed platform entering))
    (cooldown : Int) (hcooldown : cooldown ≤ 50) (entering : Collisions α) (hfresh : Fresh entering) :
    LookSame platform handTracker (checkCollisions platform entering)
        (checkCollisions platform (asleep cooldown entering)) rest ↔
      Undisturbed platform (asleep cooldown entering) ∧
      ∀ other, Enters platform handTracker (checkCollisions platform (asleep cooldown entering)) rest
        other → Undisturbed platform other := by
  obtain ⟨hvulnerable, hlives⟩ := hfresh
  by_cases hk : Kills platform entering
  · have hquiet : Undisturbed platform (asleep cooldown entering) := fun hn => absurd hk hn
    have hnext : Fresh (checkCollisions platform entering) := by
      obtain ⟨_, _, _, _, _, _, _, _, _, _, _, heq⟩ := checkCollisions_of_kill platform entering hk
      rw [heq]
      exact ⟨hvulnerable, hlives⟩
    rw [checkCollisions_asleep_of_kill platform cooldown entering hk]
    simp only [hquiet, true_and]
    exact ih cooldown hcooldown _ hnext
  · by_cases hnone : ∀ bullet ∈ entering.monsterCluster.bulletVec, ¬Strikes platform entering bullet
    · have hquiet : Undisturbed platform (asleep cooldown entering) := fun _ _ _ => hnone
      rw [checkCollisions_of_no_strike platform entering hk hvulnerable hnone,
        checkCollisions_asleep_of_no_kill platform cooldown entering hk hvulnerable]
      simp only [hquiet, true_and]
      by_cases hwait : cooldown < 50
      · rw [if_pos hwait]
        exact ih (cooldown + 1) (by omega) entering ⟨hvulnerable, hlives⟩
      · -- The cooldown is over and the two games are one and the same from here on.
        rw [if_neg hwait]
        have hbefore : HitBefore entering := by
          refine ⟨by omega, fun hstate => ?_⟩
          rw [hvulnerable.1] at hstate
          cases hstate
        refine iff_of_true (fun _ => rfl) fun other henters => ?_
        exact undisturbed_of_hitBefore platform handTracker rest entering other hbefore henters
    · refine iff_of_false (fun hsame => ?_) fun hquiet => hnone (hquiet.1 hk rfl hlives)
      have hview := congrArg (Option.map Prod.fst) (hsame 0)
      have hlost := checkCollisions_lives_of_strike platform entering hk hvulnerable (by omega) hnone
      rw [checkCollisions_asleep_of_no_kill platform cooldown entering hk hvulnerable] at hview
      split_ifs at hview <;>
        simp only [List.take_zero, run_nil, Option.map_some, view, asleep, Option.some.injEq] at hview <;>
        omega

-- By induction on the inputs: a ship that starts destroyed shows the same as one
-- that starts alive exactly as long as nothing could have hit the latter.
theorem lookSame_asleep_iff (platform : Platform α) (handTracker : HandTracker α)
    (inputs : List (FrameInput α)) (cooldown : Int) (hcooldown : cooldown ≤ 50) (game : Collisions α)
    (hfresh : Fresh game) :
    LookSame platform handTracker game (asleep cooldown game) inputs ↔
      ∀ entering, Enters platform handTracker (asleep cooldown game) inputs entering →
        Undisturbed platform entering := by
  induction inputs generalizing cooldown game with
  | nil =>
      constructor
      · rintro _ entering ⟨_, _, _, hvisit, _⟩
        exact absurd hvisit.mem List.not_mem_nil
      · intro _ frames
        simp [view_asleep]
  | cons input rest ih =>
      cases ha : advance platform handTracker input game with
      | none =>
          have hframe : frame platform handTracker input game = none := by simp [frame, ha]
          have hframe' : frame platform handTracker input (asleep cooldown game) = none := by
            simp [frame, advance_asleep, ha]
          constructor
          · intro _ entering henters
            exact absurd henters (not_enters_of_fault platform handTracker _ entering input rest hframe')
          · intro _ frames
            cases frames with
            | zero => simp [view_asleep]
            | succ frames => simp [hframe, hframe']
      | some entering =>
          have hentering := advance_fresh platform handTracker input game entering hfresh ha
          have hasleep : advance platform handTracker input (asleep cooldown game) =
              some (asleep cooldown entering) := by
            rw [advance_asleep, ha, Option.map_some]
          have hframe : frame platform handTracker input game =
              some (checkCollisions platform entering) := by simp [frame, ha]
          have hframe' : frame platform handTracker input (asleep cooldown game) =
              some (checkCollisions platform (asleep cooldown entering)) := by simp [frame, hasleep]
          rw [lookSame_cons platform handTracker _ _ _ _ input rest
            (view_asleep cooldown game).symm hframe hframe']
          simp only [enters_cons platform handTracker _ _ _ input rest hasleep hframe',
            forall_eq_or_imp]
          exact lookSame_check platform handTracker rest ih cooldown hcooldown entering hentering

-- Two games that differ in the member state of a fresh ship look the same at the
-- end of every frame if and only if no bullet is on the ship in the checks in which
-- the destroyed one waits for its first cooldown.
theorem start_lookSame_iff (platform : Platform α) (handTracker : HandTracker α)
    (windowPosition : Vector2 Int) (windowSize : Vector2 Nat) (inputs : List (FrameInput α)) :
    LookSame platform handTracker (start platform windowPosition windowSize .alive)
        (start platform windowPosition windowSize .destroyed) inputs ↔
      ∀ entering, Enters platform handTracker (start platform windowPosition windowSize .destroyed)
        inputs entering → Undisturbed platform entering := by
  have hasleep : start platform windowPosition windowSize .destroyed =
    asleep 0 (start platform windowPosition windowSize .alive) := rfl
  rw [hasleep]
  exact lookSame_asleep_iff platform handTracker inputs 0 (by omega) _ ⟨⟨rfl, rfl⟩, rfl⟩

-- An open hand that takes the ship up to the lowest row, below the monster that
-- fires in frame 51.
def climb : FrameInput ℚ :=
  { waiting 7 with hand := fun _ => (List.replicate 21 ⟨307, 120⟩).set 8 ⟨307, 121⟩ }

-- The ship that is alive from the start is hit in frame 51, the other one is not.
theorem start_state_shows :
    ¬LookSame arcade arcadeTracker (start arcade ⟨0, 0⟩ ⟨1920, 1080⟩ .alive)
      (start arcade ⟨0, 0⟩ ⟨1920, 1080⟩ .destroyed) (List.replicate 51 climb) := by
  have halive : ((run (frame arcade arcadeTracker) (start arcade ⟨0, 0⟩ ⟨1920, 1080⟩ .alive)
      (List.replicate 51 climb)).map fun game => game.player.lives) = some 2 := by
    decide +kernel
  have hdestroyed : ((run (frame arcade arcadeTracker) (start arcade ⟨0, 0⟩ ⟨1920, 1080⟩ .destroyed)
      (List.replicate 51 climb)).map fun game => game.player.lives) = some 3 := by
    decide +kernel
  intro h
  have hframe := congrArg (Option.map Prod.fst) (h 51)
  rw [Option.map_map, Option.map_map, List.take_of_length_le (by simp)] at hframe
  have hlives := (halive.symm.trans hframe).trans hdestroyed
  cases hlives

end SpaceInvaders

import Mathlib.Algebra.Order.Field.Basic
import Mathlib.Logic.Function.Iterate
import Mathlib.Tactic.Linarith

namespace DeadBand

variable {β : Type*} [Field β] [LinearOrder β]

-- A drive that rests near its goal and otherwise takes strides of one length
-- toward it, on a track that ends at `low` and `high`.
structure Drive (β : Type*) [Field β] [LinearOrder β] where
  margin : β
  stride : β
  low : β
  high : β
  stride_pos : 0 < stride
  stride_le : stride ≤ margin
  track : low ≤ high

-- A path that comes to rest within the margin of `target` after `steps` steps,
-- never goes away from it and never crosses `goal`.
structure Settles (margin goal target : β) (steps : ℕ) (path : ℕ → β) : Prop where
  rests : ∀ n, steps ≤ n → path (n + 1) = path n
  near : ∀ n, steps ≤ n → |path n - target| < margin
  closer : ∀ n, |path (n + 1) - target| ≤ |path n - target|
  stays_below : ∀ n, path n ≤ goal → path (n + 1) ≤ goal
  stays_above : ∀ n, goal ≤ path n → goal ≤ path (n + 1)

namespace Drive

def push (drive : Drive β) (offset : β) : β :=
  if |offset| < drive.margin then 0 else if 0 < offset then drive.stride else -drive.stride

def clamp (drive : Drive β) (x : β) : β := min (max drive.low x) drive.high

def step (drive : Drive β) (goal x : β) : β := drive.clamp (x + drive.push (goal - x))

def OnTrack (drive : Drive β) (x : β) : Prop := drive.low ≤ x ∧ x ≤ drive.high

variable (drive : Drive β)

theorem push_of_near {offset : β} (h : |offset| < drive.margin) : drive.push offset = 0 :=
  if_pos h

theorem push_of_far {offset : β} (h : ¬|offset| < drive.margin) :
    drive.push offset = if 0 < offset then drive.stride else -drive.stride :=
  if_neg h

theorem abs_push_le [IsStrictOrderedRing β] (offset : β) : |drive.push offset| ≤ drive.stride := by
  have hstride := le_of_lt drive.stride_pos
  unfold push
  split_ifs
  · rwa [abs_zero]
  · rw [abs_of_nonneg hstride]
  · rw [abs_neg, abs_of_nonneg hstride]

theorem clamp_onTrack (x : β) : drive.OnTrack (drive.clamp x) :=
  ⟨le_min (le_max_left ..) drive.track, min_le_right ..⟩

theorem clamp_of_onTrack {x : β} (h : drive.OnTrack x) : drive.clamp x = x := by
  rw [clamp, max_eq_right h.1, min_eq_left h.2]

theorem clamp_of_high_le {x : β} (h : drive.high ≤ x) : drive.clamp x = drive.high :=
  min_eq_right (h.trans (le_max_right ..))

theorem clamp_of_le_low {x : β} (h : x ≤ drive.low) : drive.clamp x = drive.low := by
  rw [clamp, max_eq_left h, min_eq_left drive.track]

theorem clamp_mono {x y : β} (h : x ≤ y) : drive.clamp x ≤ drive.clamp y :=
  min_le_min_right _ (max_le_max_left _ h)

theorem step_onTrack (goal x : β) : drive.OnTrack (drive.step goal x) := drive.clamp_onTrack _

theorem iterate_onTrack (goal : β) {x : β} (h : drive.OnTrack x) (n : ℕ) :
    drive.OnTrack ((drive.step goal)^[n] x) := by
  induction n with
  | zero => exact h
  | succ n ih =>
      rw [Function.iterate_succ_apply']
      exact drive.step_onTrack goal _

variable [IsStrictOrderedRing β]

-- What one step does: rest in the dead band, or a stride that the end of the track may cut.
theorem step_cases (goal : β) {x : β} (h : drive.OnTrack x) :
    (|goal - x| < drive.margin ∧ drive.step goal x = x) ∨
    (x + drive.margin ≤ goal ∧ drive.step goal x = min (x + drive.stride) drive.high) ∨
    (goal ≤ x - drive.margin ∧ drive.step goal x = max drive.low (x - drive.stride)) := by
  have hstride := drive.stride_pos
  have hmargin := drive.stride_le
  unfold step
  by_cases hnear : |goal - x| < drive.margin
  · refine .inl ⟨hnear, ?_⟩
    rw [drive.push_of_near hnear, add_zero, drive.clamp_of_onTrack h]
  · rw [drive.push_of_far hnear]
    rcases le_abs.mp (le_of_not_gt hnear) with hfar | hfar
    · refine .inr (.inl ⟨by linarith, ?_⟩)
      rw [if_pos (by linarith), clamp, max_eq_right (by linarith [h.1])]
    · refine .inr (.inr ⟨by linarith, ?_⟩)
      rw [if_neg (by linarith), clamp, ← sub_eq_add_neg, min_eq_left]
      exact max_le drive.track (by linarith [h.2])

-- The step goes toward the goal and not past it.
theorem step_of_le {goal x : β} (h : drive.OnTrack x) (hle : x ≤ goal) :
    x ≤ drive.step goal x ∧ drive.step goal x ≤ goal := by
  have hstride := drive.stride_pos
  have hmargin := drive.stride_le
  rcases drive.step_cases goal h with ⟨_, hs⟩ | ⟨hfar, hs⟩ | ⟨hfar, hs⟩
  · rw [hs]
    exact ⟨le_refl x, hle⟩
  · rw [hs]
    exact ⟨le_min (by linarith) h.2, (min_le_left ..).trans (by linarith)⟩
  · linarith

theorem step_of_ge {goal x : β} (h : drive.OnTrack x) (hge : goal ≤ x) :
    goal ≤ drive.step goal x ∧ drive.step goal x ≤ x := by
  have hstride := drive.stride_pos
  have hmargin := drive.stride_le
  rcases drive.step_cases goal h with ⟨_, hs⟩ | ⟨hfar, hs⟩ | ⟨hfar, hs⟩
  · rw [hs]
    exact ⟨hge, le_refl x⟩
  · linarith
  · rw [hs]
    exact ⟨le_trans (by linarith) (le_max_right ..), max_le h.1 (by linarith)⟩

-- The distance to the part of the goal that the track reaches never grows.
theorem abs_step_sub_le {goal x : β} (h : drive.OnTrack x) :
    |drive.step goal x - drive.clamp goal| ≤ |x - drive.clamp goal| := by
  have hx := drive.clamp_of_onTrack h
  have hstep := drive.clamp_of_onTrack (drive.step_onTrack goal x)
  rcases le_total x goal with hle | hge
  · obtain ⟨hup, hgoal⟩ := drive.step_of_le h hle
    have htarget := drive.clamp_mono hgoal
    have hbefore := drive.clamp_mono hle
    rw [hstep] at htarget
    rw [hx] at hbefore
    rw [abs_of_nonpos (by linarith), abs_of_nonpos (by linarith)]
    linarith
  · obtain ⟨hgoal, hdown⟩ := drive.step_of_ge h hge
    have htarget := drive.clamp_mono hgoal
    have hbefore := drive.clamp_mono hge
    rw [hstep] at htarget
    rw [hx] at hbefore
    rw [abs_of_nonneg (by linarith), abs_of_nonneg (by linarith)]
    linarith

-- A drive that rests is in the dead band of what it can reach.
theorem near_of_step_eq {goal x : β} (h : drive.OnTrack x) (hrest : drive.step goal x = x) :
    |x - drive.clamp goal| < drive.margin := by
  have hstride := drive.stride_pos
  have hmargin := drive.stride_le
  have hx := drive.clamp_of_onTrack h
  rcases drive.step_cases goal h with ⟨hnear, _⟩ | ⟨hfar, hs⟩ | ⟨hfar, hs⟩
  · rcases le_total x goal with hle | hge
    · have hlow : drive.clamp goal ≤ goal := by
        rw [clamp, max_eq_right (h.1.trans hle)]
        exact min_le_left ..
      have hbefore := drive.clamp_mono hle
      rw [hx] at hbefore
      rw [abs_of_nonneg (by linarith)] at hnear
      rw [abs_of_nonpos (by linarith)]
      linarith
    · have hhigh : goal ≤ drive.clamp goal := le_min (le_max_right ..) (hge.trans h.2)
      have hbefore := drive.clamp_mono hge
      rw [hx] at hbefore
      rw [abs_of_nonpos (by linarith)] at hnear
      rw [abs_of_nonneg (by linarith)]
      linarith
  · have hend : x = drive.high := by
      rw [hrest] at hs
      rcases min_choice (x + drive.stride) drive.high with hm | hm <;> linarith
    rw [hend, drive.clamp_of_high_le (by linarith), sub_self, abs_zero]
    linarith
  · have hend : x = drive.low := by
      rw [hrest] at hs
      rcases max_choice drive.low (x - drive.stride) with hm | hm <;> linarith
    rw [hend, drive.clamp_of_le_low (by linarith), sub_self, abs_zero]
    linarith

-- At an end of the track that lies between the drive and its goal, it rests.
theorem step_high {goal : β} (hgoal : drive.high ≤ goal) :
    drive.step goal drive.high = drive.high := by
  have h : drive.OnTrack drive.high := ⟨drive.track, le_refl _⟩
  exact le_antisymm (drive.step_onTrack goal _).2 (drive.step_of_le h hgoal).1

theorem step_low {goal : β} (hgoal : goal ≤ drive.low) : drive.step goal drive.low = drive.low := by
  have h : drive.OnTrack drive.low := ⟨le_refl _, drive.track⟩
  exact le_antisymm (drive.step_of_ge h hgoal).2 (drive.step_onTrack goal _).1

-- A step brings the drive to rest or a whole stride closer.
theorem step_progress (goal : β) {x : β} (h : drive.OnTrack x) :
    drive.step goal (drive.step goal x) = drive.step goal x ∨
      |goal - drive.step goal x| + drive.stride ≤ |goal - x| := by
  have hstride := drive.stride_pos
  have hmargin := drive.stride_le
  rcases drive.step_cases goal h with ⟨_, hs⟩ | ⟨hfar, hs⟩ | ⟨hfar, hs⟩
  · left
    rw [hs, hs]
  · rcases min_choice (x + drive.stride) drive.high with hm | hm
    · right
      rw [hs, hm, abs_of_nonneg (by linarith), abs_of_nonneg (by linarith)]
      linarith
    · left
      rw [hs, hm]
      refine drive.step_high ?_
      have hle := min_le_left (x + drive.stride) drive.high
      rw [hm] at hle
      linarith
  · rcases max_choice drive.low (x - drive.stride) with hm | hm
    · left
      rw [hs, hm]
      refine drive.step_low ?_
      have hle := le_max_right drive.low (x - drive.stride)
      rw [hm] at hle
      linarith
    · right
      rw [hs, hm, abs_of_nonpos (by linarith), abs_of_nonpos (by linarith)]
      linarith

theorem iterate_progress (goal : β) {x : β} (h : drive.OnTrack x) (n : ℕ) :
    drive.step goal ((drive.step goal)^[n] x) = (drive.step goal)^[n] x ∨
      |goal - (drive.step goal)^[n] x| + n * drive.stride ≤ |goal - x| := by
  induction n with
  | zero =>
      right
      simp
  | succ n ih =>
      rw [Function.iterate_succ_apply']
      rcases ih with hrest | hcloser
      · left
        rw [hrest, hrest]
      · rcases drive.step_progress goal (drive.iterate_onTrack goal h n) with hrest | hstep
        · exact .inl hrest
        · right
          push_cast
          linarith

-- Once the strides taken add up to the first distance, the drive rests.
theorem iterate_rests {goal x : β} (h : drive.OnTrack x) (n : ℕ)
    (hn : |goal - x| ≤ n * drive.stride) :
    drive.step goal ((drive.step goal)^[n] x) = (drive.step goal)^[n] x := by
  rcases drive.iterate_progress goal h n with hrest | hcloser
  · exact hrest
  · have hzero : |goal - (drive.step goal)^[n] x| ≤ 0 := by linarith
    have hmargin : (0 : β) < drive.margin := drive.stride_pos.trans_le drive.stride_le
    rw [step, drive.push_of_near (by linarith), add_zero,
      drive.clamp_of_onTrack (drive.iterate_onTrack goal h n)]

theorem settles {goal x : β} (h : drive.OnTrack x) (steps : ℕ)
    (hsteps : |goal - x| ≤ steps * drive.stride) :
    Settles drive.margin goal (drive.clamp goal) steps fun n => (drive.step goal)^[n] x := by
  have hrests (n : ℕ) (hn : steps ≤ n) :
      drive.step goal ((drive.step goal)^[n] x) = (drive.step goal)^[n] x := by
    refine drive.iterate_rests h n (hsteps.trans ?_)
    exact mul_le_mul_of_nonneg_right (by exact_mod_cast hn) (le_of_lt drive.stride_pos)
  have hon (n : ℕ) := drive.iterate_onTrack goal h n
  have hnext (n : ℕ) := Function.iterate_succ_apply' (drive.step goal) n x
  constructor
  · exact fun n hn => (hnext n).trans (hrests n hn)
  · exact fun n hn => drive.near_of_step_eq (hon n) (hrests n hn)
  · intro n
    rw [hnext]
    exact drive.abs_step_sub_le (hon n)
  · intro n hle
    rw [hnext]
    exact (drive.step_of_le (hon n) hle).2
  · intro n hge
    rw [hnext]
    exact (drive.step_of_ge (hon n) hge).1

end Drive

end DeadBand

import SpaceInvaders.Library.Run
import Mathlib.Data.List.Count

-- Beats are marks, which are true, and ticks. Between two marks there are to be
-- enough ticks.
namespace Spacing

def Spaced (gap : Nat) (beats : List Bool) : Prop :=
  ∀ before between after, beats = before ++ true :: (between ++ true :: after) →
    gap ≤ between.count false

-- The ticks since the last mark. The newest beat is the first of the list.
def quiet : List Bool → Option Nat
  | [] => none
  | true :: _ => some 0
  | false :: past => (quiet past).map (· + 1)

@[simp] theorem quiet_nil : quiet [] = none := rfl

@[simp] theorem quiet_mark (past : List Bool) : quiet (true :: past) = some 0 := rfl

@[simp] theorem quiet_tick (past : List Bool) : quiet (false :: past) = (quiet past).map (· + 1) := rfl

theorem mem_quiet_tick {past : List Bool} {ticks : Nat} (h : ticks ∈ quiet (false :: past)) :
    ∃ earlier ∈ quiet past, ticks = earlier + 1 := by
  obtain ⟨earlier, he, rfl⟩ := Option.map_eq_some_iff.mp h
  exact ⟨earlier, he, rfl⟩

theorem quiet_eq_some_iff (past : List Bool) (ticks : Nat) :
    quiet past = some ticks ↔ ∃ older, past = List.replicate ticks false ++ true :: older := by
  induction past generalizing ticks with
  | nil => simp
  | cons beat past ih =>
      cases beat with
      | true => cases ticks <;> simp [List.replicate_succ]
      | false =>
          cases ticks with
          | zero => simp
          | succ ticks => simp [List.replicate_succ, ih]

theorem quiet_le (between older : List Bool) (ticks : Nat)
    (h : quiet (between ++ true :: older) = some ticks) : ticks ≤ between.count false := by
  induction between generalizing ticks with
  | nil =>
      cases h
      exact Nat.zero_le _
  | cons beat between ih =>
      cases beat with
      | true =>
          cases h
          exact Nat.zero_le _
      | false =>
          obtain ⟨ticks, ht, rfl⟩ := Option.map_eq_some_iff.mp h
          have := ih ticks ht
          simp only [List.count_cons_self]
          omega

theorem quiet_isSome (between older : List Bool) : (quiet (between ++ true :: older)).isSome = true := by
  induction between with
  | nil => rfl
  | cons beat between ih => cases beat <;> simp [ih]

theorem spaced_nil (gap : Nat) : Spaced gap [] := by
  rintro before between after h
  simp at h

theorem spaced_tick {gap : Nat} {past : List Bool} (h : Spaced gap past) :
    Spaced gap (false :: past) := by
  rintro before between after hbeats
  cases before with
  | nil => simp at hbeats
  | cons beat before =>
      obtain ⟨_, rfl⟩ := List.cons.inj hbeats
      exact h before between after rfl

-- A new mark needs enough ticks since the last one.
theorem spaced_mark {gap : Nat} {past : List Bool} (hquiet : ∀ ticks ∈ quiet past, gap ≤ ticks)
    (h : Spaced gap past) : Spaced gap (true :: past) := by
  rintro before between after hbeats
  cases before with
  | nil =>
      obtain ⟨_, rfl⟩ := List.cons.inj hbeats
      obtain ⟨ticks, ht⟩ := Option.isSome_iff_exists.mp (quiet_isSome between after)
      exact Nat.le_trans (hquiet ticks ht) (quiet_le between after ticks ht)
  | cons beat before =>
      obtain ⟨_, rfl⟩ := List.cons.inj hbeats
      exact h before between after rfl

theorem Spaced.tail {gap : Nat} {beat : Bool} {past : List Bool} (h : Spaced gap (beat :: past)) :
    Spaced gap past := by
  rintro before between after rfl
  exact h (beat :: before) between after rfl

theorem Spaced.reverse {gap : Nat} {beats : List Bool} (h : Spaced gap beats) :
    Spaced gap beats.reverse := by
  rintro before between after hbeats
  have hforward : beats = after.reverse ++ true :: (between.reverse ++ true :: before.reverse) := by
    rw [← List.reverse_reverse beats, hbeats]
    simp
  simpa using h _ _ _ hforward

theorem count_of_quiet_none (past : List Bool) (h : quiet past = none) : past.count true = 0 := by
  induction past with
  | nil => rfl
  | cons beat past ih =>
      cases beat with
      | true => cases h
      | false => simpa using ih (by simpa using h)

-- Each mark but the first has its ticks.
theorem marks_le {gap : Nat} {past : List Bool} (h : Spaced gap past) :
    gap * (past.count true - 1) + (quiet past).getD 0 ≤ past.count false := by
  induction past with
  | nil => simp
  | cons beat past ih =>
      have hle := ih h.tail
      cases beat with
      | false =>
          cases hq : quiet past <;> simp [hq] at hle ⊢ <;> omega
      | true =>
          cases hq : quiet past with
          | none => simp [count_of_quiet_none past hq]
          | some ticks =>
              obtain ⟨older, hpast⟩ := (quiet_eq_some_iff past ticks).mp hq
              have hgap : gap ≤ ticks := by
                simpa using h [] (List.replicate ticks false) older (by rw [hpast]; rfl)
              obtain ⟨marks, hmarks⟩ : ∃ marks, past.count true = marks + 1 :=
                ⟨past.count true - 1, by simp [hpast]; omega⟩
              have hsplit := Nat.mul_succ gap marks
              simp only [hq, hmarks, Option.getD_some] at hle
              simp only [quiet_mark, Option.getD_some, List.count_cons_self, hmarks, Nat.succ_eq_add_one,
                Nat.add_sub_cancel, List.count_cons_of_ne (by decide : true ≠ false)] at hle ⊢ hsplit
              omega

theorem marks_le_div {gap : Nat} (hgap : 0 < gap) {past : List Bool} (h : Spaced gap past) :
    past.count true ≤ 1 + past.count false / gap := by
  have hle := marks_le h
  have hdiv : past.count true - 1 ≤ past.count false / gap := by
    rw [Nat.le_div_iff_mul_le hgap, Nat.mul_comm]
    omega
  omega

end Spacing

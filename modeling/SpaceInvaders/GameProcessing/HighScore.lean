import SpaceInvaders.Library.Top
import SpaceInvaders.GameProcessing.Score

namespace SpaceInvaders.Score

open Top (IsTop)

-- One game after the other saves its score.
def saveAll (file : ScoreFile) (games : List Score) : ScoreFile :=
  games.foldl (fun file score => saveTop10 score file) file

def numbered (kept : List Int) : List (Nat × Int) := (List.range' 1 kept.length).zip kept

-- The file and the printed list are the ten largest of all scores so far.
def KeepsHistory (initial : ScoreFile) (games : List Score) : Prop :=
  ∃ kept, IsTop 10 (initial.getD [] ++ games.map Score.score) kept ∧
    saveAll initial games = some kept ∧ loadTop10 (saveAll initial games) = some (numbered kept)

theorem numbered_eq (kept : List Int) :
    kept.zipIdx.map (fun (value, index) => (index + 1, value)) = numbered kept := by
  refine List.ext_getElem (by simp [numbered]) fun index _ _ => ?_
  simp [numbered, Nat.add_comm]

-- loadTop10 prints the top ten of what the file holds, in whatever order it is.
theorem loadTop10_isTop (entries : List Int) :
    ∃ kept, IsTop 10 entries kept ∧ loadTop10 (some entries) = some (numbered kept) := by
  refine ⟨firstTen (sortDescending entries), Top.isTop_take 10 entries, ?_⟩
  simp only [loadTop10, Option.map_some, numbered_eq]

theorem loadTop10_eq (entries kept : List Int) (h : IsTop 10 entries kept) :
    loadTop10 (some entries) = some (numbered kept) := by
  obtain ⟨printed, hprinted, hload⟩ := loadTop10_isTop entries
  rw [hload, hprinted.eq_take, h.eq_take]

-- The file is empty by the time it is read, so a save keeps nothing of it.
theorem saveTop10_eq (score : Score) (file : ScoreFile) :
    saveTop10 score file = some [score.score] := by
  simp [saveTop10, openForWriting, readScores, sortDescending, firstTen]

theorem saveAll_concat (file : ScoreFile) (games : List Score) (last : Score) :
    saveAll file (games ++ [last]) = some [last.score] := by
  rw [saveAll, List.foldl_append]
  exact saveTop10_eq last _

theorem keepsHistory_of_isTop (initial : ScoreFile) (games : List Score) (kept : List Int)
    (htop : IsTop 10 (initial.getD [] ++ games.map Score.score) kept)
    (hfile : saveAll initial games = some kept) : KeepsHistory initial games := by
  refine ⟨kept, htop, hfile, ?_⟩
  rw [hfile, loadTop10_eq kept kept htop.self]

-- The file keeps history exactly when there is none to keep: nothing is saved
-- over a file that is a top ten already, or one score over no scores.
theorem keepsHistory_iff (initial : ScoreFile) (games : List Score) :
    KeepsHistory initial games ↔
      (games = [] ∧ ∃ entries, initial = some entries ∧ entries.length ≤ 10 ∧
        entries.Pairwise (· ≥ ·)) ∨
      (games.length = 1 ∧ initial.getD [] = []) := by
  rcases List.eq_nil_or_concat' games with rfl | ⟨earlier, last, rfl⟩
  · constructor
    · rintro ⟨kept, htop, hfile, _⟩
      obtain rfl : initial = some kept := hfile
      have hlength := htop.length_eq
      simp only [Option.getD_some, List.map_nil, List.append_nil] at hlength
      exact .inl ⟨rfl, kept, rfl, by omega, htop.sorted⟩
    · rintro (⟨_, entries, rfl, hlength, hsorted⟩ | ⟨hone, _⟩)
      · refine keepsHistory_of_isTop _ [] entries ?_ rfl
        simpa using Top.isTop_self hlength hsorted
      · cases hone
  · constructor
    · rintro ⟨kept, htop, hfile, _⟩
      rw [saveAll_concat, Option.some.injEq] at hfile
      have hlength := htop.length_eq
      simp only [← hfile, List.length_append, List.length_map, List.length_singleton] at hlength
      have hearlier : earlier.length = 0 := by omega
      have hinitial : (initial.getD []).length = 0 := by omega
      exact .inr ⟨by simp [hearlier], List.eq_nil_of_length_eq_zero hinitial⟩
    · rintro (⟨hnil, _⟩ | ⟨hone, hinitial⟩)
      · simp at hnil
      · have hearlier : earlier = [] := by simpa using hone
        refine keepsHistory_of_isTop _ _ [last.score] ?_ (saveAll_concat initial earlier last)
        rw [hinitial, hearlier]
        exact Top.isTop_self (by simp) (List.pairwise_singleton ..)

-- A game of 300 points drops the 500 points from the file.
theorem save_loses_history : ¬ KeepsHistory (some [500]) [⟨300, 3⟩] := by
  rintro ⟨kept, htop, hfile, _⟩
  rw [saveAll, List.foldl_cons, saveTop10_eq] at hfile
  obtain rfl : [300] = kept := Option.some.inj hfile
  have hlength := htop.length_eq
  revert hlength
  decide

end SpaceInvaders.Score

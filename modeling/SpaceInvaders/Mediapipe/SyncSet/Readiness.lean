import SpaceInvaders.Mediapipe.SyncSet

namespace SpaceInvaders.Mediapipe

namespace SyncSet

open InputStreamManager

variable {κ π : Type} [DecidableEq κ]

theorem previous_le_max (timestamp : Timestamp) : timestamp.previousAllowedInStream ≤ .max := by
  rw [Timestamp.le_iff, Timestamp.previous_value, Timestamp.value_max]
  split_ifs <;> omega

-- A timestamp that is settled by a bound lies below it.
theorem previous_lt (timestamp : Timestamp)
    (h : Timestamp.unstarted < timestamp.previousAllowedInStream) :
    timestamp.previousAllowedInStream < timestamp := by
  rw [Timestamp.lt_iff, Timestamp.previous_value] at *
  rw [Timestamp.value_unstarted] at h
  split_ifs at * <;> omega

-- A timestamp behind the start that the streams have settled has no packet before it and
-- lies below every bound.
theorem inputTimestamp_spec {minBound minPacket : Timestamp}
    (hstarted : Timestamp.unstarted < inputTimestamp minBound minPacket) :
    inputTimestamp minBound minPacket ≤ minPacket ∧ inputTimestamp minBound minPacket < minBound ∧
      inputTimestamp minBound minPacket < .oneOverPostStream := by
  refine ⟨min_le_left _ _, ?_⟩
  unfold inputTimestamp settled at *
  by_cases hpost : minPacket = .postStream ∧ minPacket < minBound
  · rw [if_pos hpost, min_self]
    exact ⟨hpost.2, hpost.1 ▸ show Timestamp.postStream < .oneOverPostStream by decide⟩
  · rw [if_neg hpost] at hstarted ⊢
    have hprevious := hstarted.trans_le (min_le_right _ _)
    exact ⟨(min_le_right _ _).trans_lt (previous_lt _ hprevious),
      (min_le_right _ _).trans_lt ((previous_le_max _).trans_lt
        (show Timestamp.max < .oneOverPostStream by decide))⟩

-- A node is ready to process at a timestamp that no packet precedes and that lies below
-- every bound which was read.
theorem readiness_process {processTimestamps : Bool}
    {lastProcessedTs minBound minPacket timestamp processed : Timestamp}
    (h : readiness processTimestamps lastProcessedTs minBound minPacket =
      (.readyForProcess, timestamp, processed)) :
    processed = timestamp ∧ timestamp ≤ minPacket ∧ timestamp < minBound ∧
      timestamp < .oneOverPostStream ∧ (processTimestamps = false → timestamp = minPacket) ∧
      (processTimestamps = true → max lastProcessedTs .unstarted < timestamp) ∧
      ¬.oneOverPostStream ≤ min minPacket minBound := by
  unfold readiness at h
  split at h
  · simp at h
  · next hclose =>
    split at h
    · next hprocess =>
      split at h
      · next hlt =>
        obtain ⟨rfl, rfl⟩ := Prod.mk.inj (Prod.mk.inj h).2
        rw [min_eq_left hlt.le] at hclose ⊢
        exact ⟨rfl, le_rfl, hlt, not_le.mp hclose, fun _ => rfl,
          fun htrue => absurd htrue (by simp [hprocess]), hclose⟩
      · simp at h
    · next hprocess =>
      split at h
      · next hlt =>
        obtain ⟨rfl, rfl⟩ := Prod.mk.inj (Prod.mk.inj h).2
        obtain ⟨hpacket, hbound, hend⟩ := inputTimestamp_spec ((le_max_right _ _).trans_lt hlt)
        exact ⟨rfl, hpacket, hbound, hend, fun hfalse => absurd hfalse hprocess, fun _ => hlt, hclose⟩
      · simp at h

theorem readiness_close {processTimestamps : Bool}
    {lastProcessedTs minBound minPacket timestamp processed : Timestamp}
    (h : readiness processTimestamps lastProcessedTs minBound minPacket =
      (.readyForClose, timestamp, processed)) :
    .oneOverPostStream ≤ minPacket ∧ .oneOverPostStream ≤ minBound ∧ processed = .max := by
  unfold readiness at h
  split at h
  · next hclose =>
    have hprocessed : processed = Timestamp.done.previousAllowedInStream := by simp at h; exact h.2.symm
    exact ⟨hclose.trans (min_le_left _ _), hclose.trans (min_le_right _ _),
      hprocessed.trans (by decide)⟩
  · split at h
    · split at h <;> simp at h
    · split at h <;> simp at h

theorem readiness_notReady {processTimestamps : Bool}
    {lastProcessedTs minBound minPacket timestamp processed : Timestamp}
    (h : readiness processTimestamps lastProcessedTs minBound minPacket =
      (.notReady, timestamp, processed)) : processed = lastProcessedTs := by
  unfold readiness at h
  split at h
  · simp at h
  split at h
  · split at h
    · simp at h
    · simp at h
      exact h.2.symm
  · split at h
    · simp at h
    · simp at h
      exact h.2.symm

-- The timestamp of a node that is not ready.
theorem readiness_notReady_min {processTimestamps : Bool}
    {lastProcessedTs minBound minPacket timestamp processed : Timestamp}
    (hplain : processTimestamps = false)
    (h : readiness processTimestamps lastProcessedTs minBound minPacket =
      (.notReady, timestamp, processed)) : timestamp = min minPacket minBound := by
  unfold readiness at h
  rw [if_pos hplain] at h
  split at h
  · simp at h
  split at h
  · simp at h
  · simp at h
    exact h.1.symm

end SyncSet

end SpaceInvaders.Mediapipe

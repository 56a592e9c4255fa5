import SpaceInvaders.Library.Run
import SpaceInvaders.Mediapipe.InputStreamManager.Lemmas

namespace SpaceInvaders.Mediapipe

namespace InputStreamManager

variable {π : Type}

-- The timestamps that one whole stream may have: a summary alone, or range values that increase.
def IsStream (timestamps : List Timestamp) : Prop :=
  timestamps = [.preStream] ∨ timestamps = [.postStream] ∨
    (∀ timestamp ∈ timestamps, timestamp.IsRangeValue) ∧ timestamps.Pairwise (· < ·)

-- One packet after another, by the bound that the packets before have left.
def Follows (numPacketsAdded : Nat) (bound : Timestamp) : List Timestamp → Prop
  | [] => True
  | timestamp :: rest =>
      timestamp.IsAllowedInStream ∧ ¬(timestamp = .postStream ∧ 0 < numPacketsAdded) ∧
        bound ≤ timestamp ∧ Follows (numPacketsAdded + 1) timestamp.nextAllowedInStream rest

-- A producer that stops at the first batch which the stream does not take.
def addBatch (batch : List (Packet π)) (stream : InputStreamManager π) :
    Option (InputStreamManager π) :=
  match (addPackets batch stream).status with
  | none => some (addPackets batch stream).stream
  | some _ => none

theorem addEach_cons (stream : InputStreamManager π) (packet : Packet π) (rest : List (Packet π)) :
    stream.addEach (packet :: rest) =
      match stream.refuse packet with
      | some status => (stream, some status)
      | none => (stream.addPacket packet).addEach rest := rfl

theorem addEach_append (stream : InputStreamManager π) (first second : List (Packet π)) :
    (stream.addEach (first ++ second)).2 = none ↔
      (stream.addEach first).2 = none ∧ ((stream.addEach first).1.addEach second).2 = none := by
  induction first generalizing stream with
  | nil => simp [addEach]
  | cons packet rest ih =>
      rw [List.cons_append, addEach_cons, addEach_cons]
      cases stream.refuse packet with
      | some status => simp
      | none => exact ih (stream.addPacket packet)

theorem addBatch_eq (batch : List (Packet π)) (stream : InputStreamManager π)
    (hopen : stream.closed = false) :
    addBatch batch stream =
      if (stream.addEach batch).2 = none then some (stream.addEach batch).1 else none := by
  unfold addBatch addPackets
  rw [if_neg (by simp [hopen])]
  cases h : stream.addEach batch with
  | mk after status => cases status <;> simp

-- How the packets are cut into batches does not matter.
theorem run_addBatch_isSome_iff (batches : List (List (Packet π))) (stream : InputStreamManager π)
    (hopen : stream.closed = false) :
    (Transition.run addBatch stream batches).isSome ↔ (stream.addEach batches.flatten).2 = none := by
  induction batches generalizing stream with
  | nil => simp [addEach]
  | cons batch rest ih =>
      rw [Transition.run_cons, addBatch_eq _ _ hopen, List.flatten_cons, addEach_append]
      by_cases hbatch : (stream.addEach batch).2 = none
      · rw [if_pos hbatch, Option.bind_some, ih _ (by rw [addEach_fst]; simpa using hopen)]
        simp [hbatch]
      · rw [if_neg hbatch]
        simp [hbatch]

theorem accepted_eq_iff (packets : List (Packet π)) (stream : InputStreamManager π)
    (htimed : stream.enableTimestamps) (hvalid : ∀ packet ∈ packets, stream.validate packet = none) :
    stream.accepted packets = packets ↔
      Follows stream.numPacketsAdded stream.nextTimestampBound (packets.map Packet.timestamp) := by
  induction packets generalizing stream with
  | nil => simp [accepted, Follows]
  | cons packet rest ih =>
      have hrefuse := stream.refuse_eq_none_iff packet htimed
      have hpacket := hvalid packet (List.mem_cons_self ..)
      rw [List.map_cons, accepted, Follows]
      cases h : stream.refuse packet with
      | some status =>
          rw [h] at hrefuse
          have hstop := hrefuse.not.mp (Option.some_ne_none status)
          refine iff_of_false (by simp) fun hfollows => hstop ?_
          exact ⟨hpacket, hfollows.1, hfollows.2.1, hfollows.2.2.1⟩
      | none =>
          obtain ⟨_, hallowed, hpost, hbound⟩ := hrefuse.mp h
          have hrest := ih (stream.addPacket packet) htimed
            fun other hother => hvalid other (List.mem_cons_of_mem packet hother)
          rw [List.cons.injEq, eq_self_iff_true, true_and, hrest]
          exact ⟨fun hfollows => ⟨hallowed, hpost, hbound, hfollows⟩, fun hfollows => hfollows.2.2.2⟩

-- Past the last range value there is no room.
theorem follows_end (numPacketsAdded : Nat) (bound : Timestamp) (timestamps : List Timestamp)
    (hbound : .oneOverPostStream ≤ bound) :
    Follows numPacketsAdded bound timestamps ↔ timestamps = [] := by
  cases timestamps with
  | nil => simp [Follows]
  | cons timestamp rest =>
      refine iff_of_false (fun hfollows => ?_) (List.cons_ne_nil _ _)
      have hlow : 9223372036854775806 ≤ bound.value := hbound
      have hhigh : timestamp.value ≤ 9223372036854775805 := hfollows.1.2
      have hle : bound.value ≤ timestamp.value := hfollows.2.2.1
      omega

theorem follows_next_iff (numPacketsAdded : Nat) (timestamp : Timestamp) (rest : List Timestamp)
    (hadded : 0 < numPacketsAdded) (hrange : timestamp.IsRangeValue) :
    Follows numPacketsAdded timestamp.nextAllowedInStream rest ↔
      (∀ other ∈ rest, other.IsRangeValue) ∧ (timestamp :: rest).Pairwise (· < ·) := by
  induction rest generalizing numPacketsAdded timestamp with
  | nil => simp [Follows]
  | cons head tail ih =>
      have hlow : -9223372036854775805 ≤ timestamp.value := hrange.1
      have hhigh : timestamp.value ≤ 9223372036854775804 := hrange.2
      have hhead : (head.IsAllowedInStream ∧ ¬(head = .postStream ∧ 0 < numPacketsAdded) ∧
          timestamp.nextAllowedInStream ≤ head) ↔ head.IsRangeValue ∧ timestamp < head := by
        simp only [Timestamp.ext_iff, Timestamp.le_iff, Timestamp.lt_iff, Timestamp.next_value,
          Timestamp.IsAllowedInStream, Timestamp.IsRangeValue, Timestamp.value_preStream,
          Timestamp.value_postStream, Timestamp.value_min, Timestamp.value_max]
        split_ifs <;> omega
      rw [Follows, ← and_assoc, ← and_assoc, and_assoc (a := head.IsAllowedInStream), hhead]
      constructor
      · rintro ⟨⟨hin, hlt⟩, hfollows⟩
        obtain ⟨htail, hsorted⟩ := (ih (numPacketsAdded + 1) head (Nat.succ_pos _) hin).mp hfollows
        refine ⟨List.forall_mem_cons.mpr ⟨hin, htail⟩, List.pairwise_cons.mpr ⟨?_, hsorted⟩⟩
        intro other hother
        cases List.mem_cons.mp hother with
        | inl h => exact h ▸ hlt
        | inr h => exact hlt.trans ((List.pairwise_cons.mp hsorted).1 other h)
      · rintro ⟨hin, hsorted⟩
        obtain ⟨hlt, hsorted⟩ := List.pairwise_cons.mp hsorted
        obtain ⟨hin, htail⟩ := List.forall_mem_cons.mp hin
        exact ⟨⟨hin, hlt head (List.mem_cons_self ..)⟩,
          (ih (numPacketsAdded + 1) head (Nat.succ_pos _) hin).mpr ⟨htail, hsorted⟩⟩

-- A packet at a summary timestamp is the only one.
theorem isStream_summary_iff (head : Timestamp) (tail : List Timestamp)
    (hsummary : head = .preStream ∨ head = .postStream) : IsStream (head :: tail) ↔ tail = [] := by
  have hrange : ¬head.IsRangeValue := by
    cases hsummary with
    | inl h => exact h ▸ by decide
    | inr h => exact h ▸ by decide
  constructor
  · rintro (h | h | h)
    · exact (List.cons.inj h).2
    · exact (List.cons.inj h).2
    · exact absurd (h.1 head (List.mem_cons_self ..)) hrange
  · rintro rfl
    cases hsummary with
    | inl h => exact .inl (h ▸ rfl)
    | inr h => exact .inr (.inl (h ▸ rfl))

theorem follows_preStream_iff (timestamps : List Timestamp) :
    Follows 0 .preStream timestamps ↔ IsStream timestamps := by
  cases timestamps with
  | nil => simp [Follows, IsStream]
  | cons head tail =>
      by_cases hpre : head = .preStream
      · -- The bound jumps past the end behind a packet at PreStream.
        subst hpre
        have hnext : Timestamp.preStream.nextAllowedInStream = .oneOverPostStream := by decide
        rw [isStream_summary_iff _ _ (.inl rfl), Follows, hnext, follows_end _ _ _ le_rfl]
        exact ⟨fun h => h.2.2.2, fun h => ⟨by decide, by decide, by decide, h⟩⟩
      by_cases hpost : head = .postStream
      · subst hpost
        have hnext : Timestamp.postStream.nextAllowedInStream = .oneOverPostStream := by decide
        rw [isStream_summary_iff _ _ (.inr rfl), Follows, hnext, follows_end _ _ _ le_rfl]
        exact ⟨fun h => h.2.2.2, fun h => ⟨by decide, by decide, by decide, h⟩⟩
      · have hrange : (head.IsAllowedInStream ∧ .preStream ≤ head) ↔ head.IsRangeValue := by
          simp only [Timestamp.ext_iff, Timestamp.value_preStream, Timestamp.value_postStream]
            at hpre hpost
          simp only [Timestamp.IsAllowedInStream, Timestamp.IsRangeValue, Timestamp.le_iff,
            Timestamp.value_preStream, Timestamp.value_postStream, Timestamp.value_min,
            Timestamp.value_max]
          omega
        rw [Follows]
        simp only [Nat.lt_irrefl, and_false, not_false_eq_true, true_and]
        rw [← and_assoc, hrange]
        simp only [IsStream, List.cons.injEq, hpre, hpost, false_and, false_or, List.forall_mem_cons]
        constructor
        · rintro ⟨hin, hfollows⟩
          have hrest := (follows_next_iff 1 head tail Nat.one_pos hin).mp hfollows
          exact ⟨⟨hin, hrest.1⟩, hrest.2⟩
        · rintro ⟨⟨hin, htail⟩, hsorted⟩
          exact ⟨hin, (follows_next_iff 1 head tail Nat.one_pos hin).mpr ⟨htail, hsorted⟩⟩

-- A stream that begins takes batches of packets to their end if and only if all
-- of them together are a stream.
theorem accepts_iff (stream : InputStreamManager π) (batches : List (List (Packet π)))
    (htimed : stream.enableTimestamps)
    (hvalid : ∀ packet ∈ batches.flatten, stream.validate packet = none) :
    (Transition.run addBatch stream.prepareForRun batches).isSome ↔
      IsStream (batches.flatten.map Packet.timestamp) := by
  rw [run_addBatch_isSome_iff _ _ rfl, addEach_snd_eq_none_iff,
    accepted_eq_iff batches.flatten stream.prepareForRun htimed hvalid]
  exact follows_preStream_iff _

theorem accepts_min_max :
    (Transition.run addBatch (initialized "in" fun _ => none : InputStreamManager Unit).prepareForRun
      [[⟨some (), .min⟩], [], [⟨some (), .max⟩]]).isSome :=
  (accepts_iff _ _ rfl fun _ _ => rfl).mpr (.inr (.inr ⟨by decide, by decide⟩))

end InputStreamManager

end SpaceInvaders.Mediapipe

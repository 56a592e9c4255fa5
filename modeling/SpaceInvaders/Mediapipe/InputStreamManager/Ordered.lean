import SpaceInvaders.Mediapipe.InputStreamManager.Lemmas

namespace SpaceInvaders.Mediapipe

namespace InputStreamManager

variable {π : Type}

-- A stream whose packets have their timestamps checked.
structure Ordered (stream : InputStreamManager π) : Prop where
  timed : stream.enableTimestamps
  sorted : stream.queue.Pairwise (·.timestamp < ·.timestamp)
  allowed : ∀ packet ∈ stream.queue, packet.timestamp.IsAllowedInStream
  below : ∀ packet ∈ stream.queue, packet.timestamp < stream.nextTimestampBound
  selected : stream.closed = false →
    ∀ packet ∈ stream.queue, stream.lastSelectTimestamp < packet.timestamp
  started : Timestamp.unstarted ≤ stream.lastSelectTimestamp
  settled : stream.closed = false →
    ∀ timestamp : Timestamp, timestamp.IsAllowedInStream → stream.nextTimestampBound ≤ timestamp →
      stream.lastSelectTimestamp < timestamp

theorem prepareForRun_ordered (stream : InputStreamManager π) (htimed : stream.enableTimestamps) :
    stream.prepareForRun.Ordered where
  timed := htimed
  sorted := List.Pairwise.nil
  allowed := by simp [prepareForRun]
  below := by simp [prepareForRun]
  selected := by simp [prepareForRun]
  started := le_rfl
  settled := fun _ timestamp hallowed _ =>
    (show Timestamp.unstarted < .preStream by decide).trans_le hallowed.1

-- What is accepted increases from the bound before to the bound behind.
theorem accepted_spec (container : List (Packet π)) (stream : InputStreamManager π)
    (htimed : stream.enableTimestamps) :
    (stream.accepted container).Pairwise (·.timestamp < ·.timestamp) ∧
      (∀ packet ∈ stream.accepted container, packet.timestamp.IsAllowedInStream ∧
        stream.nextTimestampBound ≤ packet.timestamp ∧
        packet.timestamp <
          ((stream.accepted container).foldl addPacket stream).nextTimestampBound) ∧
      stream.nextTimestampBound ≤
        ((stream.accepted container).foldl addPacket stream).nextTimestampBound := by
  induction container generalizing stream with
  | nil => simp [accepted]
  | cons packet rest ih =>
      unfold accepted
      cases hrefuse : stream.refuse packet with
      | some status => simp
      | none =>
          obtain ⟨_, hallowed, _, hbound⟩ := (stream.refuse_eq_none_iff packet htimed).mp hrefuse
          obtain ⟨hsorted, hrest, hmono⟩ := ih (stream.addPacket packet) htimed
          have hnext : packet.timestamp < (stream.addPacket packet).nextTimestampBound :=
            packet.timestamp.lt_next hallowed
          rw [List.foldl_cons, List.pairwise_cons]
          refine ⟨⟨fun other hother => hnext.trans_le (hrest other hother).2.1, hsorted⟩, ?_,
            hbound.trans (hnext.le.trans hmono)⟩
          intro other hother
          cases List.mem_cons.mp hother with
          | inl h =>
              subst h
              exact ⟨hallowed, hbound, hnext.trans_le hmono⟩
          | inr h =>
              obtain ⟨hallowed', hbound', hlt⟩ := hrest other h
              exact ⟨hallowed', hbound.trans (hnext.le.trans hbound'), hlt⟩

theorem foldl_addPacket_ordered (container : List (Packet π)) (stream : InputStreamManager π)
    (hordered : stream.Ordered) :
    ((stream.accepted container).foldl addPacket stream).Ordered := by
  obtain ⟨hsorted, hspec, hmono⟩ := accepted_spec container stream hordered.timed
  constructor
  · rw [foldl_addPacket_enableTimestamps]
    exact hordered.timed
  · rw [foldl_addPacket_queue, List.pairwise_append]
    exact ⟨hordered.sorted, hsorted,
      fun a ha b hb => (hordered.below a ha).trans_le (hspec b hb).2.1⟩
  · rw [foldl_addPacket_queue, List.forall_mem_append]
    exact ⟨hordered.allowed, fun packet hpacket => (hspec packet hpacket).1⟩
  · rw [foldl_addPacket_queue, List.forall_mem_append]
    exact ⟨fun packet hpacket => (hordered.below packet hpacket).trans_le hmono,
      fun packet hpacket => (hspec packet hpacket).2.2⟩
  · intro hopen
    rw [foldl_addPacket_closed] at hopen
    rw [foldl_addPacket_queue, foldl_addPacket_lastSelectTimestamp, List.forall_mem_append]
    exact ⟨hordered.selected hopen, fun packet hpacket =>
      hordered.settled hopen packet.timestamp (hspec packet hpacket).1 (hspec packet hpacket).2.1⟩
  · rw [foldl_addPacket_lastSelectTimestamp]
    exact hordered.started
  · intro hopen timestamp hallowed hbound
    rw [foldl_addPacket_closed] at hopen
    rw [foldl_addPacket_lastSelectTimestamp]
    exact hordered.settled hopen timestamp hallowed (hmono.trans hbound)

theorem addPackets_ordered (container : List (Packet π)) (stream : InputStreamManager π)
    (hordered : stream.Ordered) : (addPackets container stream).stream.Ordered := by
  rw [addPackets_stream, gained]
  split
  · exact hordered
  · exact foldl_addPacket_ordered container stream hordered

-- A call moves the bound up or leaves the stream alone.
theorem setNextTimestampBound_cases (bound : Timestamp) (stream : InputStreamManager π) :
    (setNextTimestampBound bound stream).stream = stream ∨
      stream.closed = false ∧ stream.nextTimestampBound < bound ∧
        (setNextTimestampBound bound stream).stream = { stream with nextTimestampBound := bound } := by
  unfold setNextTimestampBound
  split
  · exact .inl rfl
  split
  · exact .inl rfl
  split
  · next hclosed _ hbound => exact .inr ⟨by simpa using hclosed, hbound, rfl⟩
  · exact .inl rfl

theorem setNextTimestampBound_ordered (bound : Timestamp) (stream : InputStreamManager π)
    (hordered : stream.Ordered) : (setNextTimestampBound bound stream).stream.Ordered := by
  rcases setNextTimestampBound_cases bound stream with h | ⟨_, hbound, h⟩
  · rw [h]
    exact hordered
  · rw [h]
    exact
      { timed := hordered.timed
        sorted := hordered.sorted
        allowed := hordered.allowed
        below := fun packet hpacket => (hordered.below packet hpacket).trans hbound
        selected := hordered.selected
        started := hordered.started
        settled := fun hopen timestamp hallowed hle =>
          hordered.settled hopen timestamp hallowed (hbound.le.trans hle) }

theorem accepted_validate (container : List (Packet π)) (stream : InputStreamManager π)
    (htimed : stream.enableTimestamps) :
    ∀ packet ∈ stream.accepted container, stream.validate packet = none := by
  induction container generalizing stream with
  | nil => simp [accepted]
  | cons packet rest ih =>
      unfold accepted
      cases hrefuse : stream.refuse packet with
      | some status => simp
      | none =>
          rw [List.forall_mem_cons]
          exact ⟨((stream.refuse_eq_none_iff packet htimed).mp hrefuse).1,
            ih (stream.addPacket packet) htimed⟩

-- What a producer does to an open stream: packets join the queue from the bound on,
-- and the bound moves up.
structure Grows (before after : InputStreamManager π) : Prop where
  ordered : after.Ordered
  opened : after.closed = false
  selected : after.lastSelectTimestamp = before.lastSelectTimestamp
  validate : after.validate = before.validate
  queue : ∃ joined, after.queue = before.queue ++ joined ∧
    ∀ packet ∈ joined, before.nextTimestampBound ≤ packet.timestamp ∧ before.validate packet = none
  bound : before.nextTimestampBound ≤ after.nextTimestampBound

theorem Grows.refl {stream : InputStreamManager π} (hordered : stream.Ordered)
    (hopen : stream.closed = false) : Grows stream stream :=
  ⟨hordered, hopen, rfl, rfl, ⟨[], (List.append_nil _).symm, by simp⟩, le_rfl⟩

theorem addPackets_grows (container : List (Packet π)) (stream : InputStreamManager π)
    (hordered : stream.Ordered) (hopen : stream.closed = false) :
    Grows stream (addPackets container stream).stream := by
  have hordered' := addPackets_ordered container stream hordered
  obtain ⟨_, hspec, hmono⟩ := accepted_spec container stream hordered.timed
  have hvalid := accepted_validate container stream hordered.timed
  rw [addPackets_stream, gained, if_neg (by simp [hopen])] at hordered' ⊢
  refine ⟨hordered', ?_, ?_, ?_, ⟨_, foldl_addPacket_queue _ _, fun packet hpacket =>
    ⟨(hspec packet hpacket).2.1, hvalid packet hpacket⟩⟩, hmono⟩
  · rw [foldl_addPacket_closed]
    exact hopen
  · rw [foldl_addPacket_lastSelectTimestamp]
  · rw [foldl_addPacket]

theorem setNextTimestampBound_grows (bound : Timestamp) (stream : InputStreamManager π)
    (hordered : stream.Ordered) (hopen : stream.closed = false) :
    Grows stream (setNextTimestampBound bound stream).stream := by
  have hordered' := setNextTimestampBound_ordered bound stream hordered
  rcases setNextTimestampBound_cases bound stream with h | ⟨_, hbound, h⟩
  · rw [h]
    exact Grows.refl hordered hopen
  · rw [h] at hordered' ⊢
    exact ⟨hordered', hopen, rfl, rfl, ⟨[], (List.append_nil _).symm, by simp⟩, hbound.le⟩

theorem close_ordered (stream : InputStreamManager π) (hordered : stream.Ordered) :
    stream.close.Ordered := by
  unfold close
  split
  · exact hordered
  · exact
      { timed := hordered.timed
        sorted := hordered.sorted
        allowed := hordered.allowed
        below := fun packet hpacket => (hordered.allowed packet hpacket).2.trans_lt
          (show Timestamp.postStream < .done by decide)
        selected := fun h => absurd h (by simp)
        started := show Timestamp.unstarted ≤ .done by decide
        settled := fun h => absurd h (by simp) }

theorem erasePacketsEarlierThan_ordered (timestamp : Timestamp) (stream : InputStreamManager π)
    (hordered : stream.Ordered) : (stream.erasePacketsEarlierThan timestamp).1.Ordered := by
  have hsub : (stream.erasePacketsEarlierThan timestamp).1.queue.Sublist stream.queue :=
    List.dropWhile_sublist _
  exact
    { timed := hordered.timed
      sorted := hordered.sorted.sublist hsub
      allowed := fun packet hpacket => hordered.allowed packet (hsub.subset hpacket)
      below := fun packet hpacket => hordered.below packet (hsub.subset hpacket)
      selected := fun hopen packet hpacket => hordered.selected hopen packet (hsub.subset hpacket)
      started := hordered.started
      settled := hordered.settled }

section Pop

variable {timestamp : Timestamp} {stream : InputStreamManager π} {popped : Popped π}

-- In a sorted queue the packets up to a timestamp stand in front.
theorem takeWhile_eq_filter (timestamp : Timestamp) (queue : List (Packet π))
    (hsorted : queue.Pairwise (·.timestamp < ·.timestamp)) :
    queue.takeWhile (·.timestamp ≤ timestamp) = queue.filter (·.timestamp ≤ timestamp) ∧
      queue.dropWhile (·.timestamp ≤ timestamp) = queue.filter (timestamp < ·.timestamp) := by
  induction queue with
  | nil => simp
  | cons packet rest ih =>
      obtain ⟨hhead, hsorted⟩ := List.pairwise_cons.mp hsorted
      by_cases h : packet.timestamp ≤ timestamp
      · rw [List.takeWhile_cons_of_pos (by simpa using h), List.dropWhile_cons_of_pos (by simpa using h),
          List.filter_cons_of_pos (by simpa using h), List.filter_cons_of_neg (by simpa using h),
          (ih hsorted).1, (ih hsorted).2]
        exact ⟨rfl, rfl⟩
      · have hlater : ∀ other ∈ rest, timestamp < other.timestamp :=
          fun other hother => (not_le.mp h).trans (hhead other hother)
        rw [List.takeWhile_cons_of_neg (by simpa using h), List.dropWhile_cons_of_neg (by simpa using h),
          List.filter_cons_of_neg (by simpa using h), List.filter_cons_of_pos (by simpa using h),
          List.filter_eq_nil_iff.mpr (by simpa using hlater),
          List.filter_eq_self.mpr (by simpa using hlater)]
        exact ⟨rfl, rfl⟩

theorem pop_queue (hordered : stream.Ordered)
    (h : stream.popPacketAtTimestamp timestamp = some popped) :
    popped.stream.queue = stream.queue.filter (timestamp < ·.timestamp) := by
  rw [(popPacketAtTimestamp_eq_some timestamp stream popped h).2.2.1]
  exact (takeWhile_eq_filter timestamp stream.queue hordered.sorted).2

theorem pop_ordered (hordered : stream.Ordered)
    (h : stream.popPacketAtTimestamp timestamp = some popped) : popped.stream.Ordered := by
  have hqueue := pop_queue hordered h
  have hsub : popped.stream.queue.Sublist stream.queue := hqueue ▸ List.filter_sublist
  obtain ⟨_, hselect, hstream, _⟩ := popPacketAtTimestamp_eq_some timestamp stream popped h
  have hlater : ∀ packet ∈ popped.stream.queue, timestamp < packet.timestamp := by
    intro packet hpacket
    rw [hqueue] at hpacket
    simpa using (List.mem_filter.mp hpacket).2
  constructor
  · rw [hstream]
    exact hordered.timed
  · exact hordered.sorted.sublist hsub
  · exact fun packet hpacket => hordered.allowed packet (hsub.subset hpacket)
  · intro packet hpacket
    have hbelow := hordered.below packet (hsub.subset hpacket)
    have hafter := hlater packet hpacket
    rw [hstream]
    show packet.timestamp < if _ then _ else _
    rw [if_neg (not_le.mpr (hafter.trans hbelow))]
    exact hbelow
  · intro _ packet hpacket
    rw [hstream]
    exact hlater packet hpacket
  · rw [hstream]
    exact hordered.started.trans hselect
  · intro _ other hallowed hbound
    rw [hstream] at hbound ⊢
    show timestamp < other
    by_cases hle : stream.nextTimestampBound ≤ timestamp
    · exact timestamp.lt_of_next_le other hallowed (by simpa [hle] using hbound)
    · exact (not_le.mp hle).trans_le (by simpa [hle] using hbound)

-- The packet at a timestamp is the last one that the loop takes.
theorem removed_getLastD (hordered : stream.Ordered) (packet : Packet π)
    (hpacket : packet ∈ stream.queue) (htimestamp : packet.timestamp = timestamp) :
    (stream.removed timestamp).getLastD .empty = packet := by
  have hmem : packet ∈ stream.removed timestamp := by
    rw [removed, (takeWhile_eq_filter timestamp stream.queue hordered.sorted).1]
    exact List.mem_filter.mpr ⟨hpacket, by simp [htimestamp]⟩
  have hsorted : (stream.removed timestamp).Pairwise (·.timestamp < ·.timestamp) :=
    hordered.sorted.sublist (List.takeWhile_sublist _)
  have hle : ∀ other ∈ stream.removed timestamp, other.timestamp ≤ timestamp := by
    intro other hother
    simpa using List.mem_takeWhile_imp hother
  obtain ⟨front, rest, hsplit, _⟩ := List.eq_append_cons_of_mem hmem
  cases rest with
  | nil => simp [hsplit]
  | cons other rest =>
      rw [hsplit] at hsorted hle
      have hlt : packet.timestamp < other.timestamp := by
        have htail := (List.pairwise_append.mp hsorted).2.1
        exact (List.pairwise_cons.mp htail).1 other (List.mem_cons_self ..)
      have hother := hle other (by simp)
      exact absurd (htimestamp ▸ hlt) (not_lt.mpr hother)

theorem length_filter_le (timestamp : Timestamp) (queue : List (Packet π)) :
    (queue.filter (·.timestamp ≤ timestamp)).length =
      (queue.filter (·.timestamp < timestamp)).length +
        (queue.filter (·.timestamp = timestamp)).length := by
  induction queue with
  | nil => rfl
  | cons packet rest ih =>
      rcases lt_trichotomy packet.timestamp timestamp with h | h | h
      · simp only [List.filter_cons, h, h.le, h.ne, decide_true, decide_false, if_true, List.length_cons, ih]
        simp only [Bool.false_eq_true, if_false]
        omega
      · simp only [List.filter_cons, h, le_refl, lt_irrefl, decide_true, decide_false, if_true,
          List.length_cons, ih]
        simp only [Bool.false_eq_true, if_false]
        omega
      · simp only [List.filter_cons, not_le.mpr h, h.ne', not_lt.mpr h.le, decide_false]
        exact ih

theorem filter_timestamp_eq (queue : List (Packet π)) (packet : Packet π)
    (hsorted : queue.Pairwise (·.timestamp < ·.timestamp)) (hpacket : packet ∈ queue) :
    queue.filter (·.timestamp = packet.timestamp) = [packet] := by
  have hpair := hsorted.sublist
    (List.filter_sublist (l := queue) (p := fun other => decide (other.timestamp = packet.timestamp)))
  have hmem : ∀ other ∈ queue.filter (·.timestamp = packet.timestamp),
      other.timestamp = packet.timestamp := by
    intro other hother
    simpa using (List.mem_filter.mp hother).2
  have hin : packet ∈ queue.filter (·.timestamp = packet.timestamp) :=
    List.mem_filter.mpr ⟨hpacket, by simp⟩
  generalize queue.filter (·.timestamp = packet.timestamp) = found at hpair hmem hin
  match found with
  | [] => exact absurd hin List.not_mem_nil
  | [other] => rw [List.mem_singleton.mp hin]
  | first :: second :: rest =>
      have hlt := (List.pairwise_cons.mp hpair).1 second (List.mem_cons_self ..)
      rw [hmem first (by simp), hmem second (by simp)] at hlt
      exact absurd hlt (lt_irrefl _)

-- A pop returns the packet at its timestamp, counts the earlier ones as dropped and
-- leaves the later ones.
theorem pop_spec (hordered : stream.Ordered)
    (h : stream.popPacketAtTimestamp timestamp = some popped) :
    popped.stream.queue = stream.queue.filter (timestamp < ·.timestamp) ∧
      popped.numPacketsDropped = (stream.queue.filter (·.timestamp < timestamp)).length ∧
      (∀ packet ∈ stream.queue, packet.timestamp = timestamp → popped.packet = packet) ∧
      ((∀ packet ∈ stream.queue, packet.timestamp ≠ timestamp) → popped.packet.holder = none) := by
  obtain ⟨_, hselect, hstream, hpacket, hdropped, _⟩ :=
    popPacketAtTimestamp_eq_some timestamp stream popped h
  have hlength : (stream.removed timestamp).length =
      (stream.queue.filter (·.timestamp ≤ timestamp)).length := by
    rw [removed, (takeWhile_eq_filter timestamp stream.queue hordered.sorted).1]
  rw [length_filter_le] at hlength
  by_cases hmatch : ∃ packet ∈ stream.queue, packet.timestamp = timestamp
  · obtain ⟨packet, hmem, htimestamp⟩ := hmatch
    have hlast := removed_getLastD hordered packet hmem htimestamp
    have hone := filter_timestamp_eq stream.queue packet hordered.sorted hmem
    rw [htimestamp] at hone
    rw [hone, List.length_singleton] at hlength
    rw [hlast, if_neg (not_not.mpr htimestamp)] at hdropped
    refine ⟨pop_queue hordered h, by omega, ?_, fun hnone => absurd htimestamp (hnone packet hmem)⟩
    intro other hother hequal
    have hfound := removed_getLastD hordered other hother hequal
    rw [hpacket, hfound]
    exact if_neg (not_not.mpr hequal)
  · have hnone : ∀ packet ∈ stream.queue, packet.timestamp ≠ timestamp :=
      fun packet hmem htimestamp => hmatch ⟨packet, hmem, htimestamp⟩
    have hlast : ((stream.removed timestamp).getLastD .empty).timestamp ≠ timestamp := by
      cases hlist : (stream.removed timestamp).getLast? with
      | none =>
          rw [List.getLastD_eq_getLast?, hlist]
          intro hunset
          have hlow : Timestamp.unstarted ≤ timestamp := hordered.started.trans hselect
          rw [← hunset] at hlow
          exact absurd hlow (show ¬Timestamp.unstarted ≤ .unset by decide)
      | some packet =>
          rw [List.getLastD_eq_getLast?, hlist]
          have hmem : packet ∈ stream.removed timestamp := List.mem_of_getLast? hlist
          exact hnone packet ((List.takeWhile_sublist _).subset hmem)
    have hempty : stream.queue.filter (·.timestamp = timestamp) = [] :=
      List.filter_eq_nil_iff.mpr (by simpa using hnone)
    rw [hempty, List.length_nil] at hlength
    rw [if_pos hlast] at hdropped
    refine ⟨pop_queue hordered h, by omega,
      fun packet hmem htimestamp => absurd htimestamp (hnone packet hmem), fun _ => ?_⟩
    rw [hpacket]
    exact congrArg Packet.holder (if_pos hlast)

end Pop

end InputStreamManager

end SpaceInvaders.Mediapipe

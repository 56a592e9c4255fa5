import SpaceInvaders.Library.Flow
import SpaceInvaders.Mediapipe.InputStreamManager.Ordered

namespace SpaceInvaders.Mediapipe

namespace InputStreamManager

-- The calls by which producer and consumer change a stream, in the order of its mutex.
inductive Call (π : Type) where
  | addPackets (container : List (Packet π))
  | setNextTimestampBound (bound : Timestamp)
  | close
  | popPacketAtTimestamp (timestamp : Timestamp)
  | popQueueHead
  | setMaxQueueSize (maxQueueSize : Int)
  | erasePacketsEarlierThan (timestamp : Timestamp)

variable {π : Type}

-- None where a CHECK stops the program.
def call : Call π → InputStreamManager π → Option (InputStreamManager π)
  | .addPackets container, stream => some (addPackets container stream).stream
  | .setNextTimestampBound bound, stream => some (setNextTimestampBound bound stream).stream
  | .close, stream => some stream.close
  | .popPacketAtTimestamp timestamp, stream => (stream.popPacketAtTimestamp timestamp).map Popped.stream
  | .popQueueHead, stream => stream.popQueueHead.map Popped.stream
  | .setMaxQueueSize maxQueueSize, stream => some (stream.setMaxQueueSize maxQueueSize).1
  | .erasePacketsEarlierThan timestamp, stream => some (stream.erasePacketsEarlierThan timestamp).1

-- The packets that a call puts into the queue, and those that it takes out.
def gain : Call π → InputStreamManager π → List (Packet π)
  | .addPackets container, stream => stream.gained container
  | _, _ => []

def loss : Call π → InputStreamManager π → List (Packet π)
  | .popPacketAtTimestamp timestamp, stream => stream.removed timestamp
  | .popQueueHead, stream => stream.queue.take 1
  | .erasePacketsEarlierThan timestamp, stream => stream.queue.takeWhile (·.timestamp < timestamp)
  | _, _ => []

-- No packet enters below this timestamp, whatever else is called.
def horizon (stream : InputStreamManager π) : Timestamp :=
  if stream.closed then .oneOverPostStream
  else min stream.nextTimestampBound .oneOverPostStream

theorem call_flow (input : Call π) (before after : InputStreamManager π)
    (h : call input before = some after) :
    before.queue ++ gain input before = loss input before ++ after.queue := by
  cases input with
  | addPackets container =>
      cases h
      rw [addPackets_stream, foldl_addPacket_queue]
      rfl
  | setNextTimestampBound bound =>
      cases h
      rcases setNextTimestampBound_cases bound before with h | ⟨_, _, h⟩ <;> simp [h, gain, loss]
  | close =>
      cases h
      unfold close
      split <;> simp [gain, loss]
  | popPacketAtTimestamp timestamp =>
      obtain ⟨popped, hpop, rfl⟩ := Option.map_eq_some_iff.mp h
      rw [(popPacketAtTimestamp_eq_some timestamp before popped hpop).2.2.1]
      exact (List.append_nil _).trans List.takeWhile_append_dropWhile.symm
  | popQueueHead =>
      obtain ⟨popped, hpop, rfl⟩ := Option.map_eq_some_iff.mp h
      unfold popQueueHead at hpop
      split at hpop
      · cases hpop
      · cases hpop
        show before.queue ++ [] = before.queue.take 1 ++ before.queue.tail
        cases before.queue <;> simp
  | setMaxQueueSize maxQueueSize =>
      cases h
      exact List.append_nil _
  | erasePacketsEarlierThan timestamp =>
      cases h
      exact (List.append_nil _).trans List.takeWhile_append_dropWhile.symm

theorem call_ordered (input : Call π) (before after : InputStreamManager π)
    (h : call input before = some after) (hordered : before.Ordered) : after.Ordered := by
  cases input with
  | addPackets container =>
      cases h
      exact addPackets_ordered container before hordered
  | setNextTimestampBound bound =>
      cases h
      exact setNextTimestampBound_ordered bound before hordered
  | close =>
      cases h
      exact close_ordered before hordered
  | popPacketAtTimestamp timestamp =>
      obtain ⟨popped, hpop, rfl⟩ := Option.map_eq_some_iff.mp h
      exact pop_ordered hordered hpop
  | popQueueHead =>
      obtain ⟨popped, hpop, rfl⟩ := Option.map_eq_some_iff.mp h
      rw [popQueueHead, if_pos hordered.timed] at hpop
      cases hpop
  | setMaxQueueSize maxQueueSize =>
      cases h
      exact { hordered with }
  | erasePacketsEarlierThan timestamp =>
      cases h
      exact erasePacketsEarlierThan_ordered timestamp before hordered

theorem call_numPacketsAdded (input : Call π) (before after : InputStreamManager π)
    (h : call input before = some after) :
    after.numPacketsAdded = before.numPacketsAdded + (gain input before).length := by
  cases input with
  | addPackets container =>
      cases h
      rw [addPackets_stream, foldl_addPacket_numPacketsAdded]
      rfl
  | setNextTimestampBound bound =>
      cases h
      rcases setNextTimestampBound_cases bound before with h | ⟨_, _, h⟩ <;> simp [h, gain]
  | close =>
      cases h
      unfold close
      split <;> rfl
  | popPacketAtTimestamp timestamp =>
      obtain ⟨popped, hpop, rfl⟩ := Option.map_eq_some_iff.mp h
      rw [(popPacketAtTimestamp_eq_some timestamp before popped hpop).2.2.1]
      rfl
  | popQueueHead =>
      obtain ⟨popped, hpop, rfl⟩ := Option.map_eq_some_iff.mp h
      unfold popQueueHead at hpop
      split at hpop
      · cases hpop
      · cases hpop
        rfl
  | setMaxQueueSize maxQueueSize =>
      cases h
      rfl
  | erasePacketsEarlierThan timestamp =>
      cases h
      rfl

-- What no call changes.
theorem call_frame (input : Call π) (before after : InputStreamManager π)
    (h : call input before = some after) :
    after.name = before.name ∧ after.validate = before.validate ∧
      after.enableTimestamps = before.enableTimestamps ∧
      after.lastReportedStreamFull = before.lastReportedStreamFull := by
  cases input with
  | addPackets container =>
      cases h
      rw [addPackets_stream, foldl_addPacket]
      exact ⟨rfl, rfl, rfl, rfl⟩
  | setNextTimestampBound bound =>
      cases h
      rcases setNextTimestampBound_cases bound before with h | ⟨_, _, h⟩ <;> simp [h]
  | close =>
      cases h
      unfold close
      split <;> simp
  | popPacketAtTimestamp timestamp =>
      obtain ⟨popped, hpop, rfl⟩ := Option.map_eq_some_iff.mp h
      rw [(popPacketAtTimestamp_eq_some timestamp before popped hpop).2.2.1]
      exact ⟨rfl, rfl, rfl, rfl⟩
  | popQueueHead =>
      obtain ⟨popped, hpop, rfl⟩ := Option.map_eq_some_iff.mp h
      unfold popQueueHead at hpop
      split at hpop
      · cases hpop
      · cases hpop
        exact ⟨rfl, rfl, rfl, rfl⟩
  | setMaxQueueSize maxQueueSize =>
      cases h
      exact ⟨rfl, rfl, rfl, rfl⟩
  | erasePacketsEarlierThan timestamp =>
      cases h
      exact ⟨rfl, rfl, rfl, rfl⟩

theorem min_le_next (timestamp : Timestamp) :
    min timestamp .oneOverPostStream ≤ timestamp.nextAllowedInStream := by
  rw [min_le_iff, Timestamp.le_iff, Timestamp.le_iff, Timestamp.next_value,
    Timestamp.value_oneOverPostStream]
  split_ifs <;> omega

-- What a call takes in increases, between the horizons before and behind it.
theorem call_gain (input : Call π) (before after : InputStreamManager π)
    (h : call input before = some after) (hordered : before.Ordered) :
    Transition.EmitsBetween Packet.timestamp (gain input before) before.horizon after.horizon ∧
      ∀ packet ∈ gain input before, packet.timestamp.IsAllowedInStream := by
  cases input with
  | addPackets container =>
      cases h
      rw [gain, addPackets_stream, gained]
      split
      · exact ⟨Transition.EmitsBetween.nil _ le_rfl, by simp⟩
      · next hopen =>
        obtain ⟨hsorted, hspec, hmono⟩ := accepted_spec container before hordered.timed
        refine ⟨⟨hsorted, fun packet hpacket => ?_, ?_⟩, fun packet hpacket => (hspec packet hpacket).1⟩
        · obtain ⟨hallowed, hlow, hhigh⟩ := hspec packet hpacket
          rw [horizon, horizon, foldl_addPacket_closed, if_neg hopen, if_neg hopen]
          exact ⟨(min_le_left _ _).trans hlow, lt_min hhigh
            (hallowed.2.trans_lt (show Timestamp.postStream < .oneOverPostStream by decide))⟩
        · rw [horizon, horizon, foldl_addPacket_closed, if_neg hopen, if_neg hopen]
          exact min_le_min_right _ hmono
  | setNextTimestampBound bound =>
      cases h
      refine ⟨Transition.EmitsBetween.nil _ ?_, by simp [gain]⟩
      rcases setNextTimestampBound_cases bound before with h | ⟨hopen, hbound, h⟩
      · rw [h]
      · simp only [h, horizon, hopen]
        exact min_le_min_right _ hbound.le
  | close =>
      cases h
      refine ⟨Transition.EmitsBetween.nil _ ?_, by simp [gain]⟩
      unfold close
      split
      · rfl
      · next hopen =>
        rw [horizon, if_neg hopen]
        exact min_le_right _ _
  | popPacketAtTimestamp timestamp =>
      obtain ⟨popped, hpop, rfl⟩ := Option.map_eq_some_iff.mp h
      refine ⟨Transition.EmitsBetween.nil _ ?_, by simp [gain]⟩
      rw [(popPacketAtTimestamp_eq_some timestamp before popped hpop).2.2.1]
      unfold horizon
      by_cases hclosed : before.closed
      · simp [hclosed]
      by_cases hle : before.nextTimestampBound ≤ timestamp
      · simp only [hclosed, hle, if_true, Bool.false_eq_true, if_false]
        exact le_min ((min_le_min_right _ hle).trans (min_le_next timestamp)) (min_le_right _ _)
      · simp [hclosed, hle]
  | popQueueHead =>
      obtain ⟨popped, hpop, rfl⟩ := Option.map_eq_some_iff.mp h
      rw [popQueueHead, if_pos hordered.timed] at hpop
      cases hpop
  | setMaxQueueSize maxQueueSize =>
      cases h
      exact ⟨Transition.EmitsBetween.nil _ le_rfl, by simp [gain]⟩
  | erasePacketsEarlierThan timestamp =>
      cases h
      exact ⟨Transition.EmitsBetween.nil _ le_rfl, by simp [gain]⟩

theorem run_ordered (calls : List (Call π)) (start final : InputStreamManager π)
    (hordered : start.Ordered) (hrun : Transition.run call start calls = some final) : final.Ordered :=
  Transition.run_invariant Ordered calls start final
    (fun before input after hvisits => call_ordered input before after hvisits.step_eq) hordered hrun

theorem visits_ordered (calls : List (Call π)) (start before after : InputStreamManager π)
    (input : Call π) (hordered : start.Ordered)
    (hvisits : Transition.Visits call start calls before input after) : before.Ordered :=
  hvisits.invariant Ordered
    (fun s other t hstep => call_ordered other s t hstep.step_eq) hordered

theorem log_gain_sorted (calls : List (Call π)) (start final : InputStreamManager π)
    (hordered : start.Ordered) (hrun : Transition.run call start calls = some final) :
    (Transition.log call gain start calls).Pairwise (·.timestamp < ·.timestamp) ∧
      ∀ packet ∈ Transition.log call gain start calls,
        packet.timestamp.IsAllowedInStream ∧ start.horizon ≤ packet.timestamp := by
  have hgain : ∀ before input after, Transition.Visits call start calls before input after →
      Transition.EmitsBetween Packet.timestamp (gain input before) before.horizon after.horizon ∧
        ∀ packet ∈ gain input before, packet.timestamp.IsAllowedInStream :=
    fun before input after hvisits => call_gain input before after hvisits.step_eq
      (visits_ordered calls start before after input hordered hvisits)
  have hallowed := Transition.log_forall (fun packet => packet.timestamp.IsAllowedInStream) gain calls
    start final (fun before input after hvisits => (hgain before input after hvisits).2) hrun
  obtain ⟨hsorted, hbetween, _⟩ := Transition.log_sorted Packet.timestamp horizon gain calls start final
    (fun before input after hvisits => (hgain before input after hvisits).1) hrun
  exact ⟨hsorted, fun packet hpacket => ⟨hallowed packet hpacket, (hbetween packet hpacket).1⟩⟩

-- The queue is first in, first out over any run of calls, and its order is that of time.
theorem run_accounts (stream final : InputStreamManager π) (calls : List (Call π))
    (htimed : stream.enableTimestamps)
    (hrun : Transition.run call stream.prepareForRun calls = some final) :
    Transition.log call gain stream.prepareForRun calls =
        Transition.log call loss stream.prepareForRun calls ++ final.queue ∧
      final.numPacketsAdded = (Transition.log call gain stream.prepareForRun calls).length ∧
      (Transition.log call gain stream.prepareForRun calls).Pairwise (·.timestamp < ·.timestamp) := by
  have hordered := prepareForRun_ordered stream htimed
  refine ⟨?_, ?_, (log_gain_sorted calls _ final hordered hrun).1⟩
  · exact Transition.log_flow queue gain loss calls _ final
      (fun before input after hvisits => call_flow input before after hvisits.step_eq) hrun
  · have hcount := Transition.log_length numPacketsAdded gain calls _ final
      (fun before input after hvisits => call_numPacketsAdded input before after hvisits.step_eq) hrun
    exact hcount.trans (Nat.zero_add _)

theorem run_accounts_pop :
    ∃ final, Transition.run call (initialized "in" fun _ => none : InputStreamManager Unit).prepareForRun
        [.addPackets [⟨some (), .min⟩, ⟨some (), .max⟩], .popPacketAtTimestamp .min] = some final ∧
      final.numPacketsAdded = 2 := by
  obtain ⟨final, hfinal⟩ := Option.isSome_iff_exists.mp
    (show (Transition.run call (initialized "in" fun _ => none : InputStreamManager Unit).prepareForRun
      [.addPackets [⟨some (), .min⟩, ⟨some (), .max⟩], .popPacketAtTimestamp .min]).isSome
      by decide +kernel)
  exact ⟨final, hfinal, (run_accounts _ final _ rfl hfinal).2.1.trans (by decide +kernel)⟩

-- The timestamp of a pop is behind the stream for good: what came before it is
-- counted, and nothing up to it ever comes again.
theorem pop_settles (stream before final : InputStreamManager π) (timestamp : Timestamp)
    (popped : Popped π) (done rest : List (Call π)) (htimed : stream.enableTimestamps)
    (hdone : Transition.run call stream.prepareForRun done = some before)
    (hpop : before.popPacketAtTimestamp timestamp = some popped)
    (hrest : Transition.run call popped.stream rest = some final) :
    popped.numPacketsDropped = (before.queue.filter (·.timestamp < timestamp)).length ∧
      (∀ packet ∈ before.queue, packet.timestamp = timestamp → popped.packet = packet) ∧
      ((∀ packet ∈ before.queue, packet.timestamp ≠ timestamp) → popped.packet.holder = none) ∧
      (∀ packet ∈ popped.stream.queue ++ Transition.log call gain popped.stream rest,
        timestamp < packet.timestamp) := by
  have hordered := run_ordered done _ before (prepareForRun_ordered stream htimed) hdone
  obtain ⟨hqueue, hdropped, hmatch, hnone⟩ := pop_spec hordered hpop
  refine ⟨hdropped, hmatch, hnone, fun packet hpacket => ?_⟩
  have hordered' := pop_ordered hordered hpop
  cases List.mem_append.mp hpacket with
  | inl h =>
      rw [hqueue] at h
      simpa using (List.mem_filter.mp h).2
  | inr h =>
      obtain ⟨hallowed, hhorizon⟩ := (log_gain_sorted rest _ final hordered' hrest).2 packet h
      have hpast : packet.timestamp < .oneOverPostStream :=
        hallowed.2.trans_lt (show Timestamp.postStream < .oneOverPostStream by decide)
      have hselect : popped.stream.lastSelectTimestamp = timestamp := by
        rw [(popPacketAtTimestamp_eq_some timestamp before popped hpop).2.2.1]
      unfold horizon at hhorizon
      split at hhorizon
      · exact absurd hhorizon (not_le.mpr hpast)
      · next hopen =>
        have hbound := (min_le_iff.mp hhorizon).resolve_right (not_le.mpr hpast)
        have hsettled := hordered'.settled (by simpa using hopen) packet.timestamp hallowed hbound
        rwa [hselect] at hsettled

theorem pop_settles_max :
    ∃ before popped : _, Transition.run call (initialized "in" fun _ => none : InputStreamManager Unit).prepareForRun
        [.addPackets [⟨some (), .min⟩, ⟨some (), .max⟩]] = some before ∧
      before.popPacketAtTimestamp .max = some popped ∧
      popped.numPacketsDropped = (before.queue.filter (·.timestamp < .max)).length := by
  obtain ⟨before, hbefore⟩ := Option.isSome_iff_exists.mp
    (show (Transition.run call (initialized "in" fun _ => none : InputStreamManager Unit).prepareForRun
      [.addPackets [⟨some (), .min⟩, ⟨some (), .max⟩]]).isSome by decide +kernel)
  have hordered := run_ordered _ _ before (prepareForRun_ordered _ rfl) hbefore
  obtain ⟨popped, hpop⟩ := popPacketAtTimestamp_isSome .max before hordered.timed
    (by cases hbefore; decide +kernel)
  exact ⟨before, popped, hbefore, hpop,
    (pop_settles _ before popped.stream .max popped _ [] rfl hbefore hpop rfl).1⟩

end InputStreamManager

end SpaceInvaders.Mediapipe

import SpaceInvaders.Library.Merge
import SpaceInvaders.Mediapipe.SyncSet.Deliver

namespace SpaceInvaders.Mediapipe

namespace SyncSet

open InputStreamManager

variable {κ π : Type} [DecidableEq κ]

section Step

variable {set after : SyncSet κ π}

theorem step_decide (h : step .decide set = some after) :
    ∃ minBound minPacket, set.scheduling = .reading [] minBound minPacket ∧
      decided minBound minPacket set = some after := by
  unfold step at h
  cases hscheduling : set.scheduling with
  | reading unread minBound minPacket =>
      cases unread with
      | nil => exact ⟨minBound, minPacket, rfl, by simpa [hscheduling] using h⟩
      | cons id unread => simp [hscheduling] at h
  | idle => simp [hscheduling] at h
  | filling unfilled inputSet => simp [hscheduling] at h

theorem step_getReadiness (h : step .getReadiness set = some after) :
    set.scheduling = .idle ∧
      after = { set with scheduling := .reading set.streamIds .done .done } := by
  unfold step at h
  cases hscheduling : set.scheduling with
  | idle => exact ⟨rfl, by simpa [hscheduling] using h.symm⟩
  | _ => simp [hscheduling] at h

theorem step_read (h : step .read set = some after) :
    ∃ id unread minBound minPacket, set.scheduling = .reading (id :: unread) minBound minPacket ∧
      after = { set with
        scheduling := .reading unread (readStream (set.streams id) minBound minPacket).1
          (readStream (set.streams id) minBound minPacket).2 } := by
  unfold step at h
  cases hscheduling : set.scheduling with
  | reading unread minBound minPacket =>
      cases unread with
      | nil => simp [hscheduling] at h
      | cons id unread =>
          exact ⟨id, unread, minBound, minPacket, rfl, by simpa [hscheduling] using h.symm⟩
  | _ => simp [hscheduling] at h

theorem step_fill (h : step .fill set = some after) :
    ∃ id unfilled inputSet, set.scheduling = .filling (id :: unfilled) inputSet ∧
      fillStream id unfilled inputSet set = some after := by
  unfold step at h
  cases hscheduling : set.scheduling with
  | filling unfilled inputSet =>
      cases unfilled with
      | nil => simp [hscheduling] at h
      | cons id unfilled => exact ⟨id, unfilled, inputSet, rfl, by simpa [hscheduling] using h⟩
  | _ => simp [hscheduling] at h

theorem step_process (h : step .process set = some after) :
    ∃ inputSet, set.scheduling = .filling [] inputSet ∧ after = { set with scheduling := .idle } := by
  unfold step at h
  cases hscheduling : set.scheduling with
  | filling unfilled inputSet =>
      cases unfilled with
      | nil => exact ⟨inputSet, rfl, by simpa [hscheduling] using h.symm⟩
      | cons id unfilled => simp [hscheduling] at h
  | _ => simp [hscheduling] at h

theorem step_valid (event : Event κ π) (h : step event set = some after) (hvalid : Valid set) :
    Valid after := by
  cases event with
  | addPackets id container =>
      cases h
      exact hvalid.update id (addPackets_grows container _ (hvalid.ordered id) (hvalid.opened id))
  | setNextTimestampBound id bound =>
      cases h
      exact hvalid.update id
        (setNextTimestampBound_grows bound _ (hvalid.ordered id) (hvalid.opened id))
  | getReadiness =>
      obtain ⟨hscheduling, rfl⟩ := step_getReadiness h
      have hphase := hvalid.phase
      unfold Phase at hphase
      simp only [hscheduling] at hphase
      obtain ⟨last, hselected, hprocessed⟩ := hphase
      exact hvalid.schedule _ _ ⟨last, hselected, hprocessed,
        fun id hid => absurd (set.hcomplete id) hid, .inl rfl⟩
  | read =>
      obtain ⟨id, unread, minBound, minPacket, hscheduling, rfl⟩ := step_read h
      have hphase := hvalid.phase
      unfold Phase at hphase
      simp only [hscheduling] at hphase
      obtain ⟨last, hselected, hprocessed, hseen, hattained⟩ := hphase
      obtain ⟨hbound, hpacket⟩ := readStream_le (set.streams id) minBound minPacket
      refine hvalid.schedule _ _ ⟨last, hselected, fun hprocess => ?_, fun other hother => ?_, ?_⟩
      · exact (hprocessed hprocess).imp_right fun hover => ⟨hover.1,
          readStream_over (set.streams id) (hover.1 id).1 (hover.1 id).2 hover.2.1 hover.2.2⟩
      · by_cases hequal : other = id
        · rw [hequal]
          exact readStream_seen (set.streams id) (hvalid.ordered id) minBound minPacket
        · exact (hseen other (by simp [hequal, hother])).mono hbound hpacket
      · rcases readStream_attained (set.streams id) minBound minPacket with hsame | hpacket
        · rw [hsame]
          exact hattained
        · exact .inr ⟨id, hpacket⟩
  | decide =>
      obtain ⟨minBound, minPacket, hscheduling, hdecided⟩ := step_decide h
      obtain ⟨found, hfound, hvalid'⟩ := decided_valid hvalid hscheduling
      cases hfound.symm.trans hdecided
      exact hvalid'
  | fill =>
      obtain ⟨id, unfilled, inputSet, hscheduling, hfill⟩ := step_fill h
      obtain ⟨found, _, hfound, hvalid', _⟩ := fillStream_valid hvalid hscheduling
      cases hfound.symm.trans hfill
      exact hvalid'
  | process =>
      obtain ⟨inputSet, hscheduling, rfl⟩ := step_process h
      have hphase := hvalid.phase
      unfold Phase at hphase
      simp only [hscheduling] at hphase
      obtain ⟨_, hlast, _, _, hpast, _⟩ := hphase
      exact hvalid.schedule _ _ ⟨inputSet.timestamp, fun id => (hpast id List.not_mem_nil).1,
        fun _ => .inl (by rw [hlast]; exact le_max_left _ _)⟩

-- Packets of one stream that have entered an input set or wait in the queue.
def contents (id : κ) (set : SyncSet κ π) : List (Packet π) :=
  (match set.scheduling with
    | .filling _ inputSet => row id inputSet
    | _ => []) ++ (set.streams id).queue

def loss (id : κ) (event : Event κ π) (set : SyncSet κ π) : List (Packet π) :=
  (delivered event set).flatMap (row id)

theorem mem_row {inputSet : InputSet κ π} {entry : κ × Packet π} (hentry : entry ∈ inputSet.packets)
    (hholder : entry.2.holder ≠ none) : entry.2 ∈ row entry.1 inputSet := by
  refine List.mem_map.mpr ⟨entry, List.mem_filter.mpr ⟨hentry, ?_⟩, rfl⟩
  simp [Option.isSome_iff_ne_none, hholder]

theorem row_append (id other : κ) (timestamp : Timestamp) (packets : List (κ × Packet π))
    (packet : Packet π) :
    row id { timestamp := timestamp, packets := packets ++ [(other, packet)] } =
      row id { timestamp := timestamp, packets := packets } ++
        if other = id ∧ packet.holder ≠ none then [packet] else [] := by
  unfold row
  rw [List.filter_append, List.map_append]
  congr 1
  by_cases hother : other = id <;> cases hholder : packet.holder <;> simp [hother, hholder]

-- The packets of a stream go into the input sets in order, and none is lost.
theorem step_flow (id : κ) (event : Event κ π) (h : step event set = some after) (hvalid : Valid set) :
    contents id set ++ gain id event set = loss id event set ++ contents id after := by
  cases event with
  | addPackets other container =>
      cases h
      unfold contents gain loss
      by_cases hother : other = id
      · subst hother
        simp only [if_true, Function.update_self, addPackets_stream, foldl_addPacket_queue, delivered,
          List.flatMap_nil, List.nil_append, List.append_assoc]
      · simp only [if_neg hother, Function.update_of_ne (Ne.symm hother), delivered, List.flatMap_nil,
          List.nil_append, List.append_nil]
  | setNextTimestampBound other bound =>
      cases h
      unfold contents gain loss
      by_cases hother : other = id
      · subst hother
        rcases setNextTimestampBound_cases bound (set.streams other) with h | ⟨_, _, h⟩ <;>
          simp [h, delivered]
      · simp [Function.update_of_ne (Ne.symm hother), delivered]
  | getReadiness =>
      obtain ⟨hscheduling, rfl⟩ := step_getReadiness h
      simp [contents, gain, loss, delivered, hscheduling]
  | read =>
      obtain ⟨_, _, _, _, hscheduling, rfl⟩ := step_read h
      simp [contents, gain, loss, delivered, hscheduling]
  | decide =>
      obtain ⟨minBound, minPacket, hscheduling, hdecided⟩ := step_decide h
      unfold decided at hdecided
      split at hdecided
      · obtain ⟨_, ⟨⟩⟩ := Option.ite_none_right_eq_some.mp hdecided
        simp [contents, gain, loss, delivered, hscheduling, row]
      · cases hdecided
        simp [contents, gain, loss, delivered, hscheduling]
  | fill =>
      obtain ⟨other, unfilled, inputSet, hscheduling, hfill⟩ := step_fill h
      obtain ⟨found, popped, hfound, _, hafter, hothers, _, hqueue⟩ := fillStream_valid hvalid hscheduling
      cases hfound.symm.trans hfill
      simp only [contents, hscheduling, hafter, gain, loss, delivered, List.append_nil, List.flatMap_nil,
        List.nil_append, row_append]
      by_cases hother : other = id
      · subst hother
        rcases hqueue with ⟨hqueue, _, hholder⟩ | ⟨hholder, hqueue⟩
        · simp [hqueue, hholder]
        · simp [hqueue, hholder]
      · simp [hother, hothers id (Ne.symm hother)]
  | process =>
      obtain ⟨inputSet, hscheduling, rfl⟩ := step_process h
      simp [contents, gain, loss, delivered, hscheduling]

-- The delivered input sets are later than what is below the floor.
def floor (set : SyncSet κ π) : Int :=
  match set.scheduling with
  | .filling _ inputSet => inputSet.timestamp.value
  | _ => (set.streams (set.streamIds.head set.hsome)).lastSelectTimestamp.value + 1

omit [DecidableEq κ] in
theorem floor_streams (set : SyncSet κ π) (streams : κ → InputStreamManager π)
    (hselected : ∀ id, (streams id).lastSelectTimestamp = (set.streams id).lastSelectTimestamp) :
    floor { set with streams := streams } = floor set := by
  unfold floor
  simp only [hselected]

theorem update_selected (set : SyncSet κ π) (id : κ) {stream : InputStreamManager π}
    (hgrows : Grows (set.streams id) stream) (other : κ) :
    (Function.update set.streams id stream other).lastSelectTimestamp =
      (set.streams other).lastSelectTimestamp := by
  by_cases hother : other = id
  · rw [hother, Function.update_self, hgrows.selected]
  · rw [Function.update_of_ne hother]

theorem step_floor (event : Event κ π) (h : step event set = some after) (hvalid : Valid set) :
    Transition.EmitsBetween (fun inputSet : InputSet κ π => inputSet.timestamp.value)
      (delivered event set) (floor set) (floor after) := by
  have hafter := step_valid event h hvalid
  have hquiet : delivered event set = [] → floor set ≤ floor after →
      Transition.EmitsBetween (fun inputSet : InputSet κ π => inputSet.timestamp.value)
        (delivered event set) (floor set) (floor after) :=
    fun hnone hle => hnone ▸ Transition.EmitsBetween.nil _ hle
  cases event with
  | addPackets id container =>
      cases h
      exact hquiet rfl (floor_streams set _ (update_selected set id
        (addPackets_grows container _ (hvalid.ordered id) (hvalid.opened id)))).ge
  | setNextTimestampBound id bound =>
      cases h
      exact hquiet rfl (floor_streams set _ (update_selected set id
        (setNextTimestampBound_grows bound _ (hvalid.ordered id) (hvalid.opened id)))).ge
  | getReadiness =>
      obtain ⟨hscheduling, rfl⟩ := step_getReadiness h
      exact hquiet rfl (by simp [floor, hscheduling])
  | read =>
      obtain ⟨_, _, _, _, hscheduling, rfl⟩ := step_read h
      exact hquiet rfl (by simp [floor, hscheduling])
  | decide =>
      obtain ⟨minBound, minPacket, hscheduling, hdecided⟩ := step_decide h
      apply hquiet rfl
      unfold decided at hdecided
      split at hdecided
      · obtain ⟨_, ⟨⟩⟩ := Option.ite_none_right_eq_some.mp hdecided
        -- The new timestamp is later than the last pop of every stream.
        have hphase := hafter.phase
        unfold Phase at hphase
        have hlast := (hphase.2.2.2.1 _ (List.head_mem set.hsome)).1
        simp only [floor, hscheduling]
        exact hlast
      · cases hdecided
        simp [floor, hscheduling]
  | fill =>
      obtain ⟨_, _, inputSet, hscheduling, hfill⟩ := step_fill h
      obtain ⟨found, _, hfound, _, hscheduling', _⟩ := fillStream_valid hvalid hscheduling
      cases hfound.symm.trans hfill
      exact hquiet rfl (by simp [floor, hscheduling, hscheduling'])
  | process =>
      obtain ⟨inputSet, hscheduling, rfl⟩ := step_process h
      have hphase := hvalid.phase
      unfold Phase at hphase
      simp only [hscheduling] at hphase
      have hlast := (hphase.2.2.2.2.1 (set.streamIds.head set.hsome) List.not_mem_nil).1
      have hfloor : floor { set with scheduling := .idle } = inputSet.timestamp.value + 1 := by
        simp only [floor, hlast]
      have hfloor' : floor set = inputSet.timestamp.value := by simp only [floor, hscheduling]
      rw [hfloor, hfloor']
      simp only [delivered, hscheduling]
      exact ⟨List.pairwise_singleton _ _, by simp, by omega⟩

-- When nothing is left and nothing can come, that stays so.
theorem step_over (event : Event κ π) (h : step event set = some after) (hvalid : Valid set)
    (hover : Over set) : Over after ∧ ∀ id, gain id event set = [] := by
  cases event with
  | addPackets id container =>
      cases h
      have hgrows := addPackets_grows container _ (hvalid.ordered id) (hvalid.opened id)
      have hnone := no_packet_joins hgrows (hover id).1 (hover id).2
      refine ⟨fun other => ?_, fun other => ?_⟩
      · by_cases hother : other = id
        · simp only [hother, Function.update_self]
          exact ⟨hnone, (hover id).2.trans hgrows.bound⟩
        · simp only [Function.update_of_ne hother]
          exact hover other
      · rw [addPackets_stream, foldl_addPacket_queue] at hnone
        by_cases hother : id = other
        · subst hother
          simpa only [gain, if_true] using (List.append_eq_nil_iff.mp hnone).2
        · simp only [gain, if_neg hother]
  | setNextTimestampBound id bound =>
      cases h
      have hgrows := setNextTimestampBound_grows bound _ (hvalid.ordered id) (hvalid.opened id)
      refine ⟨fun other => ?_, fun _ => rfl⟩
      by_cases hother : other = id
      · simp only [hother, Function.update_self]
        exact ⟨no_packet_joins hgrows (hover id).1 (hover id).2, (hover id).2.trans hgrows.bound⟩
      · simp only [Function.update_of_ne hother]
        exact hover other
  | getReadiness =>
      obtain ⟨_, rfl⟩ := step_getReadiness h
      exact ⟨hover, fun _ => rfl⟩
  | read =>
      obtain ⟨_, _, _, _, _, rfl⟩ := step_read h
      exact ⟨hover, fun _ => rfl⟩
  | decide =>
      obtain ⟨_, _, _, hdecided⟩ := step_decide h
      refine ⟨?_, fun _ => rfl⟩
      unfold decided at hdecided
      split at hdecided
      · obtain ⟨_, ⟨⟩⟩ := Option.ite_none_right_eq_some.mp hdecided
        exact hover
      · cases hdecided
        exact hover
  | fill =>
      obtain ⟨id, _, _, hscheduling, hfill⟩ := step_fill h
      obtain ⟨found, popped, hfound, _, _, hothers, hbound, hqueue⟩ := fillStream_valid hvalid hscheduling
      cases hfound.symm.trans hfill
      refine ⟨fun other => ?_, fun _ => rfl⟩
      by_cases hother : other = id
      · subst hother
        rw [hbound]
        rcases hqueue with ⟨hqueue, _⟩ | ⟨_, hqueue⟩
        · exact absurd ((hover other).1.symm.trans hqueue) (by simp)
        · exact ⟨hqueue.symm.trans (hover other).1, (hover other).2⟩
      · rw [hothers other hother]
        exact hover other
  | process =>
      obtain ⟨_, _, rfl⟩ := step_process h
      exact ⟨hover, fun _ => rfl⟩

theorem step_bound (event : Event κ π) (h : step event set = some after) (hvalid : Valid set) (id : κ) :
    (set.streams id).nextTimestampBound ≤ (after.streams id).nextTimestampBound := by
  have hupdate : ∀ other stream, Grows (set.streams other) stream → (set.streams id).nextTimestampBound ≤
      (Function.update set.streams other stream id).nextTimestampBound := by
    intro other stream hgrows
    by_cases hother : id = other
    · subst hother
      simpa only [Function.update_self] using hgrows.bound
    · simp only [Function.update_of_ne hother, le_refl]
  cases event with
  | addPackets other container =>
      cases h
      exact hupdate other _ (addPackets_grows container _ (hvalid.ordered other) (hvalid.opened other))
  | setNextTimestampBound other bound =>
      cases h
      exact hupdate other _ (setNextTimestampBound_grows bound _ (hvalid.ordered other) (hvalid.opened other))
  | getReadiness =>
      obtain ⟨_, rfl⟩ := step_getReadiness h
      exact le_rfl
  | read =>
      obtain ⟨_, _, _, _, _, rfl⟩ := step_read h
      exact le_rfl
  | decide =>
      obtain ⟨_, _, _, hdecided⟩ := step_decide h
      unfold decided at hdecided
      split at hdecided
      · obtain ⟨_, ⟨⟩⟩ := Option.ite_none_right_eq_some.mp hdecided
        exact le_rfl
      · cases hdecided
        exact le_rfl
  | fill =>
      obtain ⟨other, _, _, hscheduling, hfill⟩ := step_fill h
      obtain ⟨found, _, hfound, _, _, hothers, hbound, _⟩ := fillStream_valid hvalid hscheduling
      cases hfound.symm.trans hfill
      by_cases hother : id = other
      · subst hother
        exact hbound.ge
      · rw [hothers id hother]
  | process =>
      obtain ⟨_, _, rfl⟩ := step_process h
      exact le_rfl

end Step

section Run

variable {start before after final : SyncSet κ π} {events done rest : List (Event κ π)}

omit [DecidableEq κ] in
-- A handler that begins a run. Its streams refuse empty packets, as every packet type does.
theorem prepareForRun_valid (set : SyncSet κ π) (htimed : ∀ id, (set.streams id).enableTimestamps)
    (hrejects : ∀ id packet, packet.holder = none → (set.streams id).validate packet ≠ none) :
    Valid set.prepareForRun where
  ordered := fun id => prepareForRun_ordered (set.streams id) (htimed id)
  opened := fun _ => rfl
  rejects := hrejects
  filled := fun _ packet hpacket => absurd hpacket List.not_mem_nil
  shard := fun _ hdone => absurd hdone (by simp [prepareForRun])
  phase := ⟨.unstarted, fun _ => rfl, fun _ => .inl (le_max_right _ _)⟩

theorem run_valid (hvalid : Valid start) (hrun : Transition.run step start events = some final) :
    Valid final :=
  Transition.run_invariant Valid events start final
    (fun _ event _ hvisits => step_valid event hvisits.step_eq) hvalid hrun

theorem visits_valid {event : Event κ π} (hvalid : Valid start)
    (hvisits : Transition.Visits step start events before event after) : Valid before :=
  hvisits.invariant Valid (fun _ event _ h => step_valid event h.step_eq) hvalid

theorem run_flow (hvalid : Valid start) (hrun : Transition.run step start events = some final) (id : κ) :
    contents id start ++ Transition.log step (gain id) start events =
      Transition.log step (loss id) start events ++ contents id final :=
  Transition.log_flow (contents id) (gain id) (loss id) events start final
    (fun _ event _ hvisits => step_flow id event hvisits.step_eq (visits_valid hvalid hvisits)) hrun

theorem step_frame (event : Event κ π) (h : step event before = some after) :
    after.streamIds = before.streamIds ∧ after.processTimestamps = before.processTimestamps := by
  cases event with
  | addPackets id container =>
      cases h
      exact ⟨rfl, rfl⟩
  | setNextTimestampBound id bound =>
      cases h
      exact ⟨rfl, rfl⟩
  | getReadiness =>
      obtain ⟨_, rfl⟩ := step_getReadiness h
      exact ⟨rfl, rfl⟩
  | read =>
      obtain ⟨_, _, _, _, _, rfl⟩ := step_read h
      exact ⟨rfl, rfl⟩
  | decide =>
      obtain ⟨_, _, _, hdecided⟩ := step_decide h
      unfold decided at hdecided
      split at hdecided
      · obtain ⟨_, ⟨⟩⟩ := Option.ite_none_right_eq_some.mp hdecided
        exact ⟨rfl, rfl⟩
      · cases hdecided
        exact ⟨rfl, rfl⟩
  | fill =>
      obtain ⟨_, _, _, _, hfill⟩ := step_fill h
      unfold fillStream at hfill
      split at hfill
      · obtain ⟨_, hfill⟩ := Option.ite_none_left_eq_some.mp hfill
        obtain ⟨_, ⟨⟩⟩ := Option.ite_none_left_eq_some.mp hfill
        exact ⟨rfl, rfl⟩
      · cases hfill
  | process =>
      obtain ⟨_, _, rfl⟩ := step_process h
      exact ⟨rfl, rfl⟩

theorem visits_frame {event : Event κ π}
    (hvisits : Transition.Visits step start events before event after) :
    before.streamIds = start.streamIds ∧ before.processTimestamps = start.processTimestamps :=
  hvisits.invariant
    (fun set => set.streamIds = start.streamIds ∧ set.processTimestamps = start.processTimestamps)
    (fun _ event _ h hframe => ⟨(step_frame event h.step_eq).1.trans hframe.1,
      (step_frame event h.step_eq).2.trans hframe.2⟩) ⟨rfl, rfl⟩

theorem run_frame (hrun : Transition.run step start events = some final) :
    final.streamIds = start.streamIds ∧ final.processTimestamps = start.processTimestamps :=
  Transition.run_invariant
    (fun set => set.streamIds = start.streamIds ∧ set.processTimestamps = start.processTimestamps)
    events start final
    (fun _ event _ h hframe => ⟨(step_frame event h.step_eq).1.trans hframe.1,
      (step_frame event h.step_eq).2.trans hframe.2⟩) ⟨rfl, rfl⟩ hrun

-- What a calculator is given: an entry for each stream, and only packets of the timestamp.
structure Whole (streamIds : List κ) (inputSet : InputSet κ π) : Prop where
  allowed : inputSet.timestamp.IsAllowedInStream
  keyed : inputSet.packets.map Prod.fst = streamIds
  timed : ∀ entry ∈ inputSet.packets, entry.2.holder ≠ none → entry.2.timestamp = inputSet.timestamp

theorem delivered_whole {event : Event κ π} (hvalid : Valid start)
    (hvisits : Transition.Visits step start events before event after) :
    ∀ inputSet ∈ delivered event before, Whole start.streamIds inputSet ∧
      (start.processTimestamps = false → ∃ entry ∈ inputSet.packets, entry.2.holder ≠ none) := by
  have hphase := (visits_valid hvalid hvisits).phase
  cases event with
  | process =>
      obtain ⟨inputSet, hscheduling, _⟩ := step_process hvisits.step_eq
      unfold Phase at hphase
      simp only [hscheduling] at hphase
      obtain ⟨hallowed, _, hkeyed, _, _, htimed, hfilled⟩ := hphase
      rw [List.append_nil, (visits_frame hvisits).1] at hkeyed
      rw [(visits_frame hvisits).2] at hfilled
      simp only [delivered, hscheduling, List.mem_singleton, forall_eq]
      exact ⟨⟨hallowed, hkeyed, htimed⟩, fun hplain => (hfilled hplain).resolve_right (by simp)⟩
  | _ => simp [delivered]

theorem run_delivered_flow (hvalid : Valid start) (hrun : Transition.run step start events = some final)
    (id : κ) :
    contents id start ++ Transition.log step (gain id) start events =
      (Transition.log step delivered start events).flatMap (row id) ++ contents id final := by
  rw [run_flow hvalid hrun]
  congr 1
  exact Transition.log_part delivered (·.flatMap (row id)) rfl (fun _ _ => List.flatMap_append) events start

theorem run_over (hvalid : Valid start) (hover : Over start)
    (hrun : Transition.run step start events = some final) (id : κ) :
    Transition.log step (gain id) start events = [] := by
  refine List.eq_nil_iff_forall_not_mem.mpr
    (Transition.log_forall (fun _ => False) (gain id) events start final ?_ hrun)
  intro before event after hvisits packet hpacket
  have hbefore : Valid before ∧ Over before := hvisits.invariant (fun set => Valid set ∧ Over set)
    (fun _ event _ h hboth => ⟨step_valid event h.step_eq hboth.1,
      (step_over event h.step_eq hboth.1 hboth.2).1⟩) ⟨hvalid, hover⟩
  rw [(step_over event hvisits.step_eq hbefore.1 hbefore.2).2 id] at hpacket
  cases hpacket

theorem run_bound (hvalid : Valid start) (hrun : Transition.run step start events = some final) (id : κ) :
    (start.streams id).nextTimestampBound ≤ (final.streams id).nextTimestampBound :=
  (Transition.run_invariant (fun set => Valid set ∧
      (start.streams id).nextTimestampBound ≤ (set.streams id).nextTimestampBound) events start final
    (fun _ event _ hvisits hboth => ⟨step_valid event hvisits.step_eq hboth.1,
      hboth.2.trans (step_bound event hvisits.step_eq hboth.1 id)⟩) ⟨hvalid, le_rfl⟩ hrun).2

-- What has not been delivered is later than everything that has.
theorem floor_le_contents (hvalid : Valid start) (id : κ) :
    ∀ packet ∈ contents id start, floor start ≤ packet.timestamp.value := by
  have hphase := hvalid.phase
  have hqueue : ∀ last, Selected last start → ∀ packet ∈ (start.streams id).queue,
      (start.streams (start.streamIds.head start.hsome)).lastSelectTimestamp.value + 1 ≤
        packet.timestamp.value := by
    intro last hselected packet hpacket
    have hlater := (hvalid.ordered id).selected (hvalid.opened id) packet hpacket
    rw [hselected, Timestamp.lt_iff] at hlater
    rw [hselected]
    omega
  intro packet hpacket
  unfold Phase at hphase
  unfold contents at hpacket
  unfold floor
  cases hscheduling : start.scheduling with
  | idle =>
      simp only [hscheduling] at hphase hpacket ⊢
      obtain ⟨last, hselected, _⟩ := hphase
      exact hqueue last hselected packet hpacket
  | reading unread minBound minPacket =>
      simp only [hscheduling] at hphase hpacket ⊢
      obtain ⟨last, hselected, _⟩ := hphase
      exact hqueue last hselected packet hpacket
  | filling unfilled inputSet =>
      simp only [hscheduling] at hphase hpacket ⊢
      obtain ⟨_, _, _, hfrom, hpast, htimed, _⟩ := hphase
      rw [← Timestamp.le_iff]
      rcases List.mem_append.mp hpacket with hrow | hwaiting
      · obtain ⟨entry, hentry, rfl⟩ := List.mem_map.mp hrow
        obtain ⟨hmem, hentry⟩ := List.mem_filter.mp hentry
        rw [Bool.and_eq_true, Option.isSome_iff_ne_none] at hentry
        exact (htimed entry hmem hentry.2).ge
      · by_cases hid : id ∈ unfilled
        · exact (hfrom id hid).2.1 packet hwaiting
        · exact ((hpast id hid).2.1 packet hwaiting).le

theorem run_sorted (hvalid : Valid start) (hrun : Transition.run step start events = some final) :
    Transition.EmitsBetween (fun inputSet : InputSet κ π => inputSet.timestamp.value)
      (Transition.log step delivered start events) (floor start) (floor final) :=
  Transition.log_sorted _ floor delivered events start final
    (fun _ event _ hvisits => step_floor event hvisits.step_eq (visits_valid hvalid hvisits)) hrun

theorem contents_later (hvalid : Valid start) (hrun : Transition.run step start events = some final)
    (id : κ) : ∀ packet ∈ contents id final, ∀ inputSet ∈ Transition.log step delivered start events,
      inputSet.timestamp < packet.timestamp := by
  intro packet hpacket inputSet hinputSet
  rw [Timestamp.lt_iff]
  exact ((run_sorted hvalid hrun).2.1 inputSet hinputSet).2.trans_le
    (floor_le_contents (run_valid hvalid hrun) id packet hpacket)

end Run

end SyncSet

end SpaceInvaders.Mediapipe

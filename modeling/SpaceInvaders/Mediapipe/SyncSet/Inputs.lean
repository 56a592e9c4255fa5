import SpaceInvaders.Mediapipe.SyncSet.Runs

namespace SpaceInvaders.Mediapipe

namespace SyncSet

variable {κ π : Type} [DecidableEq κ]

-- The time of an input set and the packets of each stream. An entry that is empty only
-- carries a bound, which depends on when it was read.
def view (inputSet : InputSet κ π) : Timestamp × (κ → List (Packet π)) :=
  (inputSet.timestamp, fun id => row id inputSet)

-- The readiness that the end of GetReadiness finds.
def Closes (set : SyncSet κ π) : Prop :=
  ∃ minBound minPacket, set.scheduling = .reading [] minBound minPacket ∧
    (readiness set.processTimestamps set.lastProcessedTs minBound minPacket).1 = .readyForClose

-- Two streams that nothing has been sent to.
def twoInputs (processTimestamps : Bool) : SyncSet Bool Unit :=
  { streamIds := [false, true]
    hsome := by decide
    hdistinct := by decide
    hcomplete := by decide
    streams := fun _ => .initialized "in" (Packet.validateAsType "unit")
    processTimestamps := processTimestamps
    lastProcessedTs := .unset
    shardIsDone := fun _ => false
    scheduling := .idle }

theorem twoInputs_rejects (processTimestamps : Bool) (id : Bool) (packet : Packet Unit)
    (hempty : packet.holder = none) :
    ((twoInputs processTimestamps).streams id).validate packet ≠ none := by
  simp [twoInputs, InputStreamManager.initialized, InputStreamManager.prepareForRun,
    Packet.validateAsType, hempty]

-- Whatever producers do meanwhile, no CHECK of the scheduling thread fails.
theorem checks_hold (set final : SyncSet κ π) (events : List (Event κ π))
    (htimed : ∀ id, (set.streams id).enableTimestamps)
    (hrejects : ∀ id packet, packet.holder = none → (set.streams id).validate packet ≠ none)
    (hrun : Transition.run step set.prepareForRun events = some final) :
    (∀ minBound minPacket, final.scheduling = .reading [] minBound minPacket →
        ∃ after, step .decide final = some after) ∧
      ∀ id unfilled inputSet, final.scheduling = .filling (id :: unfilled) inputSet →
        ∃ after, step .fill final = some after := by
  have hvalid := run_valid (prepareForRun_valid set htimed hrejects) hrun
  refine ⟨fun minBound minPacket hscheduling => ?_, fun id unfilled inputSet hscheduling => ?_⟩
  · obtain ⟨after, hafter, _⟩ := decided_valid hvalid hscheduling
    exact ⟨after, by simpa only [step, hscheduling] using hafter⟩
  · obtain ⟨after, _, hafter, _⟩ := fillStream_valid hvalid hscheduling
    exact ⟨after, by simpa only [step, hscheduling] using hafter⟩

-- The second stream gets its packet between the two reads.
theorem checks_hold_late :
    ∃ final after, Transition.run step (twoInputs false).prepareForRun
        [.addPackets false [⟨some (), .min⟩], .setNextTimestampBound true .max, .getReadiness, .read,
          .addPackets true [⟨some (), .max⟩], .read] = some final ∧ step .decide final = some after := by
  obtain ⟨final, hfinal⟩ := Option.isSome_iff_exists.mp
    (show (Transition.run step (twoInputs false).prepareForRun
        [.addPackets false [⟨some (), .min⟩], .setNextTimestampBound true .max, .getReadiness, .read,
          .addPackets true [⟨some (), .max⟩], .read]).isSome by decide +kernel)
  have hscheduling : final.scheduling = .reading [] .done .min := by
    cases hfinal
    rfl
  obtain ⟨after, hafter⟩ := (checks_hold _ _ _ (fun _ => rfl) (twoInputs_rejects false) hfinal).1 _ _
    hscheduling
  exact ⟨final, after, hfinal, hafter⟩

-- The input sets come in the order of their timestamps, and each takes from every stream
-- its packets of that time. No packet is lost, taken twice or left behind.
theorem delivers_in_order (set final : SyncSet κ π) (events : List (Event κ π))
    (htimed : ∀ id, (set.streams id).enableTimestamps)
    (hrejects : ∀ id packet, packet.holder = none → (set.streams id).validate packet ≠ none)
    (hrun : Transition.run step set.prepareForRun events = some final) :
    (Transition.log step delivered set.prepareForRun events).Pairwise
        (fun a b => a.timestamp < b.timestamp) ∧
      (∀ inputSet ∈ Transition.log step delivered set.prepareForRun events,
        Whole set.streamIds inputSet) ∧
      (∀ id, Transition.log step (gain id) set.prepareForRun events =
        (Transition.log step delivered set.prepareForRun events).flatMap (row id) ++ contents id final) ∧
      ∀ id, ∀ packet ∈ contents id final,
        ∀ inputSet ∈ Transition.log step delivered set.prepareForRun events,
          inputSet.timestamp < packet.timestamp := by
  have hvalid := prepareForRun_valid set htimed hrejects
  refine ⟨?_, ?_, fun id => ?_, contents_later hvalid hrun⟩
  · exact (run_sorted hvalid hrun).1.imp fun h => (Timestamp.lt_iff _ _).mpr h
  · exact Transition.log_forall _ delivered events _ final
      (fun _ _ _ hvisits inputSet hinputSet => (delivered_whole hvalid hvisits inputSet hinputSet).1) hrun
  · exact run_delivered_flow hvalid hrun id

-- Both streams have a packet of the same time. Then one of them has a packet alone.
theorem delivers_in_order_join :
    ∃ final, Transition.run step (twoInputs false).prepareForRun
        [.addPackets false [⟨some (), .min⟩], .addPackets true [⟨some (), .min⟩, ⟨some (), .max⟩],
          .getReadiness, .read, .read, .decide, .fill, .setNextTimestampBound false .done, .fill, .process,
          .getReadiness, .read, .read, .decide, .fill] = some final ∧
      ∀ packet ∈ contents true final, Timestamp.min < packet.timestamp := by
  obtain ⟨final, hfinal⟩ := Option.isSome_iff_exists.mp
    (show (Transition.run step (twoInputs false).prepareForRun
        [.addPackets false [⟨some (), .min⟩], .addPackets true [⟨some (), .min⟩, ⟨some (), .max⟩],
          .getReadiness, .read, .read, .decide, .fill, .setNextTimestampBound false .done, .fill, .process,
          .getReadiness, .read, .read, .decide, .fill]).isSome by decide +kernel)
  refine ⟨final, hfinal, fun packet hpacket => ?_⟩
  exact (delivers_in_order _ _ _ (fun _ => rfl) (twoInputs_rejects false) hfinal).2.2.2 true packet hpacket
    ⟨.min, [(false, ⟨some (), .min⟩), (true, ⟨some (), .min⟩)]⟩ (by decide +kernel)

section Plain

variable {set final : SyncSet κ π} {events : List (Event κ π)}

-- The input sets cut the streams at the timestamps of their packets.
theorem run_synchronised (htimed : ∀ id, (set.streams id).enableTimestamps)
    (hrejects : ∀ id packet, packet.holder = none → (set.streams id).validate packet ≠ none)
    (hplain : set.processTimestamps = false)
    (hrun : Transition.run step set.prepareForRun events = some final) :
    Merge.Synchronised Packet.timestamp
      (fun id => Transition.log step (gain id) set.prepareForRun events)
      ((Transition.log step delivered set.prepareForRun events).map view)
      (fun id => contents id final) := by
  have hvalid := prepareForRun_valid set htimed hrejects
  have hdelivered := Transition.log_forall _ delivered events _ final
    (fun _ _ _ hvisits inputSet hinputSet => delivered_whole hvalid hvisits inputSet hinputSet) hrun
  constructor
  · rw [List.pairwise_map]
    exact (run_sorted hvalid hrun).1.imp fun h => (Timestamp.lt_iff _ _).mpr h
  · intro round hround id packet hpacket
    obtain ⟨inputSet, hinputSet, rfl⟩ := List.mem_map.mp hround
    obtain ⟨entry, hentry, rfl⟩ := List.mem_map.mp hpacket
    obtain ⟨hmem, hentry⟩ := List.mem_filter.mp hentry
    rw [Bool.and_eq_true, Option.isSome_iff_ne_none] at hentry
    exact (hdelivered inputSet hinputSet).1.timed entry hmem hentry.2
  · intro round hround
    obtain ⟨inputSet, hinputSet, rfl⟩ := List.mem_map.mp hround
    obtain ⟨entry, hentry, hholder⟩ := (hdelivered inputSet hinputSet).2 hplain
    exact ⟨entry.1, List.ne_nil_of_mem (mem_row hentry hholder)⟩
  · intro id
    rw [List.flatMap_map]
    exact run_delivered_flow hvalid hrun id
  · intro id packet hpacket round hround
    obtain ⟨inputSet, hinputSet, rfl⟩ := List.mem_map.mp hround
    exact contents_later hvalid hrun id packet hpacket inputSet hinputSet

omit [DecidableEq κ] in
-- Once the end of GetReadiness finds that the node is to be closed, nothing waits and
-- nothing more can come.
theorem closes_over (hvalid : Valid set) (hcloses : set.Closes) : Over set := by
  obtain ⟨minBound, minPacket, hscheduling, hready⟩ := hcloses
  have hphase := hvalid.phase
  unfold Phase at hphase
  simp only [hscheduling] at hphase
  obtain ⟨_, _, _, hseen, _⟩ := hphase
  cases hresult : readiness set.processTimestamps set.lastProcessedTs minBound minPacket with
  | mk result rest =>
  obtain ⟨timestamp, processed⟩ := rest
  rw [hresult] at hready
  subst hready
  obtain ⟨hpacket, hbound, _⟩ := readiness_close hresult
  exact seen_over hvalid (fun id => hseen id List.not_mem_nil) hbound hpacket

theorem closes_contents (hvalid : Valid set) (hcloses : set.Closes) (id : κ) : contents id set = [] := by
  have hover := (closes_over hvalid hcloses id).1
  obtain ⟨_, _, hscheduling, _⟩ := hcloses
  simp [contents, hscheduling, hover]

end Plain

-- The same packets in one call or in two, with the other stream's before or after them.
def batched : List (Event Bool Unit) :=
  [.addPackets false [⟨some (), .min⟩, ⟨some (), .max⟩], .addPackets true [⟨some (), .max⟩],
    .setNextTimestampBound false .done, .setNextTimestampBound true .done,
    .getReadiness, .read, .read, .decide, .fill, .fill, .process,
    .getReadiness, .read, .read, .decide, .fill, .fill, .process, .getReadiness, .read, .read]

-- A node is closed only when everything that was ever accepted has been delivered, and
-- nothing is accepted from then on.
theorem closes_complete (set final last : SyncSet κ π) (events more : List (Event κ π))
    (htimed : ∀ id, (set.streams id).enableTimestamps)
    (hrejects : ∀ id packet, packet.holder = none → (set.streams id).validate packet ≠ none)
    (hrun : Transition.run step set.prepareForRun events = some final) (hcloses : final.Closes)
    (hmore : Transition.run step final more = some last) (id : κ) :
    Transition.log step (gain id) set.prepareForRun (events ++ more) =
      (Transition.log step delivered set.prepareForRun events).flatMap (row id) := by
  have hvalid := prepareForRun_valid set htimed hrejects
  have hfinal := run_valid hvalid hrun
  rw [Transition.log_append _ _ _ hrun, run_over hfinal (closes_over hfinal hcloses) hmore, List.append_nil]
  have hflow := run_delivered_flow hvalid hrun id
  rw [closes_contents hfinal hcloses, List.append_nil] at hflow
  exact hflow

-- A packet that comes when the node is being closed is refused.
theorem closes_complete_late :
    Transition.log step (gain true) (twoInputs false).prepareForRun
        (batched ++ [.addPackets true [⟨some (), .max⟩]]) =
      (Transition.log step delivered (twoInputs false).prepareForRun batched).flatMap (row true) := by
  obtain ⟨final, hfinal⟩ := Option.isSome_iff_exists.mp
    (show (Transition.run step (twoInputs false).prepareForRun batched).isSome by decide +kernel)
  have hcloses : final.Closes := by
    cases hfinal
    exact ⟨.done, .done, rfl, by decide +kernel⟩
  exact closes_complete _ final _ batched _ (fun _ => rfl) (twoInputs_rejects false) hfinal hcloses rfl true

end SyncSet

end SpaceInvaders.Mediapipe

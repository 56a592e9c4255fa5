import Mathlib.Algebra.BigOperators.Group.Finset.Basic
import Mathlib.Algebra.BigOperators.Ring.Finset
import Mathlib.Algebra.BigOperators.Group.Finset.Piecewise
import Mathlib.Data.Finset.Card
import SpaceInvaders.Mediapipe.InputStreamManager.Runs

namespace SpaceInvaders.Mediapipe

-- The nodes that feed a stream: the sources of a calculator, or the graph input
-- stream itself, which has a number behind those of the calculators.
structure Topology (κ : Type) where
  numNodes : Nat
  numGraphInputStreams : Nat
  upstream : κ → List Nat
  hdistinct : ∀ k, (upstream k).Nodup
  hbound : ∀ k, ∀ node ∈ upstream k, node < numNodes + numGraphInputStreams

-- A queue-size callback is called without the lock of its stream. It is pending until
-- UpdateThrottledNodes takes full_input_streams_mutex_ for it.
structure CalculatorGraph (κ π : Type) where
  streams : κ → InputStreamManager π
  pending : List κ
  fullInputStreams : Nat → Finset κ
  throttledGraphInputStreamCount : Int

namespace CalculatorGraph

variable {κ π : Type} [DecidableEq κ]

def isThrottled (graph : CalculatorGraph κ π) (node : Nat) : Prop := (graph.fullInputStreams node).Nonempty

instance (graph : CalculatorGraph κ π) (node : Nat) : Decidable (graph.isThrottled node) :=
  inferInstanceAs (Decidable (graph.fullInputStreams node).Nonempty)

-- The body of the loop over the upstream nodes, none where a DCHECK fails.
def updateNode (topology : Topology κ) (stream : κ) (streamIsFull : Bool) (graph : CalculatorGraph κ π)
    (node : Nat) : Option (CalculatorGraph κ π) :=
  if decide (stream ∈ graph.fullInputStreams node) = streamIsFull then none
  else
    let after := { graph with
      fullInputStreams := Function.update graph.fullInputStreams node
        (if streamIsFull then insert stream (graph.fullInputStreams node)
        else (graph.fullInputStreams node).erase stream) }
    if topology.numNodes ≤ node then
      if ¬after.isThrottled node then
        some { after with throttledGraphInputStreamCount := graph.throttledGraphInputStreamCount - 1 }
      else if ¬graph.isThrottled node then
        some { after with throttledGraphInputStreamCount := graph.throttledGraphInputStreamCount + 1 }
      else some after
    else some after

-- What a callback leaves in the stream.
def reported (manager : InputStreamManager π) : InputStreamManager π :=
  { manager with lastReportedStreamFull := manager.isFull }

@[simp] theorem reported_lastReportedStreamFull (manager : InputStreamManager π) :
    (reported manager).lastReportedStreamFull = manager.isFull := rfl

@[simp] theorem reported_isFull (manager : InputStreamManager π) :
    (reported manager).isFull = manager.isFull := rfl

-- The stream is asked again under the lock, whatever the callback was called for.
def updateThrottledNodes (topology : Topology κ) (stream : κ) (graph : CalculatorGraph κ π) :
    Option (CalculatorGraph κ π) :=
  (if (graph.streams stream).lastReportedStreamFull ≠ (graph.streams stream).isFull then
    (topology.upstream stream).foldlM
      (updateNode topology stream (graph.streams stream).isFull) graph
  else some graph).map fun after =>
    { after with
      streams := Function.update after.streams stream (reported (graph.streams stream)) }

end CalculatorGraph

namespace InputStreamManager

variable {π : Type}

-- A call tells the graph that the queue became full or not full.
def reports : Call π → InputStreamManager π → Bool
  | .addPackets container, stream => (addPackets container stream).becameFull
  | .popPacketAtTimestamp timestamp, stream =>
      (stream.popPacketAtTimestamp timestamp).any Popped.becameNotFull
  | .popQueueHead, stream => stream.popQueueHead.any Popped.becameNotFull
  | .setMaxQueueSize maxQueueSize, stream =>
      (stream.setMaxQueueSize maxQueueSize).2.1 || (stream.setMaxQueueSize maxQueueSize).2.2
  | .erasePacketsEarlierThan timestamp, stream => (stream.erasePacketsEarlierThan timestamp).2
  | _, _ => false

-- AddPackets answered with an error. It returns before it looks at the size of the queue.
def fails : Call π → InputStreamManager π → Prop
  | .addPackets container, stream => (addPackets container stream).status ≠ none
  | _, _ => False

theorem isFull_iff (stream : InputStreamManager π) :
    stream.isFull ↔
      stream.maxQueueSize ≠ -1 ∧ sizeT stream.maxQueueSize ≤ stream.queue.length := by
  simp [isFull]

-- A queue that loses packets can only stop being full.
theorem shrink_isFull (before after : InputStreamManager π)
    (hmax : after.maxQueueSize = before.maxQueueSize)
    (hlength : after.queue.length ≤ before.queue.length) :
    (before.isFull && decide (after.queue.length < sizeT before.maxQueueSize)) =
      (before.isFull != after.isFull) := by
  by_cases hbefore : before.isFull
  · have hlimit := ((isFull_iff before).mp hbefore).1
    by_cases hafter : after.isFull
    · have hle := ((isFull_iff after).mp hafter).2
      rw [hmax] at hle
      simp [hbefore, hafter, hle]
    · have hlt : after.queue.length < sizeT before.maxQueueSize := by
        rw [isFull_iff, hmax] at hafter
        exact not_le.mp fun hle => hafter ⟨hlimit, hle⟩
      simp [hbefore, hafter, hlt]
  · have hafter : ¬after.isFull := by
      rw [isFull_iff] at hbefore ⊢
      rw [hmax]
      exact fun h => hbefore ⟨h.1, h.2.trans hlength⟩
    simp [hbefore, hafter]

theorem pop_report {timestamp : Timestamp} {stream : InputStreamManager π} {popped : Popped π}
    (h : stream.popPacketAtTimestamp timestamp = some popped) :
    popped.becameNotFull =
      (stream.isFull && decide (popped.stream.queue.length < sizeT stream.maxQueueSize)) := by
  unfold popPacketAtTimestamp at h
  split at h
  · cases h
  split at h
  · cases h
  · cases h
    rfl

-- A call that does not fail reports if and only if the queue became full or not full.
theorem reports_eq (input : Call π) (before after : InputStreamManager π)
    (h : call input before = some after) (hfails : ¬fails input before) :
    reports input before = (before.isFull != after.isFull) := by
  cases input with
  | addPackets container =>
      cases h
      have hlength : before.isFull → (addPackets container before).stream.isFull := by
        rw [isFull_iff, isFull_iff, addPackets_stream, foldl_addPacket_queue,
          foldl_addPacket_maxQueueSize, List.length_append]
        exact fun hfull => ⟨hfull.1, hfull.2.trans (Nat.le_add_right _ _)⟩
      have hreport : (addPackets container before).becameFull =
          (!before.isFull && (addPackets container before).stream.isFull) := by
        have hstatus : (addPackets container before).status = none := not_not.mp hfails
        revert hstatus
        unfold addPackets
        split
        · simp
        · cases before.addEach container with
          | mk after status => cases status <;> simp
      show (addPackets container before).becameFull = _
      rw [hreport]
      cases hbefore : before.isFull with
      | true => simp [hlength hbefore]
      | false => simp
  | setNextTimestampBound bound =>
      cases h
      rcases setNextTimestampBound_cases bound before with h | ⟨_, _, h⟩ <;>
        simp [h, reports, isFull]
  | close =>
      cases h
      unfold close
      split <;> simp [reports, isFull]
  | popPacketAtTimestamp timestamp =>
      obtain ⟨popped, hpop, rfl⟩ := Option.map_eq_some_iff.mp h
      have hstream := (popPacketAtTimestamp_eq_some timestamp before popped hpop).2.2.1
      rw [reports, hpop, Option.any_some, pop_report hpop]
      apply shrink_isFull
      · rw [hstream]
      · rw [hstream]
        exact (List.dropWhile_sublist _).length_le
  | popQueueHead =>
      obtain ⟨popped, hpop, rfl⟩ := Option.map_eq_some_iff.mp h
      rw [reports, hpop, Option.any_some]
      unfold popQueueHead at hpop
      split at hpop
      · cases hpop
      · cases hpop
        exact shrink_isFull before _ rfl (List.tail_sublist _).length_le
  | setMaxQueueSize maxQueueSize =>
      cases h
      simp only [reports, setMaxQueueSize]
      cases before.isFull <;> cases isFull { before with maxQueueSize := maxQueueSize } <;> rfl
  | erasePacketsEarlierThan timestamp =>
      cases h
      exact shrink_isFull before _ rfl (List.dropWhile_sublist _).length_le

end InputStreamManager

namespace CalculatorGraph

open InputStreamManager

variable {κ π : Type} [DecidableEq κ]

inductive Event (κ π : Type) where
  | call (stream : κ) (input : Call π)
  | updateThrottledNodes (stream : κ)

-- A callback runs whenever the thread that owes it gets the lock.
def step (topology : Topology κ) : Event κ π → CalculatorGraph κ π → Option (CalculatorGraph κ π)
  | .call stream input, graph =>
      (InputStreamManager.call input (graph.streams stream)).map fun after =>
        { graph with
          streams := Function.update graph.streams stream after
          pending :=
            if reports input (graph.streams stream) then stream :: graph.pending else graph.pending }
  | .updateThrottledNodes stream, graph =>
      if stream ∈ graph.pending then
        ({ graph with pending := graph.pending.erase stream }).updateThrottledNodes topology stream
      else none

-- The count of the graph input streams that are throttled.
def throttledCount (topology : Topology κ) (graph : CalculatorGraph κ π) : Nat :=
  ((Finset.range (topology.numNodes + topology.numGraphInputStreams)).filter fun node =>
    topology.numNodes ≤ node ∧ graph.isThrottled node).card

-- The sets of full streams, the counter of the scheduler and the callbacks that are owed.
structure Consistent (topology : Topology κ) (graph : CalculatorGraph κ π) : Prop where
  listed : ∀ node stream, stream ∈ graph.fullInputStreams node ↔
    node ∈ topology.upstream stream ∧ (graph.streams stream).lastReportedStreamFull = true
  counted : graph.throttledGraphInputStreamCount = throttledCount topology graph
  owed : ∀ stream,
    (graph.streams stream).lastReportedStreamFull ≠ (graph.streams stream).isFull →
      stream ∈ graph.pending

section UpdateNode

variable (topology : Topology κ) (stream : κ) (streamIsFull : Bool)

-- A count changes by the one node at which two conditions differ.
theorem card_filter_change (count node : Nat) (before after : Nat → Prop) [DecidablePred before]
    [DecidablePred after] (hnode : node < count) (hsame : ∀ other, other ≠ node →
      (after other ↔ before other)) :
    (((Finset.range count).filter after).card : Int) =
      ((Finset.range count).filter before).card - (if before node then 1 else 0) +
        (if after node then 1 else 0) := by
  have hmem : node ∈ Finset.range count := Finset.mem_range.mpr hnode
  have hrest : ∑ other ∈ (Finset.range count).erase node, (if after other then 1 else 0) =
      ∑ other ∈ (Finset.range count).erase node, (if before other then 1 else 0) := by
    apply Finset.sum_congr rfl
    intro other hother
    exact if_congr (hsame other (Finset.ne_of_mem_erase hother)) rfl rfl
  rw [Finset.card_filter, Finset.card_filter,
    ← Finset.add_sum_erase _ (fun other => if after other then 1 else 0) hmem,
    ← Finset.add_sum_erase _ (fun other => if before other then 1 else 0) hmem, hrest]
  push_cast
  omega

-- The turn of one node: its set gains or loses the stream, and the counter follows.
theorem updateNode_spec (graph : CalculatorGraph κ π) (node : Nat)
    (hnode : node < topology.numNodes + topology.numGraphInputStreams)
    (hcount : graph.throttledGraphInputStreamCount = throttledCount topology graph)
    (hset : stream ∈ graph.fullInputStreams node ↔ streamIsFull = false) :
    ∃ after, updateNode topology stream streamIsFull graph node = some after ∧
      after.streams = graph.streams ∧ after.pending = graph.pending ∧
      after.fullInputStreams = Function.update graph.fullInputStreams node
        (if streamIsFull then insert stream (graph.fullInputStreams node)
        else (graph.fullInputStreams node).erase stream) ∧
      after.throttledGraphInputStreamCount = throttledCount topology after := by
  have hcheck : decide (stream ∈ graph.fullInputStreams node) ≠ streamIsFull := by
    cases streamIsFull <;> simp [hset]
  let sets := Function.update graph.fullInputStreams node
    (if streamIsFull then insert stream (graph.fullInputStreams node)
    else (graph.fullInputStreams node).erase stream)
  let moved : CalculatorGraph κ π := { graph with fullInputStreams := sets }
  have hchange : (throttledCount topology moved : Int) = throttledCount topology graph -
      (if topology.numNodes ≤ node ∧ graph.isThrottled node then 1 else 0) +
      (if topology.numNodes ≤ node ∧ moved.isThrottled node then 1 else 0) := by
    apply card_filter_change _ _ _ _ hnode
    intro other hother
    have hsame : moved.fullInputStreams other = graph.fullInputStreams other :=
      Function.update_of_ne hother _ _
    simp only [isThrottled, hsame]
  -- A set that has just lost the stream was not empty before.
  have hwas : ¬moved.isThrottled node → graph.isThrottled node := by
    intro hempty
    refine ⟨stream, hset.mpr ?_⟩
    cases streamIsFull with
    | false => rfl
    | true => exact absurd ⟨stream, by simp [moved, sets]⟩ hempty
  unfold updateNode
  rw [if_neg hcheck]
  by_cases hgraph : topology.numNodes ≤ node
  · rw [if_pos hgraph]
    by_cases his : moved.isThrottled node
    · by_cases hthrottled : graph.isThrottled node
      · simp only [hgraph, his, hthrottled, and_self, if_true] at hchange
        refine ⟨moved, ?_, rfl, rfl, rfl, ?_⟩
        · rw [if_neg (not_not.mpr his), if_neg (not_not.mpr hthrottled)]
        · show graph.throttledGraphInputStreamCount = _
          omega
      · simp only [hgraph, his, hthrottled, and_true, and_false, if_true, if_false] at hchange
        refine ⟨{ moved with
          throttledGraphInputStreamCount := graph.throttledGraphInputStreamCount + 1 },
          ?_, rfl, rfl, rfl, ?_⟩
        · rw [if_neg (not_not.mpr his), if_pos hthrottled]
        · show graph.throttledGraphInputStreamCount + 1 = throttledCount topology moved
          omega
    · simp only [hgraph, his, hwas his, and_true, and_false, if_true, if_false] at hchange
      refine ⟨{ moved with
        throttledGraphInputStreamCount := graph.throttledGraphInputStreamCount - 1 },
        ?_, rfl, rfl, rfl, ?_⟩
      · exact if_pos his
      · show graph.throttledGraphInputStreamCount - 1 = throttledCount topology moved
        omega
  · simp only [hgraph, false_and, if_false] at hchange
    refine ⟨moved, ?_, rfl, rfl, rfl, ?_⟩
    · exact if_neg hgraph
    · show graph.throttledGraphInputStreamCount = _
      omega

-- The loop over the nodes. Each has its turn once, so none finds its set changed already.
theorem foldlM_updateNode (nodes : List Nat) (graph : CalculatorGraph κ π) (hdistinct : nodes.Nodup)
    (hbound : ∀ node ∈ nodes, node < topology.numNodes + topology.numGraphInputStreams)
    (hcount : graph.throttledGraphInputStreamCount = throttledCount topology graph)
    (hset : ∀ node ∈ nodes, (stream ∈ graph.fullInputStreams node ↔ streamIsFull = false)) :
    ∃ after, nodes.foldlM (updateNode topology stream streamIsFull) graph = some after ∧
      after.streams = graph.streams ∧ after.pending = graph.pending ∧
      (∀ node, node ∉ nodes → after.fullInputStreams node = graph.fullInputStreams node) ∧
      (∀ node ∈ nodes, after.fullInputStreams node =
        if streamIsFull then insert stream (graph.fullInputStreams node)
        else (graph.fullInputStreams node).erase stream) ∧
      after.throttledGraphInputStreamCount = throttledCount topology after := by
  induction nodes generalizing graph with
  | nil => exact ⟨graph, rfl, rfl, rfl, fun _ _ => rfl, by simp, hcount⟩
  | cons node rest ih =>
      obtain ⟨hnew, hdistinct⟩ := List.nodup_cons.mp hdistinct
      obtain ⟨mid, hmid, hstreams, hpending, hsets, hcount'⟩ := updateNode_spec topology stream
        streamIsFull graph node (hbound node (List.mem_cons_self ..)) hcount (hset node (List.mem_cons_self ..))
      have hother : ∀ other, other ≠ node →
          mid.fullInputStreams other = graph.fullInputStreams other := by
        intro other hne
        rw [hsets, Function.update_of_ne hne]
      obtain ⟨after, hafter, hstreams', hpending', hout, hin, hcount''⟩ := ih mid hdistinct
        (fun other hmem => hbound other (List.mem_cons_of_mem _ hmem)) hcount' (by
          intro other hmem
          rw [hother other (fun h => hnew (h ▸ hmem))]
          exact hset other (List.mem_cons_of_mem _ hmem))
      refine ⟨after, ?_, hstreams'.trans hstreams, hpending'.trans hpending, ?_, ?_, hcount''⟩
      · rw [List.foldlM_cons, hmid]
        exact hafter
      · intro other hmem
        obtain ⟨hne, hmem⟩ := not_or.mp (List.mem_cons.not.mp hmem)
        rw [hout other hmem, hother other hne]
      · intro other hmem
        cases List.mem_cons.mp hmem with
        | inl h =>
            subst h
            rw [hout other hnew, hsets, Function.update_self]
        | inr h => rw [hin other h, hother other (fun heq => hnew (heq ▸ h))]

end UpdateNode

variable (topology : Topology κ)

-- The update of a stream never fails a DCHECK, and its report is true afterwards.
theorem updateThrottledNodes_spec (stream : κ) (graph : CalculatorGraph κ π)
    (hlisted : ∀ node other, other ∈ graph.fullInputStreams node ↔
      node ∈ topology.upstream other ∧ (graph.streams other).lastReportedStreamFull = true)
    (hcount : graph.throttledGraphInputStreamCount = throttledCount topology graph) :
    ∃ after, updateThrottledNodes topology stream graph = some after ∧
      after.streams = Function.update graph.streams stream (reported (graph.streams stream)) ∧
      after.pending = graph.pending ∧
      (∀ node other, other ∈ after.fullInputStreams node ↔
        node ∈ topology.upstream other ∧ (after.streams other).lastReportedStreamFull = true) ∧
      after.throttledGraphInputStreamCount = throttledCount topology after := by
  unfold updateThrottledNodes
  by_cases hchange : (graph.streams stream).lastReportedStreamFull ≠ (graph.streams stream).isFull
  · obtain ⟨after, hafter, hstreams, hpending, hout, hin, hcount'⟩ :=
      foldlM_updateNode topology stream (graph.streams stream).isFull (topology.upstream stream) graph
        (topology.hdistinct stream) (topology.hbound stream) hcount (by
          intro node hnode
          rw [hlisted]
          cases hreported : (graph.streams stream).lastReportedStreamFull <;>
            cases hfull : (graph.streams stream).isFull <;> simp_all)
    refine ⟨{ after with
      streams := Function.update graph.streams stream (reported (graph.streams stream)) },
      ?_, rfl, hpending, fun node other => ?_, hcount'⟩
    · rw [if_pos hchange, hafter, Option.map_some, hstreams]
    show other ∈ after.fullInputStreams node ↔ _
    by_cases hother : other = stream
    · subst hother
      simp only [Function.update_self]
      by_cases hnode : node ∈ topology.upstream other
      · rw [hin node hnode]
        cases hfull : (graph.streams other).isFull <;> simp [hnode, hfull]
      · rw [hout node hnode, hlisted]
        simp [hnode]
    · simp only [Function.update_of_ne hother]
      rw [← hlisted]
      by_cases hnode : node ∈ topology.upstream stream
      · rw [hin node hnode]
        cases (graph.streams stream).isFull <;> simp [hother]
      · rw [hout node hnode]
  · have hequal : (graph.streams stream).lastReportedStreamFull = (graph.streams stream).isFull :=
      not_not.mp hchange
    have hsame : Function.update graph.streams stream (reported (graph.streams stream)) =
        graph.streams := by
      rw [reported, ← hequal]
      exact Function.update_eq_self stream graph.streams
    refine ⟨graph, ?_, hsame.symm, rfl, hlisted, hcount⟩
    rw [if_neg hchange, Option.map_some, hsame]

theorem step_consistent (event : Event κ π) (before after : CalculatorGraph κ π)
    (h : step topology event before = some after)
    (hfails : ∀ stream input, event = .call stream input → ¬fails input (before.streams stream))
    (hconsistent : Consistent topology before) : Consistent topology after := by
  cases event with
  | call stream input =>
      obtain ⟨manager, hcall, rfl⟩ := Option.map_eq_some_iff.mp h
      have hreports := reports_eq input _ manager hcall (hfails stream input rfl)
      have hframe := (call_frame input _ manager hcall).2.2.2
      constructor
      · intro node other
        rw [hconsistent.listed]
        by_cases hother : other = stream
        · subst hother
          simp only [Function.update_self, hframe]
        · simp only [Function.update_of_ne hother]
      · exact hconsistent.counted
      · intro other hchange
        show other ∈ if _ then _ else _
        by_cases hother : other = stream
        · subst hother
          simp only [Function.update_self, hframe] at hchange
          by_cases howed : other ∈ before.pending
          · split
            · exact List.mem_cons_of_mem _ howed
            · exact howed
          · -- What was reported was true, so the call itself has changed it.
            have hequal := not_not.mp fun hne => howed (hconsistent.owed other hne)
            rw [hequal] at hchange
            rw [if_pos (by rw [hreports]; simpa using hchange)]
            exact List.mem_cons_self ..
        · simp only [Function.update_of_ne hother] at hchange
          have howed := hconsistent.owed other hchange
          split
          · exact List.mem_cons_of_mem _ howed
          · exact howed
  | updateThrottledNodes stream =>
      have hstep : step topology (.updateThrottledNodes stream) before =
          if stream ∈ before.pending then
            updateThrottledNodes topology stream { before with pending := before.pending.erase stream }
          else none := rfl
      rw [hstep] at h
      split at h
      · obtain ⟨found, hfound, hstreams, hpending, hlisted, hcounted⟩ :=
          updateThrottledNodes_spec topology stream
            { before with pending := before.pending.erase stream } hconsistent.listed hconsistent.counted
        cases hfound.symm.trans h
        refine ⟨hlisted, hcounted, fun other hchange => ?_⟩
        rw [hpending]
        show other ∈ before.pending.erase stream
        by_cases hother : other = stream
        · subst hother
          rw [hstreams, Function.update_self] at hchange
          exact absurd rfl hchange
        · rw [hstreams, Function.update_of_ne hother] at hchange
          exact (List.mem_erase_of_ne hother).mpr (hconsistent.owed other hchange)
      · cases h

-- Callbacks may come late and in any order. The DCHECKs hold, the counter of the
-- scheduler is right at every moment, and once no callback is owed the nodes that
-- are throttled are those above a full stream.
theorem throttling_exact (topology : Topology κ) (start final : CalculatorGraph κ π)
    (events : List (Event κ π)) (hsets : ∀ node, start.fullInputStreams node = ∅)
    (hcount : start.throttledGraphInputStreamCount = 0)
    (hstreams : ∀ stream, (start.streams stream).lastReportedStreamFull = false ∧
      (start.streams stream).isFull = false)
    (hrun : Transition.run (step topology) start events = some final)
    (hfails : ∀ before stream input after,
      Transition.Visits (step topology) start events before (.call stream input) after →
        ¬fails input (before.streams stream)) :
    (∀ stream ∈ final.pending, ∃ after, step topology (.updateThrottledNodes stream) final = some after) ∧
      final.throttledGraphInputStreamCount = throttledCount topology final ∧
      (final.pending = [] → ∀ node, final.isThrottled node ↔
        ∃ stream, node ∈ topology.upstream stream ∧ (final.streams stream).isFull) := by
  have hstart : Consistent topology start := by
    refine ⟨?_, ?_, ?_⟩
    · intro node stream
      simp [hsets, (hstreams stream).1]
    · rw [hcount]
      simp [throttledCount, isThrottled, hsets]
    · intro stream hchange
      rw [(hstreams stream).1, (hstreams stream).2] at hchange
      exact absurd rfl hchange
  have hfinal : Consistent topology final :=
    Transition.run_invariant (Consistent topology) events start final
      (fun before event after hvisits hbefore => step_consistent topology event before after hvisits.step_eq
        (fun stream input hevent => hfails before stream input after (hevent ▸ hvisits)) hbefore)
      hstart hrun
  refine ⟨fun stream hpending => ?_, hfinal.counted, fun hquiet node => ?_⟩
  · obtain ⟨after, hafter, _⟩ := updateThrottledNodes_spec topology stream
      { final with pending := final.pending.erase stream } hfinal.listed hfinal.counted
    exact ⟨after, (if_pos hpending).trans hafter⟩
  · have htrue : ∀ stream,
        (final.streams stream).lastReportedStreamFull = (final.streams stream).isFull := by
      intro stream
      apply not_not.mp
      intro hchange
      have howed := hfinal.owed stream hchange
      rw [hquiet] at howed
      exact absurd howed List.not_mem_nil
    constructor
    · rintro ⟨stream, hstream⟩
      obtain ⟨hnode, hreported⟩ := (hfinal.listed node stream).mp hstream
      exact ⟨stream, hnode, (htrue stream).symm.trans hreported⟩
    · rintro ⟨stream, hnode, hfull⟩
      exact ⟨stream, (hfinal.listed node stream).mpr ⟨hnode, (htrue stream).trans hfull⟩⟩

-- A graph input stream that two nodes read, each from a queue of one packet.
def twoReaders : Topology Bool where
  numNodes := 0
  numGraphInputStreams := 1
  upstream := fun _ => [0]
  hdistinct := by simp
  hbound := by simp

def unthrottled : CalculatorGraph Bool Unit :=
  { streams := fun _ => { initialized "in" fun _ => none with maxQueueSize := 1 }
    pending := []
    fullInputStreams := fun _ => ∅
    throttledGraphInputStreamCount := 0 }

-- Both queues become full, and the first one is read before its callback comes. The callback
-- of the second one overtakes the two of the first.
def lateCallbacks : List (Event Bool Unit) :=
  [.call true (.addPackets [⟨some (), .min⟩]), .call false (.addPackets [⟨some (), .min⟩]),
    .call true (.popPacketAtTimestamp .min), .updateThrottledNodes false, .updateThrottledNodes true,
    .updateThrottledNodes true]

-- The answers of AddPackets.
def answers (event : Event Bool Unit) (graph : CalculatorGraph Bool Unit) : List Status :=
  match event with
  | .call stream (.addPackets container) => (addPackets container (graph.streams stream)).status.toList
  | _ => []

theorem throttling_exact_late :
    ∃ final, Transition.run (step twoReaders) unthrottled lateCallbacks = some final ∧
      final.pending = [] ∧ final.isThrottled 0 ∧
      final.throttledGraphInputStreamCount = throttledCount twoReaders final ∧
      ∀ node, final.isThrottled node ↔
        ∃ stream, node ∈ twoReaders.upstream stream ∧ (final.streams stream).isFull := by
  obtain ⟨final, hfinal, hstate⟩ := Option.map_eq_some_iff.mp
    (show (Transition.run (step twoReaders) unthrottled lateCallbacks).map
      (fun final => (final.pending, decide (final.isThrottled 0))) = some ([], true) by decide +kernel)
  obtain ⟨hquiet, hthrottled⟩ := Prod.mk.inj hstate
  have hanswers : Transition.log (step twoReaders) answers unthrottled lateCallbacks = [] := by
    decide +kernel
  have hexact := throttling_exact twoReaders unthrottled final lateCallbacks (fun _ => rfl) rfl
    (fun _ => ⟨rfl, rfl⟩) hfinal ?_
  · exact ⟨final, hfinal, hquiet, of_decide_eq_true hthrottled, hexact.2.1, hexact.2.2 hquiet⟩
  rintro before stream input after hvisits hfails
  cases input with
  | addPackets container =>
      obtain ⟨status, hstatus⟩ := Option.ne_none_iff_exists'.mp hfails
      have hanswer : status ∈ answers (.call stream (.addPackets container)) before := by
        simp [answers, hstatus]
      have hlogged := hvisits.mem_log answers hanswer
      rw [hanswers] at hlogged
      cases hlogged
  | _ => exact hfails

end CalculatorGraph

end SpaceInvaders.Mediapipe

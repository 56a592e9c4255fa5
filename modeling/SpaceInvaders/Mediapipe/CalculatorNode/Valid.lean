import SpaceInvaders.Mediapipe.CalculatorNode.Calls

namespace SpaceInvaders.Mediapipe

namespace OutputStreamHandler

variable {ω : Type} {handler after : OutputStreamHandler ω} {timestamp : Timestamp}

theorem prepare_frame (hvalid : handler.Valid)
    (h : step (.prepareCalculatorContext timestamp) handler = some after) :
    after.reached = invocationPlace timestamp + 1 ∧ after.runs timestamp = true ∧
      ∀ other, handler.runs other = true → after.runs other = true := by
  obtain ⟨_, _, rfl⟩ := step_prepareCalculatorContext hvalid h
  refine ⟨rfl, by simp [runs], fun other hruns => ?_⟩
  unfold runs at hruns ⊢
  rw [List.any_append, hruns, Bool.true_or]

theorem update_frame (h : step (.updateTaskTimestampBound timestamp) handler = some after) :
    after.reached = boundPlace timestamp ∧ ∀ other, handler.runs other = true → after.runs other = true := by
  obtain ⟨_, ⟨_, rfl⟩ | ⟨_, hnote⟩⟩ := step_updateTaskTimestampBound h
  · exact ⟨rfl, fun _ hruns => hruns⟩
  · obtain ⟨hcontexts, _, _, hreached, _⟩ := notePropagation_frame hnote
    refine ⟨hreached, fun other hruns => ?_⟩
    unfold runs at hruns ⊢
    rwa [hcontexts]

theorem post_frame {outputs : ω} (h : step (.postProcess timestamp outputs) handler = some after) :
    after.reached = handler.reached ∧
      ∀ other, other ≠ timestamp → handler.runs other = true → after.runs other = true := by
  obtain ⟨_, hnote⟩ := step_postProcess h
  obtain ⟨hcontexts, _, _, hreached, _⟩ := notePropagation_frame hnote
  refine ⟨hreached, fun other hother hruns => ?_⟩
  obtain ⟨context, hcontext, hboth⟩ := List.any_eq_true.mp hruns
  simp only [Bool.and_eq_true, decide_eq_true_eq] at hboth
  refine List.any_eq_true.mpr ⟨context, ?_, by simpa using hboth⟩
  rw [hcontexts]
  refine List.mem_map.mpr ⟨context, hcontext, if_neg ?_⟩
  rw [hboth.1]
  exact hother

-- A context whose calculator runs is not the one that is taken away.
theorem turn_frame {event : Event ω} (hvalid : handler.Valid) (hturn : handler.turn = some event)
    (h : step event handler = some after) :
    after.reached = handler.reached ∧ ∀ other, handler.runs other = true → after.runs other = true := by
  have hphase := hvalid.phase
  unfold Phase at hphase
  rcases turn_cases hturn with rfl | rfl | rfl | rfl | rfl
  · obtain ⟨_, _, rfl⟩ := step_propagateOutputPackets h
    exact ⟨rfl, fun _ hruns => hruns⟩
  · obtain ⟨contextTimestamp, hthread, rfl⟩ := step_recycleCalculatorContext h
    simp only [hthread] at hphase
    refine ⟨rfl, fun other hruns => ?_⟩
    obtain ⟨context, contexts, hcontexts, rfl⟩ := hphase.split
    have hsome : context.outputs.isSome :=
      (hvalid.kept.outputs context (by simp [hcontexts])).mpr (List.mem_of_mem_head? hphase.completed)
    unfold runs at hruns ⊢
    rw [hcontexts, List.any_cons] at hruns
    rw [hcontexts, List.tail_cons]
    cases houtputs : context.outputs with
    | none => simp [houtputs] at hsome
    | some outputs => simpa [houtputs] using hruns
  · obtain ⟨_, hthread, hafter⟩ := step_lock h
    simp only [hthread] at hphase
    obtain ⟨rest, _, _, ⟨_, _, hsome⟩ | ⟨_, _, hsome⟩ | ⟨_, _, _, ⟨_, hsome⟩ | ⟨_, hsome⟩⟩⟩ :=
      afterPackets_cases hphase
    all_goals
      cases hsome.symm.trans hafter
      exact ⟨rfl, fun _ hruns => hruns⟩
  · obtain ⟨_, _, rfl⟩ := step_tryPropagateTimestampBound h
    exact ⟨rfl, fun _ hruns => hruns⟩
  · obtain ⟨_, hthread, hafter⟩ := step_relock h
    simp only [hthread] at hphase
    rcases afterBound_cases hphase with ⟨_, _, _, hsome⟩ | ⟨_, _, _, hsome⟩ |
      ⟨_, _, _, _, ⟨_, hsome⟩ | ⟨_, hsome⟩⟩
    all_goals
      cases hsome.symm.trans hafter
      exact ⟨rfl, fun _ hruns => hruns⟩

end OutputStreamHandler

namespace CalculatorNode

open SyncSet OutputStreamHandler

variable {κ π ω : Type} [DecidableEq κ] {process : Timestamp × (κ → List (Packet π)) → ω}
  {node after : CalculatorNode κ π ω}

theorem step_cases {event : Event κ π} (h : step process event node = some after) :
    ∃ advanced inputs outputs, advance event node = some advanced ∧
      Transition.run SyncSet.step node.inputs (node.inputCalls event) = some inputs ∧
      Transition.run OutputStreamHandler.step node.outputs (node.outputCalls process event) =
        some outputs ∧
      after = { advanced with inputs := inputs, outputs := outputs } := by
  unfold step at h
  split at h
  · next inputs outputs advanced hinputs houtputs hadvanced =>
    exact ⟨advanced, inputs, outputs, hadvanced, hinputs, houtputs, (Option.some.inj h).symm⟩
  · cases h

theorem step_of {event : Event κ π} {advanced : CalculatorNode κ π ω} {inputs : SyncSet κ π}
    {outputs : OutputStreamHandler ω} (hadvanced : advance event node = some advanced)
    (hinputs : Transition.run SyncSet.step node.inputs (node.inputCalls event) = some inputs)
    (houtputs : Transition.run OutputStreamHandler.step node.outputs (node.outputCalls process event) =
      some outputs) :
    step process event node = some { advanced with inputs := inputs, outputs := outputs } := by
  unfold step
  simp only [hinputs, houtputs, hadvanced]

omit [DecidableEq κ] in
theorem unchanged (hinputs : after.inputs = node.inputs) (houtputs : after.outputs = node.outputs) :
    { after with inputs := node.inputs, outputs := node.outputs } = after := by
  rw [← hinputs, ← houtputs]

def Thread (node : CalculatorNode κ π ω) : Prop :=
  match node.schedulingThread with
  | .scheduling allowance => allowance + node.currentInFlight ≤ node.maxInFlight ∧
      (node.inputs.scheduling ≠ .idle → 0 < allowance) ∧ Timed node.outputs.reached node.inputs ∧
      ∀ unfilled inputSet, node.inputs.scheduling = .filling unfilled inputSet →
        node.outputs.runs inputSet.timestamp = true ∧
        ∀ other ∈ node.scheduled, other.timestamp < inputSet.timestamp
  | .updating inputBound => node.inputs.scheduling = .idle ∧
      node.outputs.reached ≤ boundPlace inputBound ∧ Timed (boundPlace inputBound) node.inputs
  | _ => node.inputs.scheduling = .idle ∧ Timed node.outputs.reached node.inputs

structure Valid (node : CalculatorNode κ π ω) : Prop where
  inputs : node.inputs.Valid
  outputs : node.outputs.Valid
  plain : node.inputs.processTimestamps = false
  counted : node.currentInFlight = node.scheduled.length + node.ending
  bounded : node.currentInFlight ≤ node.maxInFlight
  ascending : node.scheduled.Pairwise (·.timestamp < ·.timestamp)
  running : ∀ inputSet ∈ node.scheduled, node.outputs.runs inputSet.timestamp = true
  absent : node.schedulingThread = .absent ↔ node.schedulingState = .idle
  thread : node.Thread

omit [DecidableEq κ] in
theorem opened_valid (inputs : SyncSet κ π) (maxInFlight : Nat)
    (htimed : ∀ id, (inputs.streams id).enableTimestamps)
    (hrejects : ∀ id packet, packet.holder = none → (inputs.streams id).validate packet ≠ none)
    (hplain : inputs.processTimestamps = false) :
    (opened inputs maxInFlight : CalculatorNode κ π ω).Valid where
  inputs := SyncSet.prepareForRun_valid inputs htimed hrejects
  outputs := OutputStreamHandler.prepareForRun_valid
  plain := hplain
  counted := rfl
  bounded := Nat.zero_le _
  ascending := List.Pairwise.nil
  running := fun _ hmem => absurd hmem List.not_mem_nil
  absent := ⟨fun _ => rfl, fun _ => rfl⟩
  thread := ⟨rfl, prepareForRun_timed inputs⟩

-- The calls of producers leave the scheduling thread right.
theorem Thread.produce {inputs : SyncSet κ π} (event : SyncSet.Event κ π) (hvalid : node.inputs.Valid)
    (h : SyncSet.step event node.inputs = some inputs) (hsame : inputs.scheduling = node.inputs.scheduling)
    (hne : event ≠ .decide) (hthread : node.Thread) : Thread { node with inputs := inputs } := by
  have htimed : ∀ place, Timed place node.inputs → Timed place inputs := fun place htimed =>
    step_timed event h hvalid (fun _ _ heq => absurd heq hne) htimed
  unfold Thread at hthread ⊢
  cases hscheduling : node.schedulingThread with
  | scheduling allowance =>
      simp only [hscheduling] at hthread ⊢
      rw [hsame]
      exact ⟨hthread.1, hthread.2.1, htimed _ hthread.2.2.1, hthread.2.2.2⟩
  | updating inputBound =>
      simp only [hscheduling] at hthread ⊢
      exact ⟨hsame.trans hthread.1, hthread.2.1, htimed _ hthread.2.2⟩
  | _ =>
      simp only [hscheduling] at hthread ⊢
      exact ⟨hsame.trans hthread.1, htimed _ hthread.2⟩

theorem Valid.changed {inputs : SyncSet κ π} (added : InputStreamManager.Added π) (event : SyncSet.Event κ π)
    (hvalid : node.Valid) (h : SyncSet.step event node.inputs = some inputs)
    (hsame : inputs.scheduling = node.inputs.scheduling) (hne : event ≠ .decide) :
    Valid { changed added node with inputs := inputs } where
  inputs := SyncSet.step_valid event h hvalid.inputs
  outputs := hvalid.outputs
  plain := (step_frame event h).2.trans hvalid.plain
  counted := hvalid.counted
  bounded := hvalid.bounded
  ascending := hvalid.ascending
  running := hvalid.running
  absent := hvalid.absent
  thread := (hvalid.thread.produce event hvalid.inputs h hsame hne :)

omit [DecidableEq κ] in
-- What only changes the counters and the state of the scheduling.
theorem Valid.control (hvalid : node.Valid) (state : SchedulingState) (ending notifying currentInFlight : Nat)
    (hstate : state = .idle ↔ node.schedulingState = .idle)
    (hcounted : currentInFlight = node.scheduled.length + ending)
    (hbounded : currentInFlight ≤ node.currentInFlight) :
    Valid { node with
      schedulingState := state
      ending := ending
      notifying := notifying
      currentInFlight := currentInFlight } := by
  refine ⟨hvalid.inputs, hvalid.outputs, hvalid.plain, hcounted, hbounded.trans hvalid.bounded,
    hvalid.ascending, hvalid.running, hvalid.absent.trans hstate.symm, ?_⟩
  have hthread := hvalid.thread
  unfold Thread at hthread ⊢
  cases hscheduling : node.schedulingThread with
  | scheduling allowance =>
      simp only [hscheduling] at hthread ⊢
      exact ⟨by omega, hthread.2⟩
  | _ => simpa only [hscheduling] using hthread

omit [DecidableEq κ] in
theorem Valid.failed (hvalid : node.Valid) : Valid { node with hasError := true } :=
  ⟨hvalid.inputs, hvalid.outputs, hvalid.plain, hvalid.counted, hvalid.bounded, hvalid.ascending,
    hvalid.running, hvalid.absent, hvalid.thread⟩

omit [DecidableEq κ] in
-- A thread becomes the scheduling thread.
theorem Valid.enter (hvalid : node.Valid) (hidle : node.schedulingState = .idle)
    (ending notifying currentInFlight : Nat) (hcounted : currentInFlight = node.scheduled.length + ending)
    (hbounded : currentInFlight ≤ node.currentInFlight) :
    Valid { node with
      schedulingState := .scheduling
      schedulingThread := .entering
      ending := ending
      notifying := notifying
      currentInFlight := currentInFlight } := by
  refine ⟨hvalid.inputs, hvalid.outputs, hvalid.plain, hcounted, hbounded.trans hvalid.bounded,
    hvalid.ascending, hvalid.running, by simp, ?_⟩
  have hthread := hvalid.thread
  unfold Thread at hthread
  simp only [hvalid.absent.mpr hidle] at hthread
  exact hthread

omit [DecidableEq κ] in
theorem checkIfBecameReady_frame (node : CalculatorNode κ π ω) :
    (checkIfBecameReady node).inputs = node.inputs ∧ (checkIfBecameReady node).outputs = node.outputs ∧
      (checkIfBecameReady node).scheduled = node.scheduled := by
  unfold checkIfBecameReady
  split
  · exact ⟨rfl, rfl, rfl⟩
  split <;> exact ⟨rfl, rfl, rfl⟩

omit [DecidableEq κ] in
theorem notify_valid (hvalid : node.Valid) (notifying : Nat) :
    (checkIfBecameReady { node with notifying := notifying }).Valid := by
  unfold checkIfBecameReady
  split
  · next h => exact hvalid.enter h.1 node.ending notifying node.currentInFlight hvalid.counted le_rfl
  split
  · next _ h =>
    exact hvalid.control .schedulingPending node.ending notifying node.currentInFlight
      (by simp [show node.schedulingState = .scheduling from h]) hvalid.counted le_rfl
  · exact hvalid.control node.schedulingState node.ending notifying node.currentInFlight Iff.rfl
      hvalid.counted le_rfl

omit [DecidableEq κ] in
-- The counter is that of the invocations that have not ended, so that it is not zero.
theorem endScheduling_valid (hvalid : node.Valid) (hending : node.ending ≠ 0) :
    ∃ after, endScheduling { node with ending := node.ending - 1 } = some after ∧ after.Valid ∧
      after.inputs = node.inputs ∧ after.outputs = node.outputs := by
  have hcounted := hvalid.counted
  have hpositive : node.currentInFlight ≠ 0 := by omega
  unfold endScheduling
  rw [if_neg (show ({ node with ending := node.ending - 1 } : CalculatorNode κ π ω).currentInFlight ≠ 0
    from hpositive)]
  cases hstate : node.schedulingState with
  | scheduling =>
      exact ⟨_, rfl, hvalid.control .schedulingPending (node.ending - 1) node.notifying
        (node.currentInFlight - 1) (by simp [hstate])
        (by omega) (Nat.sub_le _ _), rfl, rfl⟩
  | schedulingPending =>
      exact ⟨_, rfl, hvalid.control .schedulingPending (node.ending - 1) node.notifying
        (node.currentInFlight - 1) (by simp [hstate])
        (by omega) (Nat.sub_le _ _), rfl, rfl⟩
  | idle =>
      exact ⟨_, rfl, hvalid.enter hstate (node.ending - 1) node.notifying (node.currentInFlight - 1)
        (by omega) (Nat.sub_le _ _), rfl, rfl⟩

omit [DecidableEq κ] in
-- An invocation that has returned is taken from the list once.
theorem length_filter_timestamp (timestamp : Timestamp) (scheduled : List (InputSet κ π))
    (hascending : scheduled.Pairwise (·.timestamp < ·.timestamp))
    (hmem : ∃ inputSet ∈ scheduled, inputSet.timestamp = timestamp) :
    (scheduled.filter (·.timestamp ≠ timestamp)).length + 1 = scheduled.length := by
  induction scheduled with
  | nil => simp at hmem
  | cons first rest ih =>
      rw [List.pairwise_cons] at hascending
      by_cases heq : first.timestamp = timestamp
      · rw [List.filter_cons_of_neg (by simp [heq]), List.filter_eq_self.mpr, List.length_cons]
        intro other hother
        simpa using (heq ▸ hascending.1 other hother).ne'
      · rw [List.filter_cons_of_pos (by simpa using heq), List.length_cons, List.length_cons,
          ih hascending.2]
        obtain ⟨inputSet, hinputSet, htimestamp⟩ := hmem
        rcases List.mem_cons.mp hinputSet with rfl | hrest
        · exact absurd htimestamp heq
        · exact ⟨inputSet, hrest, htimestamp⟩

theorem postProcess_valid (hvalid : node.Valid) (inputSet : InputSet κ π)
    (hmem : inputSet ∈ node.scheduled) :
    ∃ after, step process (.postProcess inputSet.timestamp) node = some after ∧ after.Valid := by
  have hany : node.scheduled.any (·.timestamp = inputSet.timestamp) = true :=
    List.any_eq_true.mpr ⟨inputSet, hmem, by simp⟩
  obtain ⟨found, hfound⟩ := Option.isSome_iff_exists.mp
    (List.find?_isSome.mpr ⟨inputSet, hmem, by simp⟩ :
      (node.scheduled.find? (·.timestamp = inputSet.timestamp)).isSome)
  obtain ⟨outputs, houtputs⟩ := post_isSome (process (SyncSet.view found)) hvalid.outputs
    (hvalid.running inputSet hmem)
  have houtputs' := post_valid hvalid.outputs houtputs
  obtain ⟨hreached, hruns⟩ := post_frame houtputs
  have hcalls : Transition.run OutputStreamHandler.step node.outputs
      (node.outputCalls process (.postProcess inputSet.timestamp)) = some outputs := by
    simp only [outputCalls, hfound]
    exact Transition.run_single houtputs
  refine ⟨_, step_of (if_pos hany) rfl hcalls, ?_⟩
  have hlength := length_filter_timestamp inputSet.timestamp node.scheduled hvalid.ascending
    ⟨inputSet, hmem, rfl⟩
  have hcounted := hvalid.counted
  refine ⟨hvalid.inputs, houtputs', hvalid.plain, by simp only; omega, hvalid.bounded,
    hvalid.ascending.filter _, fun other hother => ?_, hvalid.absent, ?_⟩
  · obtain ⟨hin, hne⟩ := List.mem_filter.mp hother
    exact hruns other.timestamp (by simpa using hne) (hvalid.running other hin)
  · have hthread := hvalid.thread
    unfold Thread at hthread ⊢
    cases hscheduling : node.schedulingThread with
    | scheduling allowance =>
        simp only [hscheduling, hreached] at hthread ⊢
        obtain ⟨hallowance, hpositive, htimed, hfilling⟩ := hthread
        refine ⟨hallowance, hpositive, htimed, fun unfilled current hcurrent => ?_⟩
        obtain ⟨hrun, hbefore⟩ := hfilling unfilled current hcurrent
        exact ⟨hruns _ (hbefore inputSet hmem).ne' hrun,
          fun other hother => hbefore other (List.mem_of_mem_filter hother)⟩
    | updating inputBound =>
        simp only [hscheduling, hreached] at hthread ⊢
        exact hthread
    | _ =>
        simp only [hscheduling, hreached] at hthread ⊢
        exact hthread

omit [DecidableEq κ] in
-- What the propagation thread does, and what else only changes the outputs.
theorem Valid.outputsChange {outputs : OutputStreamHandler ω} (hvalid : node.Valid)
    (houtputs : outputs.Valid) (hreached : outputs.reached = node.outputs.reached)
    (hruns : ∀ timestamp, node.outputs.runs timestamp = true → outputs.runs timestamp = true) :
    Valid { node with outputs := outputs } := by
  refine ⟨hvalid.inputs, houtputs, hvalid.plain, hvalid.counted, hvalid.bounded, hvalid.ascending,
    fun inputSet hmem => hruns _ (hvalid.running inputSet hmem), hvalid.absent, ?_⟩
  have hthread := hvalid.thread
  unfold Thread at hthread ⊢
  cases hscheduling : node.schedulingThread with
  | scheduling allowance =>
      simp only [hscheduling, hreached] at hthread ⊢
      exact ⟨hthread.1, hthread.2.1, hthread.2.2.1, fun unfilled inputSet hfilling =>
        ⟨hruns _ (hthread.2.2.2 unfilled inputSet hfilling).1,
          (hthread.2.2.2 unfilled inputSet hfilling).2⟩⟩
  | _ =>
      simp only [hscheduling, hreached] at hthread ⊢
      exact hthread

theorem propagate_valid (hvalid : node.Valid) (hpresent : node.outputs.thread ≠ .absent) :
    ∃ after, step process .propagate node = some after ∧ after.Valid := by
  obtain ⟨event, hturn⟩ : ∃ event, node.outputs.turn = some event := by
    unfold turn
    cases hthread : node.outputs.thread with
    | absent => exact absurd hthread hpresent
    | _ => exact ⟨_, rfl⟩
  obtain ⟨outputs, houtputs, _⟩ := step_turn hvalid.outputs hturn
  obtain ⟨hreached, hruns⟩ := turn_frame hvalid.outputs hturn houtputs
  have hcalls : Transition.run OutputStreamHandler.step node.outputs
      (node.outputCalls process .propagate) = some outputs := by
    simp only [outputCalls, hturn]
    exact Transition.run_single houtputs
  exact ⟨_, step_of (if_neg hpresent) rfl hcalls,
    hvalid.outputsChange (OutputStreamHandler.step_valid event houtputs hvalid.outputs) hreached hruns⟩

end CalculatorNode

end SpaceInvaders.Mediapipe

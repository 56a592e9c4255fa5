import SpaceInvaders.Mediapipe.CalculatorNode.Schedule

namespace SpaceInvaders.Mediapipe

namespace CalculatorNode

open SyncSet OutputStreamHandler

variable {κ π ω : Type} [DecidableEq κ] {process : Timestamp × (κ → List (Packet π)) → ω}
  {node after : CalculatorNode κ π ω}

-- Everything that a step can do.
inductive Moves (process : Timestamp × (κ → List (Packet π)) → ω) (node : CalculatorNode κ π ω) :
    Event κ π → CalculatorNode κ π ω → Prop where
  | addPackets (id : κ) (container : List (Packet π)) :
      Moves process node (.addPackets id container)
        { changed ((node.inputs.streams id).addPackets container) node with
          inputs := { node.inputs with
            streams := Function.update node.inputs.streams id
              ((node.inputs.streams id).addPackets container).stream } }
  | setNextTimestampBound (id : κ) (bound : Timestamp) :
      Moves process node (.setNextTimestampBound id bound)
        { changed ((node.inputs.streams id).setNextTimestampBound bound) node with
          inputs := { node.inputs with
            streams := Function.update node.inputs.streams id
              ((node.inputs.streams id).setNextTimestampBound bound).stream } }
  | notifyStarts (hnotifying : node.notifying ≠ 0) (hidle : node.schedulingState = .idle)
      (hfree : node.currentInFlight < node.maxInFlight) :
      Moves process node .notify { node with
        notifying := node.notifying - 1
        schedulingState := .scheduling
        schedulingThread := .entering }
  | notifyNotes (hnotifying : node.notifying ≠ 0) (hstate : node.schedulingState = .scheduling) :
      Moves process node .notify
        { node with notifying := node.notifying - 1, schedulingState := .schedulingPending }
  | notifyNothing (hnotifying : node.notifying ≠ 0)
      (hstate : node.schedulingState = .schedulingPending ∨
        node.schedulingState = .idle ∧ node.maxInFlight ≤ node.currentInFlight) :
      Moves process node .notify { node with notifying := node.notifying - 1 }
  | enters (hthread : node.schedulingThread = .entering) :
      Moves process node .schedule
        { node with schedulingThread := .scheduling (node.maxInFlight - node.currentInFlight) }
  | exhausts (hthread : node.schedulingThread = .scheduling 0) (hidle : node.inputs.scheduling = .idle) :
      Moves process node .schedule { node with schedulingThread := .leaving }
  | reads (allowance : Nat) (call : SyncSet.Event κ π) (inputs : SyncSet κ π)
      (hthread : node.schedulingThread = .scheduling allowance)
      (hcall : readinessCall node.inputs allowance = [call])
      (hinputs : SyncSet.step call node.inputs = some inputs)
      (hturn : call = .getReadiness ∨ call = .read ∨ call = .fill) :
      Moves process node .schedule { node with inputs := inputs }
  | prepares (allowance : Nat) (timestamp : Timestamp) (inputs : SyncSet κ π)
      (outputs : OutputStreamHandler ω) (hthread : node.schedulingThread = .scheduling allowance)
      (hcall : readinessCall node.inputs allowance = [.decide])
      (hinputs : SyncSet.step .decide node.inputs = some inputs)
      (hdecision : decision node.inputs = some (.readyForProcess, timestamp))
      (hfilling : inputs.scheduling = .filling node.inputs.streamIds { timestamp := timestamp, packets := [] })
      (houtputs : OutputStreamHandler.step (.prepareCalculatorContext timestamp) node.outputs = some outputs) :
      Moves process node .schedule { node with inputs := inputs, outputs := outputs }
  | stops (allowance : Nat) (result : NodeReadiness) (timestamp : Timestamp) (inputs : SyncSet κ π)
      (thread : SchedulingThread) (hthread : node.schedulingThread = .scheduling allowance)
      (hcall : readinessCall node.inputs allowance = [.decide])
      (hinputs : SyncSet.step .decide node.inputs = some inputs)
      (hdecision : decision node.inputs = some (result, timestamp)) (hresult : result ≠ .readyForProcess)
      (hidle : inputs.scheduling = .idle)
      (hafter : thread = .leaving ∨ result = .notReady ∧ thread = .updating timestamp) :
      Moves process node .schedule { node with inputs := inputs, schedulingThread := thread }
  | schedules (allowance : Nat) (inputSet : InputSet κ π)
      (hthread : node.schedulingThread = .scheduling allowance)
      (hscheduling : node.inputs.scheduling = .filling [] inputSet) (hpositive : 0 < allowance)
      (hfree : node.currentInFlight < node.maxInFlight) (hnoError : node.hasError = false) :
      Moves process node .schedule { node with
        inputs := { node.inputs with scheduling := .idle }
        currentInFlight := node.currentInFlight + 1
        scheduled := node.scheduled ++ [inputSet]
        schedulingThread := .scheduling (allowance - 1) }
  | drops (allowance : Nat) (inputSet : InputSet κ π)
      (hthread : node.schedulingThread = .scheduling allowance)
      (hscheduling : node.inputs.scheduling = .filling [] inputSet) (hpositive : 0 < allowance)
      (herror : node.hasError = true) :
      Moves process node .schedule { node with
        inputs := { node.inputs with scheduling := .idle }
        schedulingThread := .scheduling (allowance - 1) }
  | updates (inputBound : Timestamp) (outputs : OutputStreamHandler ω)
      (hthread : node.schedulingThread = .updating inputBound)
      (houtputs : OutputStreamHandler.step (.updateTaskTimestampBound inputBound) node.outputs =
        some outputs) :
      Moves process node .schedule { node with outputs := outputs, schedulingThread := .leaving }
  | repeats (hthread : node.schedulingThread = .leaving)
      (hpending : node.schedulingState = .schedulingPending)
      (hfree : node.currentInFlight < node.maxInFlight) :
      Moves process node .schedule { node with
        schedulingState := .scheduling
        schedulingThread := .scheduling (node.maxInFlight - node.currentInFlight) }
  | leaves (hthread : node.schedulingThread = .leaving)
      (hlast : node.schedulingState = .schedulingPending → node.maxInFlight ≤ node.currentInFlight) :
      Moves process node .schedule { node with schedulingState := .idle, schedulingThread := .absent }
  | posts (inputSet : InputSet κ π) (outputs : OutputStreamHandler ω) (hmem : inputSet ∈ node.scheduled)
      (houtputs : OutputStreamHandler.step
        (.postProcess inputSet.timestamp (process (SyncSet.view inputSet))) node.outputs = some outputs) :
      Moves process node (.postProcess inputSet.timestamp) { node with
        outputs := outputs
        scheduled := node.scheduled.filter (·.timestamp ≠ inputSet.timestamp)
        ending := node.ending + 1 }
  | endsWithNote (hending : node.ending ≠ 0) (hcounted : node.currentInFlight ≠ 0)
      (hstate : node.schedulingState ≠ .idle) :
      Moves process node .endScheduling { node with
        ending := node.ending - 1
        currentInFlight := node.currentInFlight - 1
        schedulingState := .schedulingPending }
  | endsAndStarts (hending : node.ending ≠ 0) (hcounted : node.currentInFlight ≠ 0)
      (hidle : node.schedulingState = .idle) :
      Moves process node .endScheduling { node with
        ending := node.ending - 1
        currentInFlight := node.currentInFlight - 1
        schedulingState := .scheduling
        schedulingThread := .entering }
  | propagates (event : OutputStreamHandler.Event ω) (outputs : OutputStreamHandler ω)
      (hturn : node.outputs.turn = some event)
      (houtputs : OutputStreamHandler.step event node.outputs = some outputs) :
      Moves process node .propagate { node with outputs := outputs }
  | fails : Moves process node .setHasError { node with hasError := true }

omit [DecidableEq κ] in
theorem checkIfBecameReady_cases (node : CalculatorNode κ π ω) :
    (node.schedulingState = .idle ∧ node.currentInFlight < node.maxInFlight ∧
        checkIfBecameReady node =
          { node with schedulingState := .scheduling, schedulingThread := .entering }) ∨
      (node.schedulingState = .scheduling ∧
        checkIfBecameReady node = { node with schedulingState := .schedulingPending }) ∨
      ((node.schedulingState = .schedulingPending ∨
          node.schedulingState = .idle ∧ node.maxInFlight ≤ node.currentInFlight) ∧
        checkIfBecameReady node = node) := by
  unfold checkIfBecameReady
  cases hstate : node.schedulingState with
  | idle =>
      by_cases hfree : node.currentInFlight < node.maxInFlight
      · exact .inl ⟨rfl, hfree, by simp [hfree]⟩
      · exact .inr (.inr ⟨.inr ⟨rfl, not_lt.mp hfree⟩, by simp [hfree]⟩)
  | scheduling => exact .inr (.inl ⟨rfl, by simp⟩)
  | schedulingPending => exact .inr (.inr ⟨.inl rfl, by simp⟩)

omit [DecidableEq κ] in
theorem endScheduling_cases (h : endScheduling node = some after) :
    node.currentInFlight ≠ 0 ∧
      (node.schedulingState ≠ .idle ∧ after = { node with
          currentInFlight := node.currentInFlight - 1
          schedulingState := .schedulingPending } ∨
        node.schedulingState = .idle ∧ after = { node with
          currentInFlight := node.currentInFlight - 1
          schedulingState := .scheduling
          schedulingThread := .entering }) := by
  unfold endScheduling at h
  obtain ⟨hcounted, h⟩ := Option.ite_none_left_eq_some.mp h
  refine ⟨hcounted, ?_⟩
  cases hstate : node.schedulingState with
  | idle =>
      simp only [hstate] at h
      exact .inr ⟨rfl, (Option.some.inj h).symm⟩
  | scheduling =>
      simp only [hstate] at h
      exact .inl ⟨by simp, (Option.some.inj h).symm⟩
  | schedulingPending =>
      simp only [hstate] at h
      exact .inl ⟨by simp, by rw [← Option.some.inj h, ← hstate]⟩

section Schedule

variable {allowance : Nat} {inputs : SyncSet κ π} {outputs : OutputStreamHandler ω}
  {advanced : CalculatorNode κ π ω}

theorem decide_moves (hvalid : node.Valid) (hthread : node.schedulingThread = .scheduling allowance)
    {minBound minPacket : Timestamp} (hscheduling : node.inputs.scheduling = .reading [] minBound minPacket)
    (hadvanced : scheduleInvocations allowance node = some advanced)
    (hinputs : SyncSet.step .decide node.inputs = some inputs)
    (houtputs : Transition.run OutputStreamHandler.step node.outputs (node.outputCalls process .schedule) =
      some outputs) :
    Moves process node .schedule { advanced with inputs := inputs, outputs := outputs } := by
  have hphase := hvalid.thread
  unfold Thread at hphase
  simp only [hthread] at hphase
  have hcall : readinessCall node.inputs allowance = [.decide] := by
    simp only [readinessCall, hscheduling]
  obtain ⟨result, timestamp, hdecision, hresult⟩ :=
    decide_timed hinputs hvalid.inputs hvalid.plain hphase.2.2.1
  simp only [outputCalls, hthread, hdecision] at houtputs
  simp only [scheduleInvocations, hscheduling, hdecision] at hadvanced
  cases result with
  | readyForProcess =>
      cases hadvanced
      exact .prepares allowance timestamp inputs outputs hthread hcall hinputs hdecision hresult.2.2
        ((Transition.run_singleton _ _).symm.trans houtputs)
  | notReady =>
      cases hadvanced
      cases houtputs
      refine .stops allowance _ timestamp inputs _ hthread hcall hinputs hdecision (by simp) hresult.2.1 ?_
      by_cases hunset : timestamp = .unset <;> simp [hunset]
  | readyForClose =>
      cases hadvanced
      cases houtputs
      exact .stops allowance _ timestamp inputs _ hthread hcall hinputs hdecision (by simp) hresult.1 (.inl rfl)

theorem scheduling_moves (hvalid : node.Valid) (hthread : node.schedulingThread = .scheduling allowance)
    (hadvanced : scheduleInvocations allowance node = some advanced)
    (hinputs : Transition.run SyncSet.step node.inputs (readinessCall node.inputs allowance) = some inputs)
    (houtputs : Transition.run OutputStreamHandler.step node.outputs (node.outputCalls process .schedule) =
      some outputs) :
    Moves process node .schedule { advanced with inputs := inputs, outputs := outputs } := by
  have hquiet : decision node.inputs = none → outputs = node.outputs := by
    intro hnone
    simp only [outputCalls, hthread, hnone] at houtputs
    exact (Option.some.inj houtputs).symm
  cases hscheduling : node.inputs.scheduling with
  | idle =>
      obtain rfl := hquiet (by simp only [decision, hscheduling])
      simp only [scheduleInvocations, hscheduling] at hadvanced
      by_cases hzero : allowance = 0
      · simp only [readinessCall, hscheduling, if_pos hzero] at hinputs
        rw [if_pos hzero] at hadvanced
        cases hadvanced
        cases hinputs
        subst hzero
        exact .exhausts hthread hscheduling
      · have hcall : readinessCall node.inputs allowance = [.getReadiness] := by
          simp only [readinessCall, hscheduling, if_neg hzero]
        rw [hcall, Transition.run_singleton] at hinputs
        rw [if_neg hzero] at hadvanced
        cases hadvanced
        exact .reads allowance _ inputs hthread hcall hinputs (.inl rfl)
  | reading unread minBound minPacket =>
      cases unread with
      | nil =>
          simp only [readinessCall, hscheduling, Transition.run_singleton] at hinputs
          exact decide_moves hvalid hthread hscheduling hadvanced hinputs houtputs
      | cons id unread =>
          obtain rfl := hquiet (by simp only [decision, hscheduling])
          have hcall : readinessCall node.inputs allowance = [.read] := by
            simp only [readinessCall, hscheduling]
          rw [hcall, Transition.run_singleton] at hinputs
          simp only [scheduleInvocations, hscheduling] at hadvanced
          cases hadvanced
          exact .reads allowance _ inputs hthread hcall hinputs (.inr (.inl rfl))
  | filling unfilled inputSet =>
      obtain rfl := hquiet (by simp only [decision, hscheduling])
      simp only [scheduleInvocations, hscheduling] at hadvanced
      cases unfilled with
      | nil =>
          simp only [readinessCall, hscheduling, Transition.run_singleton] at hinputs
          obtain ⟨_, _, rfl⟩ := step_process hinputs
          have hphase := hvalid.thread
          unfold Thread at hphase
          simp only [hthread] at hphase
          have hpositive := hphase.2.1 (by simp [hscheduling])
          cases herror : node.hasError with
          | true =>
              cases (if_pos herror).symm.trans hadvanced
              exact .drops allowance inputSet hthread hscheduling hpositive herror
          | false =>
              obtain ⟨hfree, ⟨⟩⟩ := Option.ite_none_right_eq_some.mp
                ((if_neg (Bool.eq_false_iff.mp herror)).symm.trans hadvanced)
              exact .schedules allowance inputSet hthread hscheduling hpositive hfree herror
      | cons id unfilled =>
          have hcall : readinessCall node.inputs allowance = [.fill] := by
            simp only [readinessCall, hscheduling]
          rw [hcall, Transition.run_singleton] at hinputs
          cases hadvanced
          exact .reads allowance _ inputs hthread hcall hinputs (.inr (.inr rfl))

theorem schedule_moves (hvalid : node.Valid) (hadvanced : schedulingLoop node = some advanced)
    (hinputs : Transition.run SyncSet.step node.inputs (node.inputCalls .schedule) = some inputs)
    (houtputs : Transition.run OutputStreamHandler.step node.outputs (node.outputCalls process .schedule) =
      some outputs) :
    Moves process node .schedule { advanced with inputs := inputs, outputs := outputs } := by
  unfold schedulingLoop at hadvanced
  cases hthread : node.schedulingThread with
  | absent => simp [hthread] at hadvanced
  | entering =>
      simp only [hthread, inputCalls, outputCalls] at hadvanced hinputs houtputs
      cases hadvanced
      cases hinputs
      cases houtputs
      exact .enters hthread
  | scheduling allowance =>
      simp only [hthread, inputCalls] at hadvanced hinputs
      exact scheduling_moves hvalid hthread hadvanced hinputs houtputs
  | updating inputBound =>
      simp only [hthread, inputCalls, outputCalls, Transition.run_singleton] at hadvanced hinputs houtputs
      cases hadvanced
      cases hinputs
      exact .updates inputBound outputs hthread houtputs
  | leaving =>
      simp only [hthread, inputCalls, outputCalls] at hadvanced hinputs houtputs
      cases hinputs
      cases houtputs
      by_cases hpending : node.schedulingState = .schedulingPending ∧ node.currentInFlight < node.maxInFlight
      · rw [if_pos hpending] at hadvanced
        cases hadvanced
        exact .repeats hthread hpending.1 hpending.2
      · rw [if_neg hpending] at hadvanced
        cases hadvanced
        exact .leaves hthread fun hstate => not_lt.mp fun hfree => hpending ⟨hstate, hfree⟩

end Schedule

theorem moves_of_step {event : Event κ π} (h : step process event node = some after)
    (hvalid : node.Valid) : Moves process node event after := by
  obtain ⟨advanced, inputs, outputs, hadvanced, hinputs, houtputs, rfl⟩ := step_cases h
  cases event with
  | addPackets id container =>
      cases (Transition.run_singleton _ _).symm.trans hinputs
      cases hadvanced
      cases houtputs
      exact .addPackets id container
  | setNextTimestampBound id bound =>
      cases (Transition.run_singleton _ _).symm.trans hinputs
      cases hadvanced
      cases houtputs
      exact .setNextTimestampBound id bound
  | notify =>
      obtain ⟨hnotifying, ⟨⟩⟩ := Option.ite_none_left_eq_some.mp hadvanced
      cases hinputs
      cases houtputs
      rcases checkIfBecameReady_cases { node with notifying := node.notifying - 1 } with
        ⟨hidle, hfree, heq⟩ | ⟨hstate, heq⟩ | ⟨hstate, heq⟩
      · rw [heq]
        exact .notifyStarts hnotifying hidle hfree
      · rw [heq]
        exact .notifyNotes hnotifying hstate
      · rw [heq]
        exact .notifyNothing hnotifying hstate
  | schedule => exact schedule_moves hvalid hadvanced hinputs houtputs
  | postProcess inputTimestamp =>
      obtain ⟨hany, ⟨⟩⟩ := Option.ite_none_right_eq_some.mp hadvanced
      cases hinputs
      obtain ⟨inputSet, hmem, hequal⟩ := List.any_eq_true.mp hany
      cases hfound : node.scheduled.find? (·.timestamp = inputTimestamp) with
      | none => exact absurd hequal (List.find?_eq_none.mp hfound inputSet hmem)
      | some found =>
          simp only [outputCalls, hfound, Transition.run_singleton] at houtputs
          obtain rfl : found.timestamp = inputTimestamp := by simpa using List.find?_some hfound
          exact .posts found outputs (List.mem_of_find?_eq_some hfound) houtputs
  | endScheduling =>
      obtain ⟨hending, hended⟩ := Option.ite_none_left_eq_some.mp hadvanced
      cases hinputs
      cases houtputs
      obtain ⟨hcounted, ⟨hstate, rfl⟩ | ⟨hidle, rfl⟩⟩ := endScheduling_cases hended
      · exact .endsWithNote hending hcounted hstate
      · exact .endsAndStarts hending hcounted hidle
  | propagate =>
      obtain ⟨hpresent, ⟨⟩⟩ := Option.ite_none_left_eq_some.mp hadvanced
      cases hinputs
      cases hturn : node.outputs.turn with
      | none =>
          unfold turn at hturn
          split at hturn
          · next habsent => exact absurd habsent hpresent
          all_goals cases hturn
      | some event =>
          simp only [outputCalls, hturn, Option.toList_some, Transition.run_singleton] at houtputs
          exact .propagates event outputs hturn houtputs
  | setHasError =>
      cases hadvanced
      cases hinputs
      cases houtputs
      exact .fails

end CalculatorNode

end SpaceInvaders.Mediapipe

import SpaceInvaders.Mediapipe.CalculatorNode.Valid

namespace SpaceInvaders.Mediapipe

namespace CalculatorNode

open SyncSet OutputStreamHandler

variable {κ π ω : Type} [DecidableEq κ] {process : Timestamp × (κ → List (Packet π)) → ω}
  {node : CalculatorNode κ π ω} {allowance : Nat}

-- The next call of ScheduleInvocations on the input streams passes its CHECKs.
theorem readinessCall_isSome (allowance : Nat) (hvalid : node.inputs.Valid) (event : SyncSet.Event κ π)
    (hcall : readinessCall node.inputs allowance = [event]) :
    ∃ inputs, SyncSet.step event node.inputs = some inputs := by
  unfold readinessCall at hcall
  cases hscheduling : node.inputs.scheduling with
  | idle =>
      simp only [hscheduling] at hcall
      split at hcall
      · cases hcall
      · cases hcall
        simp only [SyncSet.step, hscheduling]
        exact ⟨_, rfl⟩
  | reading unread minBound minPacket =>
      cases unread with
      | nil =>
          simp only [hscheduling] at hcall
          cases hcall
          obtain ⟨inputs, hinputs, _⟩ := decided_valid hvalid hscheduling
          exact ⟨inputs, by simpa only [SyncSet.step, hscheduling] using hinputs⟩
      | cons id unread =>
          simp only [hscheduling] at hcall
          cases hcall
          simp only [SyncSet.step, hscheduling]
          exact ⟨_, rfl⟩
  | filling unfilled inputSet =>
      cases unfilled with
      | nil =>
          simp only [hscheduling] at hcall
          cases hcall
          simp only [SyncSet.step, hscheduling]
          exact ⟨_, rfl⟩
      | cons id unfilled =>
          simp only [hscheduling] at hcall
          cases hcall
          obtain ⟨inputs, _, hinputs, _⟩ := fillStream_valid hvalid hscheduling
          exact ⟨inputs, by simpa only [SyncSet.step, hscheduling] using hinputs⟩

theorem entering_valid (hvalid : node.Valid) (hthread : node.schedulingThread = .entering) :
    ∃ after, step process .schedule node = some after ∧ after.Valid := by
  have hphase := hvalid.thread
  unfold Thread at hphase
  simp only [hthread] at hphase
  have hbounded := hvalid.bounded
  have hstate : node.schedulingState ≠ .idle := fun hidle =>
    absurd (hthread.symm.trans (hvalid.absent.mpr hidle)) (by simp)
  have hadvanced : advance .schedule node =
      some { node with schedulingThread := .scheduling (node.maxInFlight - node.currentInFlight) } := by
    simp only [advance, schedulingLoop, hthread]
  have hcalls : Transition.run SyncSet.step node.inputs (node.inputCalls .schedule) = some node.inputs := by
    simp only [inputCalls, hthread]
    rfl
  have houtputs : Transition.run OutputStreamHandler.step node.outputs
      (node.outputCalls process .schedule) = some node.outputs := by
    simp only [outputCalls, hthread]
    rfl
  refine ⟨_, step_of hadvanced hcalls houtputs, ?_⟩
  refine ⟨hvalid.inputs, hvalid.outputs, hvalid.plain, hvalid.counted, hbounded, hvalid.ascending,
    hvalid.running, by simp [hstate], ?_⟩
  refine ⟨by simp only; omega, fun hne => absurd hphase.1 hne, hphase.2, fun unfilled inputSet hfilling => ?_⟩
  exact absurd (hphase.1.symm.trans hfilling) (by simp)

theorem updating_valid (hvalid : node.Valid) {inputBound : Timestamp}
    (hthread : node.schedulingThread = .updating inputBound) :
    ∃ after, step process .schedule node = some after ∧ after.Valid := by
  have hphase := hvalid.thread
  unfold Thread at hphase
  simp only [hthread] at hphase
  have hstate : node.schedulingState ≠ .idle := fun hidle =>
    absurd (hthread.symm.trans (hvalid.absent.mpr hidle)) (by simp)
  obtain ⟨outputs, houtputs⟩ := update_isSome hvalid.outputs hphase.2.1
  obtain ⟨hreached, hruns⟩ := update_frame houtputs
  have hadvanced : advance .schedule node = some { node with schedulingThread := .leaving } := by
    simp only [advance, schedulingLoop, hthread]
  have hcalls : Transition.run SyncSet.step node.inputs (node.inputCalls .schedule) = some node.inputs := by
    simp only [inputCalls, hthread]
    rfl
  have hupdate : Transition.run OutputStreamHandler.step node.outputs
      (node.outputCalls process .schedule) = some outputs := by
    simp only [outputCalls, hthread]
    exact Transition.run_single houtputs
  refine ⟨_, step_of hadvanced hcalls hupdate, ?_⟩
  refine ⟨hvalid.inputs, update_valid hvalid.outputs houtputs, hvalid.plain, hvalid.counted,
    hvalid.bounded, hvalid.ascending, fun inputSet hmem => hruns _ (hvalid.running inputSet hmem),
    by simp [hstate], hphase.1, ?_⟩
  simp only [hreached]
  exact hphase.2.2

theorem leaving_valid (hvalid : node.Valid) (hthread : node.schedulingThread = .leaving) :
    ∃ after, step process .schedule node = some after ∧ after.Valid := by
  have hphase := hvalid.thread
  unfold Thread at hphase
  simp only [hthread] at hphase
  have hcalls : Transition.run SyncSet.step node.inputs (node.inputCalls .schedule) = some node.inputs := by
    simp only [inputCalls, hthread]
    rfl
  have houtputs : Transition.run OutputStreamHandler.step node.outputs
      (node.outputCalls process .schedule) = some node.outputs := by
    simp only [outputCalls, hthread]
    rfl
  by_cases hpending : node.schedulingState = .schedulingPending ∧ node.currentInFlight < node.maxInFlight
  · have hadvanced : advance .schedule node = some { node with
        schedulingState := .scheduling
        schedulingThread := .scheduling (node.maxInFlight - node.currentInFlight) } := by
      simp only [advance, schedulingLoop, hthread, if_pos hpending]
    refine ⟨_, step_of hadvanced hcalls houtputs, ?_⟩
    refine ⟨hvalid.inputs, hvalid.outputs, hvalid.plain, hvalid.counted, hvalid.bounded, hvalid.ascending,
      hvalid.running, by simp, ?_⟩
    refine ⟨by simp only; omega, fun hne => absurd hphase.1 hne, hphase.2,
      fun unfilled inputSet hfilling => ?_⟩
    exact absurd (hphase.1.symm.trans hfilling) (by simp)
  · have hadvanced : advance .schedule node =
        some { node with schedulingState := .idle, schedulingThread := .absent } := by
      simp only [advance, schedulingLoop, hthread, if_neg hpending]
    refine ⟨_, step_of hadvanced hcalls houtputs, ?_⟩
    exact ⟨hvalid.inputs, hvalid.outputs, hvalid.plain, hvalid.counted, hvalid.bounded, hvalid.ascending,
      hvalid.running, by simp, hphase⟩

section Allowance

-- A turn of the loops of GetReadiness and FillInputSet.
theorem turn_valid (hvalid : node.Valid) (hthread : node.schedulingThread = .scheduling allowance)
    (event : SyncSet.Event κ π) (hcall : readinessCall node.inputs allowance = [event])
    (hdecision : decision node.inputs = none)
    (hadvanced : scheduleInvocations allowance node = some node)
    (hfilling : ∀ inputs, SyncSet.step event node.inputs = some inputs → 0 < allowance ∧
      ∀ unfilled inputSet, inputs.scheduling = .filling unfilled inputSet →
        ∃ before current, node.inputs.scheduling = .filling before current ∧
          current.timestamp = inputSet.timestamp) :
    ∃ after, step process .schedule node = some after ∧ after.Valid := by
  have hphase := hvalid.thread
  unfold Thread at hphase
  simp only [hthread] at hphase
  obtain ⟨inputs, hinputs⟩ := readinessCall_isSome allowance hvalid.inputs event hcall
  obtain ⟨hpositive, hcurrent⟩ := hfilling inputs hinputs
  have hne : ∀ minBound minPacket, event = .decide →
      node.inputs.scheduling ≠ .reading [] minBound minPacket := by
    intro minBound minPacket _ hscheduling
    simp only [decision, hscheduling] at hdecision
    cases hdecision
  have hcalls : Transition.run SyncSet.step node.inputs (node.inputCalls .schedule) = some inputs := by
    simp only [inputCalls, hthread, hcall]
    exact Transition.run_single hinputs
  have houtputs : Transition.run OutputStreamHandler.step node.outputs
      (node.outputCalls process .schedule) = some node.outputs := by
    simp only [outputCalls, hthread, hdecision]
    rfl
  have hloop : advance .schedule node = some node := by
    simp only [advance, schedulingLoop, hthread, hadvanced]
  refine ⟨_, step_of hloop hcalls houtputs, ?_⟩
  refine ⟨SyncSet.step_valid event hinputs hvalid.inputs, hvalid.outputs,
    (step_frame event hinputs).2.trans hvalid.plain, hvalid.counted, hvalid.bounded, hvalid.ascending,
    hvalid.running, hvalid.absent, ?_⟩
  unfold Thread
  simp only [hthread]
  refine ⟨hphase.1, fun _ => hpositive, step_timed event hinputs hvalid.inputs hne hphase.2.2.1,
    fun unfilled inputSet hscheduling => ?_⟩
  obtain ⟨before, current, hbefore, heq⟩ := hcurrent unfilled inputSet hscheduling
  exact heq ▸ hphase.2.2.2 before current hbefore

theorem decide_valid (hvalid : node.Valid) (hthread : node.schedulingThread = .scheduling allowance)
    {minBound minPacket : Timestamp} (hscheduling : node.inputs.scheduling = .reading [] minBound minPacket) :
    ∃ after, step process .schedule node = some after ∧ after.Valid := by
  have hphase := hvalid.thread
  unfold Thread at hphase
  simp only [hthread] at hphase
  obtain ⟨hallowance, hpositive, htimed, _⟩ := hphase
  replace hpositive := hpositive (by simp [hscheduling])
  have hstate : node.schedulingState ≠ .idle := fun hidle =>
    absurd (hthread.symm.trans (hvalid.absent.mpr hidle)) (by simp)
  obtain ⟨inputs, hinputs⟩ := readinessCall_isSome allowance hvalid.inputs .decide
    (by simp only [readinessCall, hscheduling])
  have hcalls : Transition.run SyncSet.step node.inputs (node.inputCalls .schedule) = some inputs := by
    simp only [inputCalls, hthread, readinessCall, hscheduling]
    exact Transition.run_single hinputs
  have hvalid' := SyncSet.step_valid .decide hinputs hvalid.inputs
  have hplain' : inputs.processTimestamps = false := (step_frame .decide hinputs).2.trans hvalid.plain
  obtain ⟨result, timestamp, hdecision, hresult⟩ := decide_timed hinputs hvalid.inputs hvalid.plain htimed
  cases result with
  | readyForProcess =>
      obtain ⟨hallowed, hplace, hfilling⟩ := hresult
      obtain ⟨outputs, houtputs⟩ := prepare_isSome hvalid.outputs hallowed hplace
      obtain ⟨hreached, hfront, hruns⟩ := prepare_frame hvalid.outputs houtputs
      have hprepare : Transition.run OutputStreamHandler.step node.outputs
          (node.outputCalls process .schedule) = some outputs := by
        simp only [outputCalls, hthread, hdecision]
        exact Transition.run_single houtputs
      have hadvanced : advance .schedule node = some node := by
        simp only [advance, schedulingLoop, hthread, scheduleInvocations, hscheduling, hdecision]
      refine ⟨_, step_of hadvanced hcalls hprepare, ?_⟩
      refine ⟨hvalid', prepare_valid hvalid.outputs houtputs, hplain', hvalid.counted, hvalid.bounded,
        hvalid.ascending, fun inputSet hmem => hruns _ (hvalid.running inputSet hmem), hvalid.absent, ?_⟩
      unfold Thread
      simp only [hthread]
      refine ⟨hallowance, fun _ => hpositive, ?_, fun unfilled inputSet hcurrent => ?_⟩
      · unfold Timed
        simp only [hfilling, hreached]
      · cases hfilling.symm.trans hcurrent
        refine ⟨hfront, fun other hother => place_lt.mp (lt_of_lt_of_le ?_ hplace)⟩
        exact hvalid.outputs.kept.called _ (runs_spec hvalid.outputs.kept (hvalid.running other hother)).1
  | notReady =>
      obtain ⟨hplace, hidle, hlater⟩ := hresult
      have hnone : Transition.run OutputStreamHandler.step node.outputs
          (node.outputCalls process .schedule) = some node.outputs := by
        simp only [outputCalls, hthread, hdecision]
        rfl
      have hadvanced : advance .schedule node = some { node with
          schedulingThread := if timestamp = .unset then .leaving else .updating timestamp } := by
        simp only [advance, schedulingLoop, hthread, scheduleInvocations, hscheduling, hdecision]
      refine ⟨_, step_of hadvanced hcalls hnone, ?_⟩
      refine ⟨hvalid', hvalid.outputs, hplain', hvalid.counted, hvalid.bounded, hvalid.ascending,
        hvalid.running, ?_, ?_⟩
      · by_cases hunset : timestamp = .unset <;> simp [hunset, hstate]
      · by_cases hunset : timestamp = .unset
        · rw [if_pos hunset]
          exact ⟨hidle, timed_of_idle hidle (hlater.mono hplace)⟩
        · rw [if_neg hunset]
          exact ⟨hidle, hplace, timed_of_idle hidle hlater⟩
  | readyForClose =>
      obtain ⟨hidle, hlater⟩ := hresult
      have hnone : Transition.run OutputStreamHandler.step node.outputs
          (node.outputCalls process .schedule) = some node.outputs := by
        simp only [outputCalls, hthread, hdecision]
        rfl
      have hadvanced : advance .schedule node = some { node with schedulingThread := .leaving } := by
        simp only [advance, schedulingLoop, hthread, scheduleInvocations, hscheduling, hdecision]
      refine ⟨_, step_of hadvanced hcalls hnone, ?_⟩
      exact ⟨hvalid', hvalid.outputs, hplain', hvalid.counted, hvalid.bounded, hvalid.ascending,
        hvalid.running, by simp [hstate], hidle, timed_of_idle hidle hlater⟩

-- TryToBeginScheduling succeeds, since the allowance was taken from the counter and the
-- counter has only come down. After an error it is not called.
theorem process_valid (hvalid : node.Valid) (hthread : node.schedulingThread = .scheduling allowance)
    {inputSet : InputSet κ π} (hscheduling : node.inputs.scheduling = .filling [] inputSet) :
    ∃ after, step process .schedule node = some after ∧ after.Valid := by
  have hphase := hvalid.thread
  unfold Thread at hphase
  simp only [hthread] at hphase
  obtain ⟨hallowance, hpositive, htimed, hfilling⟩ := hphase
  replace hpositive := hpositive (by simp [hscheduling])
  obtain ⟨hruns, hbefore⟩ := hfilling [] inputSet hscheduling
  have hstate : node.schedulingState ≠ .idle := fun hidle =>
    absurd (hthread.symm.trans (hvalid.absent.mpr hidle)) (by simp)
  have hcounted := hvalid.counted
  have hfree : node.currentInFlight < node.maxInFlight := by omega
  have hdecision : decision node.inputs = none := by simp only [decision, hscheduling]
  obtain ⟨inputs, hinputs⟩ := readinessCall_isSome allowance hvalid.inputs .process
    (by simp only [readinessCall, hscheduling])
  have hcalls : Transition.run SyncSet.step node.inputs (node.inputCalls .schedule) = some inputs := by
    simp only [inputCalls, hthread, readinessCall, hscheduling]
    exact Transition.run_single hinputs
  have hnone : Transition.run OutputStreamHandler.step node.outputs
      (node.outputCalls process .schedule) = some node.outputs := by
    simp only [outputCalls, hthread, hdecision]
    rfl
  have hvalid' := SyncSet.step_valid .process hinputs hvalid.inputs
  have hplain' : inputs.processTimestamps = false := (step_frame .process hinputs).2.trans hvalid.plain
  have htimed' := step_timed .process hinputs hvalid.inputs (fun _ _ heq => absurd heq (by simp)) htimed
  obtain ⟨_, _, rfl⟩ := step_process hinputs
  cases herror : node.hasError with
  | true =>
      have hadvanced : advance .schedule node =
          some { node with schedulingThread := .scheduling (allowance - 1) } := by
        simp only [advance, schedulingLoop, hthread, scheduleInvocations, hscheduling, if_pos herror]
      refine ⟨_, step_of hadvanced hcalls hnone, ?_⟩
      refine ⟨hvalid', hvalid.outputs, hplain', hcounted, hvalid.bounded, hvalid.ascending, hvalid.running,
        by simp [hstate], by simp only; omega, fun hne => absurd rfl hne, htimed', fun _ _ h => ?_⟩
      cases h
  | false =>
      have hadvanced : advance .schedule node = some { node with
          currentInFlight := node.currentInFlight + 1
          scheduled := node.scheduled ++ [inputSet]
          schedulingThread := .scheduling (allowance - 1) } := by
        simp only [advance, schedulingLoop, hthread, scheduleInvocations, hscheduling, herror,
          Bool.false_eq_true, if_false, if_pos hfree]
      refine ⟨_, step_of hadvanced hcalls hnone, ?_⟩
      refine ⟨hvalid', hvalid.outputs, hplain', ?_, hfree, ?_, ?_, by simp [hstate], ?_⟩
      · simp only [List.length_append, List.length_singleton]
        omega
      · rw [List.pairwise_append]
        refine ⟨hvalid.ascending, List.pairwise_singleton _ _, ?_⟩
        simpa using hbefore
      · rw [List.forall_mem_append, List.forall_mem_singleton]
        exact ⟨hvalid.running, hruns⟩
      · refine ⟨by simp only; omega, fun hne => absurd rfl hne, htimed', fun _ _ h => ?_⟩
        cases h

theorem scheduling_valid (hvalid : node.Valid) (hthread : node.schedulingThread = .scheduling allowance) :
    ∃ after, step process .schedule node = some after ∧ after.Valid := by
  have hphase := hvalid.thread
  unfold Thread at hphase
  simp only [hthread] at hphase
  have hpositive := hphase.2.1
  cases hscheduling : node.inputs.scheduling with
  | idle =>
      have hdecision : decision node.inputs = none := by simp only [decision, hscheduling]
      by_cases hzero : allowance = 0
      · have hstate : node.schedulingState ≠ .idle := fun hidle =>
          absurd (hthread.symm.trans (hvalid.absent.mpr hidle)) (by simp)
        have hcalls : Transition.run SyncSet.step node.inputs (node.inputCalls .schedule) =
            some node.inputs := by
          simp only [inputCalls, hthread, readinessCall, hscheduling, if_pos hzero]
          rfl
        have hnone : Transition.run OutputStreamHandler.step node.outputs
            (node.outputCalls process .schedule) = some node.outputs := by
          simp only [outputCalls, hthread, hdecision]
          rfl
        have hadvanced : advance .schedule node = some { node with schedulingThread := .leaving } := by
          simp only [advance, schedulingLoop, hthread, scheduleInvocations, hscheduling, if_pos hzero]
        refine ⟨_, step_of hadvanced hcalls hnone, ?_⟩
        exact ⟨hvalid.inputs, hvalid.outputs, hvalid.plain, hvalid.counted, hvalid.bounded,
          hvalid.ascending, hvalid.running, by simp [hstate], hscheduling, hphase.2.2.1⟩
      · refine turn_valid hvalid hthread .getReadiness ?_ hdecision ?_ ?_
        · simp only [readinessCall, hscheduling, if_neg hzero]
        · simp only [scheduleInvocations, hscheduling, if_neg hzero]
        · intro inputs hinputs
          obtain ⟨_, rfl⟩ := step_getReadiness hinputs
          exact ⟨Nat.pos_of_ne_zero hzero, fun _ _ h => by cases h⟩
  | reading unread minBound minPacket =>
      cases unread with
      | nil => exact decide_valid hvalid hthread hscheduling
      | cons id unread =>
          refine turn_valid hvalid hthread .read ?_ ?_ ?_ ?_
          · simp only [readinessCall, hscheduling]
          · simp only [decision, hscheduling]
          · simp only [scheduleInvocations, hscheduling]
          · intro inputs hinputs
            obtain ⟨_, _, _, _, _, rfl⟩ := step_read hinputs
            exact ⟨hpositive (by simp [hscheduling]), fun _ _ h => by cases h⟩
  | filling unfilled inputSet =>
      cases unfilled with
      | nil => exact process_valid hvalid hthread hscheduling
      | cons id unfilled =>
          refine turn_valid hvalid hthread .fill ?_ ?_ ?_ ?_
          · simp only [readinessCall, hscheduling]
          · simp only [decision, hscheduling]
          · simp only [scheduleInvocations, hscheduling]
          · intro inputs hinputs
            obtain ⟨_, _, _, hscheduling', hfill⟩ := step_fill hinputs
            cases hscheduling.symm.trans hscheduling'
            obtain ⟨found, _, hfound, _, hafter, _⟩ := fillStream_valid hvalid.inputs hscheduling
            cases hfound.symm.trans hfill
            refine ⟨hpositive (by simp [hscheduling]), fun rest current h => ?_⟩
            cases hafter.symm.trans h
            exact ⟨_, _, hscheduling, rfl⟩

end Allowance

theorem schedule_valid (hvalid : node.Valid) (hpresent : node.schedulingThread ≠ .absent) :
    ∃ after, step process .schedule node = some after ∧ after.Valid := by
  cases hthread : node.schedulingThread with
  | absent => exact absurd hthread hpresent
  | entering => exact entering_valid hvalid hthread
  | scheduling allowance => exact scheduling_valid hvalid hthread
  | updating inputBound => exact updating_valid hvalid hthread
  | leaving => exact leaving_valid hvalid hthread

theorem step_valid {after : CalculatorNode κ π ω} (event : Event κ π)
    (h : step process event node = some after) (hvalid : node.Valid) : after.Valid := by
  have hsame : (∃ found, step process event node = some found ∧ found.Valid) → after.Valid := by
    rintro ⟨found, hfound, hfoundValid⟩
    cases hfound.symm.trans h
    exact hfoundValid
  obtain ⟨advanced, inputs, outputs, hadvanced, hinputs, houtputs, hafter⟩ := step_cases h
  cases event with
  | addPackets id container =>
      have hproduced := (Transition.run_singleton _ _).symm.trans hinputs
      cases hadvanced
      cases houtputs
      rw [hafter]
      exact hvalid.changed _ (.addPackets id container) hproduced (by cases hproduced; rfl) (by simp)
  | setNextTimestampBound id bound =>
      have hproduced := (Transition.run_singleton _ _).symm.trans hinputs
      cases hadvanced
      cases houtputs
      rw [hafter]
      exact hvalid.changed _ (.setNextTimestampBound id bound) hproduced (by cases hproduced; rfl) (by simp)
  | notify =>
      obtain ⟨_, ⟨⟩⟩ := Option.ite_none_left_eq_some.mp hadvanced
      cases hinputs
      cases houtputs
      have hnotified := notify_valid hvalid (node.notifying - 1)
      obtain ⟨hsameInputs, hsameOutputs, _⟩ :=
        checkIfBecameReady_frame { node with notifying := node.notifying - 1 }
      rw [hafter, unchanged hsameInputs hsameOutputs]
      exact hnotified
  | schedule =>
      refine hsame (schedule_valid hvalid fun habsent => ?_)
      simp [advance, schedulingLoop, habsent] at hadvanced
  | postProcess inputTimestamp =>
      obtain ⟨hany, _⟩ := Option.ite_none_right_eq_some.mp hadvanced
      obtain ⟨inputSet, hmem, htimestamp⟩ := List.any_eq_true.mp hany
      obtain rfl : inputSet.timestamp = inputTimestamp := by simpa using htimestamp
      exact hsame (postProcess_valid hvalid inputSet hmem)
  | endScheduling =>
      obtain ⟨hending, hended⟩ := Option.ite_none_left_eq_some.mp hadvanced
      obtain ⟨found, hfound, hfoundValid, hsameInputs, hsameOutputs⟩ := endScheduling_valid hvalid hending
      cases hfound.symm.trans hended
      cases hinputs
      cases houtputs
      rw [hafter, unchanged hsameInputs hsameOutputs]
      exact hfoundValid
  | propagate =>
      obtain ⟨hpresent, _⟩ := Option.ite_none_left_eq_some.mp hadvanced
      exact hsame (propagate_valid hvalid hpresent)
  | setHasError =>
      cases hadvanced
      cases hinputs
      cases houtputs
      rw [hafter]
      exact hvalid.failed

end CalculatorNode

end SpaceInvaders.Mediapipe

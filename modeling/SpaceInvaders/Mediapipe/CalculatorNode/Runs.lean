import SpaceInvaders.Mediapipe.CalculatorNode.Moves

namespace SpaceInvaders.Mediapipe

namespace CalculatorNode

open SyncSet OutputStreamHandler

variable {κ π ω : Type} [DecidableEq κ] {process : Timestamp × (κ → List (Packet π)) → ω}
  {start before after final : CalculatorNode κ π ω} {events : List (Event κ π)}

theorem run_valid (hvalid : start.Valid) (hrun : Transition.run (step process) start events = some final) :
    final.Valid :=
  Transition.run_invariant Valid events start final
    (fun _ event _ hvisits => step_valid event hvisits.step_eq) hvalid hrun

theorem visits_valid {event : Event κ π} (hvalid : start.Valid)
    (hvisits : Transition.Visits (step process) start events before event after) : before.Valid :=
  hvisits.invariant Valid (fun _ event _ h => step_valid event h.step_eq) hvalid

section Calls

omit [DecidableEq κ] in
theorem length_readinessCall_le (inputs : SyncSet κ π) (allowance : Nat) :
    (readinessCall inputs allowance).length ≤ 1 := by
  unfold readinessCall
  cases inputs.scheduling with
  | idle => by_cases hzero : allowance = 0 <;> simp [hzero]
  | reading unread minBound minPacket => cases unread <;> simp
  | filling unfilled inputSet => cases unfilled <;> simp

omit [DecidableEq κ] in
-- A step makes one call on the input streams at most, and one on the outputs.
theorem length_inputCalls_le (event : Event κ π) (node : CalculatorNode κ π ω) :
    (node.inputCalls event).length ≤ 1 := by
  cases event with
  | schedule =>
      unfold inputCalls
      cases node.schedulingThread with
      | scheduling allowance => exact length_readinessCall_le node.inputs allowance
      | _ => simp
  | _ => simp [inputCalls]

theorem length_outputCalls_le (event : Event κ π) (node : CalculatorNode κ π ω) :
    (node.outputCalls process event).length ≤ 1 := by
  cases event with
  | schedule =>
      unfold outputCalls
      cases node.schedulingThread with
      | scheduling allowance =>
          simp only
          split <;> simp
      | _ => simp
  | postProcess inputTimestamp =>
      unfold outputCalls
      simp only
      split <;> simp
  | propagate =>
      unfold outputCalls
      cases node.outputs.turn <;> simp
  | _ => simp [outputCalls]

-- A run of the node is a run of its input streams.
theorem run_inputs (hrun : Transition.run (step process) start events = some final) :
    Transition.run SyncSet.step start.inputs
        (Transition.log (step process) (fun event node => node.inputCalls event) start events) =
      some final.inputs := by
  refine Transition.run_refines CalculatorNode.inputs _ events start final (fun _ event _ hvisits => ?_) hrun
  obtain ⟨_, _, _, _, hinputs, _, rfl⟩ := step_cases hvisits.step_eq
  exact hinputs

theorem run_outputs (hrun : Transition.run (step process) start events = some final) :
    Transition.run OutputStreamHandler.step start.outputs
        (Transition.log (step process) (fun event node => node.outputCalls process event) start events) =
      some final.outputs := by
  refine Transition.run_refines CalculatorNode.outputs _ events start final (fun _ event _ hvisits => ?_) hrun
  obtain ⟨_, _, _, _, _, houtputs, rfl⟩ := step_cases hvisits.step_eq
  exact houtputs

theorem log_inputs {γ : Type} (emit : SyncSet.Event κ π → SyncSet κ π → List γ)
    (hrun : Transition.run (step process) start events = some final) :
    Transition.log SyncSet.step emit start.inputs
        (Transition.log (step process) (fun event node => node.inputCalls event) start events) =
      Transition.log (step process)
        (fun event node => (node.inputCalls event).flatMap fun call => emit call node.inputs) start events := by
  refine Transition.log_refines CalculatorNode.inputs _ _ emit events start final (fun _ event _ hvisits => ?_)
    (fun node event _ _ => Transition.log_short _ _ (length_inputCalls_le event node)) hrun
  obtain ⟨_, _, _, _, hinputs, _, rfl⟩ := step_cases hvisits.step_eq
  exact hinputs

theorem log_outputs {γ : Type} (emit : OutputStreamHandler.Event ω → OutputStreamHandler ω → List γ)
    (hrun : Transition.run (step process) start events = some final) :
    Transition.log OutputStreamHandler.step emit start.outputs
        (Transition.log (step process) (fun event node => node.outputCalls process event) start events) =
      Transition.log (step process)
        (fun event node => (node.outputCalls process event).flatMap fun call => emit call node.outputs)
        start events := by
  refine Transition.log_refines CalculatorNode.outputs _ _ emit events start final (fun _ event _ hvisits => ?_)
    (fun node event _ _ => Transition.log_short _ _ (length_outputCalls_le event node)) hrun
  obtain ⟨_, _, _, _, _, houtputs, rfl⟩ := step_cases hvisits.step_eq
  exact houtputs

end Calls

section Link

omit [DecidableEq κ] in
-- The invocation whose input set is being filled has its context already.
def filling (inputs : SyncSet κ π) : List Timestamp :=
  match inputs.scheduling with
  | .filling _ inputSet => [inputSet.timestamp]
  | _ => []

def prepared (process : Timestamp × (κ → List (Packet π)) → ω) (event : Event κ π)
    (node : CalculatorNode κ π ω) : List Timestamp :=
  (node.outputCalls process event).flatMap fun call => OutputStreamHandler.prepared call node.outputs

theorem schedule_filling {allowance : Nat} {inputs : SyncSet κ π} (hvalid : before.Valid)
    (hthread : before.schedulingThread = .scheduling allowance)
    (hinputs : Transition.run SyncSet.step before.inputs (readinessCall before.inputs allowance) =
      some inputs) :
    filling before.inputs ++ prepared process .schedule before =
      (delivered .schedule before).map InputSet.timestamp ++ filling inputs := by
  have hphase := hvalid.thread
  unfold Thread at hphase
  simp only [hthread] at hphase
  obtain ⟨_, _, htimed, _⟩ := hphase
  unfold readinessCall at hinputs
  cases hscheduling : before.inputs.scheduling with
  | idle =>
      simp only [hscheduling] at hinputs
      by_cases hzero : allowance = 0
      · rw [if_pos hzero] at hinputs
        cases hinputs
        simp [filling, prepared, outputCalls, decision, delivered, inputCalls, readinessCall, hthread,
          hscheduling, hzero]
      · rw [if_neg hzero, Transition.run_singleton] at hinputs
        obtain ⟨_, rfl⟩ := step_getReadiness hinputs
        simp [filling, prepared, outputCalls, decision, delivered, inputCalls, readinessCall, hthread,
          hscheduling, hzero, SyncSet.delivered]
  | reading unread minBound minPacket =>
      cases unread with
      | nil =>
          simp only [hscheduling, Transition.run_singleton] at hinputs
          obtain ⟨result, timestamp, hdecision, hresult⟩ :=
            decide_timed hinputs hvalid.inputs hvalid.plain htimed
          cases result with
          | readyForProcess =>
              simp [filling, prepared, outputCalls, hdecision, delivered, inputCalls, readinessCall, hthread,
                hscheduling, SyncSet.delivered, hresult.2.2, OutputStreamHandler.prepared]
          | notReady =>
              simp [filling, prepared, outputCalls, hdecision, delivered, inputCalls, readinessCall, hthread,
                hscheduling, SyncSet.delivered, hresult.2.1]
          | readyForClose =>
              simp [filling, prepared, outputCalls, hdecision, delivered, inputCalls, readinessCall, hthread,
                hscheduling, SyncSet.delivered, hresult.1]
      | cons id unread =>
          simp only [hscheduling, Transition.run_singleton] at hinputs
          obtain ⟨_, _, _, _, _, rfl⟩ := step_read hinputs
          simp [filling, prepared, outputCalls, decision, delivered, inputCalls, readinessCall, hthread,
            hscheduling, SyncSet.delivered]
  | filling unfilled inputSet =>
      cases unfilled with
      | nil =>
          simp only [hscheduling, Transition.run_singleton] at hinputs
          obtain ⟨_, _, rfl⟩ := step_process hinputs
          simp [filling, prepared, outputCalls, decision, delivered, inputCalls, readinessCall, hthread,
            hscheduling, SyncSet.delivered]
      | cons id unfilled =>
          simp only [hscheduling, Transition.run_singleton] at hinputs
          obtain ⟨_, _, _, hscheduling', hfill⟩ := step_fill hinputs
          cases hscheduling.symm.trans hscheduling'
          obtain ⟨found, _, hfound, _, hafter, _⟩ := fillStream_valid hvalid.inputs hscheduling
          cases hfound.symm.trans hfill
          simp [filling, prepared, outputCalls, decision, delivered, inputCalls, readinessCall, hthread,
            hscheduling, SyncSet.delivered, hafter]

theorem step_filling (event : Event κ π) (h : step process event before = some after)
    (hvalid : before.Valid) :
    filling before.inputs ++ prepared process event before =
      (delivered event before).map InputSet.timestamp ++ filling after.inputs := by
  obtain ⟨advanced, inputs, outputs, _, hinputs, _, rfl⟩ := step_cases h
  have hquiet : before.inputCalls event = [] → prepared process event before = [] →
      filling before.inputs ++ prepared process event before =
        (delivered event before).map InputSet.timestamp ++ filling inputs := by
    intro hnone hprepared
    rw [hnone] at hinputs
    cases hinputs
    simp [hprepared, delivered, hnone]
  cases event with
  | addPackets id container =>
      cases (Transition.run_singleton _ _).symm.trans hinputs
      exact List.append_nil _
  | setNextTimestampBound id bound =>
      cases (Transition.run_singleton _ _).symm.trans hinputs
      exact List.append_nil _
  | schedule =>
      cases hthread : before.schedulingThread with
      | scheduling allowance =>
          simp only [inputCalls, hthread] at hinputs
          exact schedule_filling hvalid hthread hinputs
      | updating inputBound =>
          refine hquiet (by simp only [inputCalls, hthread]) ?_
          simp [prepared, outputCalls, hthread, OutputStreamHandler.prepared]
      | _ =>
          refine hquiet (by simp only [inputCalls, hthread]) ?_
          simp [prepared, outputCalls, hthread]
  | postProcess inputTimestamp =>
      refine hquiet rfl ?_
      unfold prepared outputCalls
      cases hfound : before.scheduled.find? (·.timestamp = inputTimestamp) with
      | none => simp [hfound]
      | some inputSet => simp [hfound, OutputStreamHandler.prepared]
  | propagate =>
      refine hquiet rfl ?_
      unfold prepared outputCalls
      cases hturn : before.outputs.turn with
      | none => rfl
      | some event =>
          rcases turn_cases hturn with rfl | rfl | rfl | rfl | rfl <;> rfl
  | notify => exact hquiet rfl rfl
  | endScheduling => exact hquiet rfl rfl
  | setHasError => exact hquiet rfl rfl

-- The input sets that calculators work on have been delivered.
theorem step_scheduled (event : Event κ π) (h : step process event before = some after)
    (hvalid : before.Valid) :
    ∀ inputSet ∈ after.scheduled, inputSet ∈ before.scheduled ∨ inputSet ∈ delivered event before := by
  cases moves_of_step h hvalid with
  | schedules allowance inputSet hthread hscheduling hpositive hfree =>
      intro other hother
      rw [List.mem_append, List.mem_singleton] at hother
      refine hother.imp_right fun heq => ?_
      simp [delivered, inputCalls, hthread, readinessCall, hscheduling, SyncSet.delivered, heq]
  | posts inputSet outputs hmem houtputs =>
      exact fun other hother => .inl (List.mem_of_mem_filter hother)
  | _ => exact fun inputSet hinputSet => .inl hinputSet

-- What a calculator makes of its input set.
def made (process : Timestamp × (κ → List (Packet π)) → ω) (inputSet : InputSet κ π) : Timestamp × ω :=
  (inputSet.timestamp, process (SyncSet.view inputSet))

-- Outputs only come from input sets that have been delivered.
theorem visits_postProcess {event : Event κ π}
    (hvisits : Transition.Visits (step process) start events before event after)
    (hvalid : start.Valid) (hnone : start.scheduled = []) {inputTimestamp : Timestamp} {outputs : ω}
    (hcall : .postProcess inputTimestamp outputs ∈ before.outputCalls process event) :
    (inputTimestamp, outputs) ∈
      (Transition.log (step process) delivered start events).map (made process) := by
  obtain ⟨done, hrun, hpast⟩ := hvisits.log_before delivered
  have hscheduled := Transition.log_invariant
    (fun node past => ∀ inputSet ∈ node.scheduled, inputSet ∈ past) delivered done start before []
    (fun _ event _ past hvisits hall inputSet hmem => List.mem_append.mpr
      ((step_scheduled event hvisits.step_eq (visits_valid hvalid hvisits) inputSet hmem).imp_left
        (hall inputSet)))
    (by simp [hnone]) hrun
  cases event with
  | schedule =>
      simp only [outputCalls] at hcall
      split at hcall
      · split at hcall <;> simp at hcall
      · simp at hcall
      · simp at hcall
  | postProcess time =>
      simp only [outputCalls] at hcall
      split at hcall
      · next inputSet hfound =>
        obtain ⟨rfl, rfl⟩ : inputTimestamp = time ∧ outputs = process (SyncSet.view inputSet) := by
          simpa using hcall
        obtain rfl : inputSet.timestamp = inputTimestamp := by simpa using List.find?_some hfound
        refine List.mem_map.mpr ⟨inputSet, hpast inputSet ?_, rfl⟩
        simpa using hscheduled inputSet (List.mem_of_find?_eq_some hfound)
      · simp at hcall
  | propagate =>
      simp only [outputCalls, Option.mem_toList] at hcall
      rcases turn_cases hcall with h | h | h | h | h <;> cases h
  | _ => simp [outputCalls] at hcall

end Link

section Opened

variable {inputs : SyncSet κ π} {maxInFlight : Nat}

theorem log_handedOn (hrun : Transition.run (step process) (opened inputs maxInFlight) events = some final) :
    Transition.log (step process) (handedOn process) (opened inputs maxInFlight) events =
      (Transition.log OutputStreamHandler.step propagated .prepareForRun
        (Transition.log (step process) (fun event node => node.outputCalls process event)
          (opened inputs maxInFlight) events)).filterMap Propagated.timed := by
  rw [← Transition.log_part propagated (·.filterMap Propagated.timed) rfl
    (fun _ _ => List.filterMap_append)]
  exact (log_outputs (fun call handler => (propagated call handler).filterMap Propagated.timed) hrun).symm

theorem map_fst_timed (items : List (Propagated ω)) :
    (items.filterMap Propagated.timed).map Prod.fst = items.filterMap Propagated.inputTimestamp := by
  rw [List.map_filterMap]
  congr 1
  funext item
  cases item <;> rfl

-- An invocation is delivered, and its output handed on, in the order in which it was prepared.
theorem run_invocations (hvalid : (opened inputs maxInFlight : CalculatorNode κ π ω).Valid)
    (hrun : Transition.run (step process) (opened inputs maxInFlight) events = some final) :
    (Transition.log (step process) delivered (opened inputs maxInFlight) events).map InputSet.timestamp ++
        filling final.inputs =
      (Transition.log (step process) (handedOn process) (opened inputs maxInFlight) events).map Prod.fst ++
        unpropagated final.outputs := by
  have hfilling := Transition.log_flow (fun node => filling node.inputs) (prepared process)
    (fun event node => (delivered event node).map InputSet.timestamp) events _ final
    (fun _ event _ hvisits => step_filling event hvisits.step_eq (visits_valid hvalid hvisits)) hrun
  rw [Transition.log_part delivered (·.map InputSet.timestamp) rfl (fun _ _ => List.map_append)] at hfilling
  rw [← hfilling, log_handedOn hrun, map_fst_timed]
  refine Eq.trans ?_ (run_propagated (run_outputs hrun))
  exact (log_outputs OutputStreamHandler.prepared hrun).symm

theorem handedOn_made (hvalid : (opened inputs maxInFlight : CalculatorNode κ π ω).Valid)
    (hrun : Transition.run (step process) (opened inputs maxInFlight) events = some final) :
    ∀ output ∈ Transition.log (step process) (handedOn process) (opened inputs maxInFlight) events,
      output ∈ (Transition.log (step process) delivered (opened inputs maxInFlight) events).map
        (made process) := by
  intro output houtput
  rw [log_handedOn hrun, List.mem_filterMap] at houtput
  obtain ⟨item, hitem, htimed⟩ := houtput
  cases item with
  | bound inputBound => cases htimed
  | packets inputTimestamp outputs =>
      cases htimed
      have hcall := run_postProcess (run_outputs hrun) hitem
      exact Transition.log_forall (fun call => ∀ time found, call = .postProcess time found →
          (time, found) ∈ (Transition.log (step process) delivered (opened inputs maxInFlight) events).map
            (made process))
        (fun event node => node.outputCalls process event) events _ final
        (fun _ _ _ hvisits call hcall time found heq => visits_postProcess hvisits hvalid rfl (heq ▸ hcall))
        hrun _ hcall inputTimestamp outputs rfl

theorem log_delivered (hrun : Transition.run (step process) (opened inputs maxInFlight) events = some final) :
    Transition.log (step process) delivered (opened inputs maxInFlight) events =
      Transition.log SyncSet.step SyncSet.delivered inputs.prepareForRun
        (Transition.log (step process) (fun event node => node.inputCalls event)
          (opened inputs maxInFlight) events) :=
  (log_inputs SyncSet.delivered hrun).symm

theorem log_gain (id : κ)
    (hrun : Transition.run (step process) (opened inputs maxInFlight) events = some final) :
    Transition.log (step process) (gain id) (opened inputs maxInFlight) events =
      Transition.log SyncSet.step (SyncSet.gain id) inputs.prepareForRun
        (Transition.log (step process) (fun event node => node.inputCalls event)
          (opened inputs maxInFlight) events) :=
  (log_inputs (SyncSet.gain id) hrun).symm

end Opened

end CalculatorNode

end SpaceInvaders.Mediapipe

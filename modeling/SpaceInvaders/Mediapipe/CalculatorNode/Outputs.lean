import SpaceInvaders.Mediapipe.CalculatorNode.Runs

namespace SpaceInvaders.Mediapipe

namespace OutputStreamHandler

variable {ω : Type} {handler after : OutputStreamHandler ω} {timestamp other : Timestamp}

theorem prepare_runs (hvalid : handler.Valid)
    (h : step (.prepareCalculatorContext timestamp) handler = some after) (hruns : after.runs other = true) :
    handler.runs other = true ∨ other = timestamp := by
  obtain ⟨_, _, rfl⟩ := step_prepareCalculatorContext hvalid h
  unfold runs at hruns ⊢
  rw [List.any_append, Bool.or_eq_true] at hruns
  exact hruns.imp_right fun hnew => by simpa [eq_comm] using hnew

theorem update_runs (h : step (.updateTaskTimestampBound timestamp) handler = some after)
    (hruns : after.runs other = true) : handler.runs other = true := by
  obtain ⟨_, ⟨_, rfl⟩ | ⟨_, hnote⟩⟩ := step_updateTaskTimestampBound h
  · exact hruns
  · unfold runs at hruns ⊢
    rwa [(notePropagation_frame hnote).1] at hruns

theorem post_runs {outputs : ω} (h : step (.postProcess timestamp outputs) handler = some after)
    (hruns : after.runs other = true) : handler.runs other = true ∧ other ≠ timestamp := by
  obtain ⟨_, hnote⟩ := step_postProcess h
  obtain ⟨context, hcontext, hboth⟩ := List.any_eq_true.mp hruns
  rw [(notePropagation_frame hnote).1] at hcontext
  obtain ⟨old, hold, rfl⟩ := List.mem_map.mp hcontext
  by_cases heq : old.inputTimestamp = timestamp
  · simp [heq] at hboth
  · simp only [if_neg heq, Bool.and_eq_true, decide_eq_true_eq] at hboth
    exact ⟨List.any_eq_true.mpr ⟨old, hold, by simpa using hboth⟩, fun h => heq (hboth.1.trans h)⟩

theorem turn_runs {event : Event ω} (hvalid : handler.Valid) (hturn : handler.turn = some event)
    (h : step event handler = some after) (hruns : after.runs other = true) : handler.runs other = true := by
  obtain ⟨context, hcontext, hboth⟩ := List.any_eq_true.mp hruns
  exact List.any_eq_true.mpr ⟨context, turn_contexts hvalid hturn h context hcontext, hboth⟩

end OutputStreamHandler

namespace CalculatorNode

open SyncSet OutputStreamHandler

variable {κ π ω : Type} [DecidableEq κ] {process : Timestamp × (κ → List (Packet π)) → ω}
  {start node after final : CalculatorNode κ π ω} {events : List (Event κ π)}

-- A context whose calculator has not returned is that of an invocation in flight, or of the
-- one whose input set is being filled. After an error it may be one that was dropped.
def Occupied (node : CalculatorNode κ π ω) : Prop :=
  node.hasError = false → ∀ timestamp, node.outputs.runs timestamp = true →
    timestamp ∈ node.scheduled.map InputSet.timestamp ∨ timestamp ∈ filling node.inputs

theorem step_occupied (event : Event κ π) (h : step process event node = some after)
    (hvalid : node.Valid) (hoccupied : node.Occupied) : after.Occupied := by
  cases moves_of_step h hvalid with
  | addPackets id container => exact fun hnoError => hoccupied (Bool.or_eq_false_iff.mp hnoError).1
  | setNextTimestampBound id bound => exact fun hnoError => hoccupied (Bool.or_eq_false_iff.mp hnoError).1
  | fails => exact fun hnoError => absurd hnoError (by simp)
  | reads allowance call inputs hthread hcall hinputs hturn =>
      refine fun hnoError timestamp hruns => (hoccupied hnoError timestamp hruns).imp_right fun hmem => ?_
      rcases hturn with rfl | rfl | rfl
      · obtain ⟨hidle, _⟩ := step_getReadiness hinputs
        simp [filling, hidle] at hmem
      · obtain ⟨_, _, _, _, hscheduling, _⟩ := step_read hinputs
        simp [filling, hscheduling] at hmem
      · obtain ⟨_, _, _, hscheduling, hfill⟩ := step_fill hinputs
        obtain ⟨found, _, hfound, _, hafter, _⟩ := fillStream_valid hvalid.inputs hscheduling
        cases hfound.symm.trans hfill
        simpa [filling, hscheduling, hafter] using hmem
  | prepares allowance timestamp inputs outputs hthread hcall hinputs hdecision hfilling houtputs =>
      intro hnoError other hruns
      obtain ⟨_, _, hscheduling, _⟩ := step_decide hinputs
      rcases prepare_runs hvalid.outputs houtputs hruns with hold | rfl
      · refine .inl ((hoccupied hnoError other hold).resolve_right fun hmem => ?_)
        simp [filling, hscheduling] at hmem
      · exact .inr (by simp [filling, hfilling])
  | stops allowance result timestamp inputs thread hthread hcall hinputs hdecision hresult hidle hafter =>
      obtain ⟨_, _, hscheduling, _⟩ := step_decide hinputs
      intro hnoError other hruns
      refine .inl ((hoccupied hnoError other hruns).resolve_right fun hmem => ?_)
      simp [filling, hscheduling] at hmem
  | schedules allowance inputSet hthread hscheduling hpositive hfree =>
      intro hnoError other hruns
      left
      rw [List.map_append, List.mem_append]
      refine (hoccupied hnoError other hruns).imp_right fun hmem => ?_
      simpa [filling, hscheduling] using hmem
  | drops allowance inputSet hthread hscheduling hpositive herror =>
      exact fun hnoError => absurd (herror.symm.trans hnoError) (by simp)
  | updates inputBound outputs hthread houtputs =>
      exact fun hnoError other hruns => hoccupied hnoError other (update_runs houtputs hruns)
  | posts inputSet outputs hmem houtputs =>
      intro hnoError other hruns
      obtain ⟨hold, hne⟩ := post_runs houtputs hruns
      refine (hoccupied hnoError other hold).imp_left fun hin => ?_
      obtain ⟨current, hcurrent, rfl⟩ := List.mem_map.mp hin
      exact List.mem_map_of_mem (List.mem_filter.mpr ⟨hcurrent, by simpa using hne⟩)
  | propagates event outputs hturn houtputs =>
      exact fun hnoError other hruns => hoccupied hnoError other (turn_runs hvalid.outputs hturn houtputs hruns)
  | _ => exact hoccupied

theorem run_occupied (hvalid : start.Valid) (hoccupied : start.Occupied)
    (hrun : Transition.run (step process) start events = some final) : final.Occupied :=
  (Transition.run_invariant (fun node => node.Valid ∧ node.Occupied) events start final
    (fun _ event _ hvisits hboth => ⟨step_valid event hvisits.step_eq hboth.1,
      step_occupied event hvisits.step_eq hboth.1 hboth.2⟩) ⟨hvalid, hoccupied⟩ hrun).2

theorem step_maxInFlight (event : Event κ π) (h : step process event node = some after)
    (hvalid : node.Valid) : after.maxInFlight = node.maxInFlight := by
  cases moves_of_step h hvalid <;> rfl

theorem run_maxInFlight (hvalid : start.Valid)
    (hrun : Transition.run (step process) start events = some final) :
    final.maxInFlight = start.maxInFlight :=
  (Transition.run_invariant (fun node => node.Valid ∧ node.maxInFlight = start.maxInFlight) events start final
    (fun _ event _ hvisits hboth => ⟨step_valid event hvisits.step_eq hboth.1,
      (step_maxInFlight event hvisits.step_eq hboth.1).trans hboth.2⟩) ⟨hvalid, rfl⟩ hrun).2

-- Nothing that was delivered is on its way any more.
structure Resting (node : CalculatorNode κ π ω) : Prop where
  scheduled : node.scheduled = []
  filling : filling node.inputs = []
  propagation : node.outputs.propagationState = .idle

omit [DecidableEq κ] in
theorem Resting.unpropagated (h : node.Resting) (hvalid : node.Valid) (hoccupied : node.Occupied)
    (hnoError : node.hasError = false) : unpropagated node.outputs = [] := by
  refine unpropagated_nil hvalid.outputs h.propagation fun timestamp => Bool.eq_false_iff.mpr fun hruns => ?_
  rcases hoccupied hnoError timestamp hruns with hmem | hmem
  · simp [h.scheduled] at hmem
  · simp [h.filling] at hmem

theorem end_proceeds (hvalid : node.Valid) (hending : node.ending ≠ 0) :
    ∃ after, step process .endScheduling node = some after := by
  obtain ⟨after, hafter, _⟩ := endScheduling_valid hvalid hending
  exact ⟨_, step_of ((if_neg hending).trans hafter) rfl rfl⟩

-- Each thread that is there can go on, so that no CHECK fails, and the counter of the
-- invocations in flight is right.
theorem threads_proceed (process : Timestamp × (κ → List (Packet π)) → ω) (inputs : SyncSet κ π)
    (maxInFlight : Nat) (final : CalculatorNode κ π ω) (events : List (Event κ π))
    (htimed : ∀ id, (inputs.streams id).enableTimestamps)
    (hrejects : ∀ id packet, packet.holder = none → (inputs.streams id).validate packet ≠ none)
    (hplain : inputs.processTimestamps = false)
    (hrun : Transition.run (step process) (opened inputs maxInFlight) events = some final) :
    (final.schedulingThread ≠ .absent → ∃ after, step process .schedule final = some after) ∧
      (∀ inputSet ∈ final.scheduled,
        ∃ after, step process (.postProcess inputSet.timestamp) final = some after) ∧
      (final.ending ≠ 0 → ∃ after, step process .endScheduling final = some after) ∧
      (final.outputs.thread ≠ .absent → ∃ after, step process .propagate final = some after) ∧
      final.currentInFlight = final.scheduled.length + final.ending ∧
      final.currentInFlight ≤ maxInFlight := by
  have hstart : (opened inputs maxInFlight : CalculatorNode κ π ω).Valid :=
    opened_valid inputs maxInFlight htimed hrejects hplain
  have hvalid := run_valid hstart hrun
  refine ⟨fun hpresent => ?_, fun inputSet hmem => ?_, end_proceeds hvalid, fun hpresent => ?_,
    hvalid.counted, ?_⟩
  · obtain ⟨after, hafter, _⟩ := schedule_valid hvalid hpresent
    exact ⟨after, hafter⟩
  · obtain ⟨after, hafter, _⟩ := postProcess_valid hvalid inputSet hmem
    exact ⟨after, hafter⟩
  · obtain ⟨after, hafter, _⟩ := propagate_valid hvalid hpresent
    exact ⟨after, hafter⟩
  · have hbounded := hvalid.bounded
    rwa [run_maxInFlight hstart hrun] at hbounded

-- How many packets the first stream had.
def countFirst (input : Timestamp × (Bool → List (Packet Unit))) : Nat := (input.2 false).length

-- Two packets wait in one stream, and the other one has come to its end.
def fed : List (Event Bool Unit) :=
  [.addPackets false [⟨some (), .min⟩, ⟨some (), .max⟩], .setNextTimestampBound true .done, .notify]

-- GetReadiness, FillInputSet and the call of the scheduler.
def roundOfTwo : List (Event Bool Unit) := List.replicate 7 .schedule

-- Both invocations are in flight, and the later one returns first.
def parallel : List (Event Bool Unit) :=
  fed ++ .schedule :: roundOfTwo ++ roundOfTwo ++
    [.postProcess .max, .endScheduling, .postProcess .min, .propagate]

theorem threads_proceed_busy :
    ∃ final after, Transition.run (step countFirst) (opened (twoInputs false) 2) parallel = some final ∧
      step countFirst .schedule final = some after := by
  obtain ⟨final, hfinal⟩ := Option.isSome_iff_exists.mp
    (show (Transition.run (step countFirst) (opened (twoInputs false) 2) parallel).isSome by decide +kernel)
  have hpresent : final.schedulingThread ≠ .absent := by
    cases hfinal
    decide +kernel
  obtain ⟨after, hafter⟩ := (threads_proceed countFirst _ 2 final parallel (fun _ => rfl)
    (twoInputs_rejects false) rfl hfinal).1 hpresent
  exact ⟨final, after, hfinal, hafter⟩

section Order

variable {inputs : SyncSet κ π} {maxInFlight : Nat}

-- No two invocations have the same timestamp.
theorem nodup_invocations (htimed : ∀ id, (inputs.streams id).enableTimestamps)
    (hrejects : ∀ id packet, packet.holder = none → (inputs.streams id).validate packet ≠ none)
    (hrun : Transition.run (step process) (opened inputs maxInFlight) events = some final) :
    ((Transition.log (step process) delivered (opened inputs maxInFlight) events).map InputSet.timestamp ++
      filling final.inputs).Nodup := by
  have hsorted := SyncSet.run_sorted (prepareForRun_valid inputs htimed hrejects) (run_inputs hrun)
  rw [← show _ = _ from log_delivered hrun] at hsorted
  obtain ⟨hascending, hbetween, _⟩ := hsorted
  refine List.nodup_append.mpr ⟨?_, ?_, ?_⟩
  · refine List.pairwise_map.mpr (hascending.imp fun {first second} hlt heq => ?_)
    exact hlt.ne (congrArg Timestamp.value heq)
  · unfold filling
    split <;> simp
  · intro timestamp hmem other hother heq
    obtain ⟨inputSet, hinputSet, rfl⟩ := List.mem_map.mp hmem
    have hbelow := (hbetween inputSet hinputSet).2
    unfold filling at hother
    unfold SyncSet.floor at hbelow
    split at hother
    · next unfilled current hscheduling =>
      simp only [hscheduling] at hbelow
      obtain rfl := List.mem_singleton.mp hother
      rw [heq] at hbelow
      exact lt_irrefl _ hbelow
    · cases hother

theorem handedOn_first (htimed : ∀ id, (inputs.streams id).enableTimestamps)
    (hrejects : ∀ id packet, packet.holder = none → (inputs.streams id).validate packet ≠ none)
    (hplain : inputs.processTimestamps = false)
    (hrun : Transition.run (step process) (opened inputs maxInFlight) events = some final) :
    Transition.log (step process) (handedOn process) (opened inputs maxInFlight) events <+:
      (Transition.log (step process) delivered (opened inputs maxInFlight) events).map (made process) := by
  have hvalid : (opened inputs maxInFlight : CalculatorNode κ π ω).Valid :=
    opened_valid inputs maxInFlight htimed hrejects hplain
  have hinvocations := run_invocations hvalid hrun
  have hkeys : ((Transition.log (step process) delivered (opened inputs maxInFlight) events).map
      (made process)).map Prod.fst =
      (Transition.log (step process) delivered (opened inputs maxInFlight) events).map
        InputSet.timestamp := by
    rw [List.map_map]
    rfl
  refine Merge.prefix_of_keys Prod.fst _ _ (filling final.inputs) ?_ (handedOn_made hvalid hrun) ?_
  · rw [hkeys]
    exact nodup_invocations htimed hrejects hrun
  · rw [hkeys, hinvocations]
    exact List.prefix_append _ _

end Order

-- What a calculator makes of the input sets is handed on in the order of the input sets, each
-- once, however the calculators overlap. What is missing is still in the active contexts.
theorem outputs_in_order (process : Timestamp × (κ → List (Packet π)) → ω) (inputs : SyncSet κ π)
    (maxInFlight : Nat) (final : CalculatorNode κ π ω) (events : List (Event κ π))
    (htimed : ∀ id, (inputs.streams id).enableTimestamps)
    (hrejects : ∀ id packet, packet.holder = none → (inputs.streams id).validate packet ≠ none)
    (hplain : inputs.processTimestamps = false)
    (hrun : Transition.run (step process) (opened inputs maxInFlight) events = some final) :
    Transition.log (step process) (handedOn process) (opened inputs maxInFlight) events <+:
        (Transition.log (step process) delivered (opened inputs maxInFlight) events).map (made process) ∧
      (Transition.log (step process) delivered (opened inputs maxInFlight) events).map InputSet.timestamp ++
          filling final.inputs =
        (Transition.log (step process) (handedOn process) (opened inputs maxInFlight) events).map Prod.fst ++
          unpropagated final.outputs ∧
      ∀ id, Transition.log (step process) (gain id) (opened inputs maxInFlight) events =
        (Transition.log (step process) delivered (opened inputs maxInFlight) events).flatMap (row id) ++
          contents id final.inputs := by
  refine ⟨handedOn_first htimed hrejects hplain hrun, ?_, fun id => ?_⟩
  · exact run_invocations (opened_valid inputs maxInFlight htimed hrejects hplain) hrun
  · rw [log_gain id hrun, log_delivered hrun]
    exact run_delivered_flow (prepareForRun_valid inputs htimed hrejects) (run_inputs hrun) id

theorem outputs_in_order_parallel :
    ∃ final, Transition.run (step countFirst) (opened (twoInputs false) 2) parallel = some final ∧
      [(Timestamp.min, 1)] <+:
        (Transition.log (step countFirst) delivered (opened (twoInputs false) 2) parallel).map
          (made countFirst) := by
  obtain ⟨final, hfinal⟩ := Option.isSome_iff_exists.mp
    (show (Transition.run (step countFirst) (opened (twoInputs false) 2) parallel).isSome by decide +kernel)
  have hfirst : Transition.log (step countFirst) (handedOn countFirst) (opened (twoInputs false) 2) parallel =
      [(Timestamp.min, 1)] := by
    decide +kernel
  exact ⟨final, hfinal, hfirst ▸ (outputs_in_order countFirst _ 2 final parallel (fun _ => rfl)
    (twoInputs_rejects false) rfl hfinal).1⟩

-- The node has come to its end without an error and has nothing left to hand on.
structure Finished (node : CalculatorNode κ π ω) : Prop where
  noError : node.hasError = false
  closes : node.inputs.Closes
  scheduled : node.scheduled = []
  propagation : node.outputs.propagationState = .idle

omit [DecidableEq κ] in
theorem Finished.resting (h : node.Finished) : node.Resting := by
  refine ⟨h.scheduled, ?_, h.propagation⟩
  obtain ⟨_, _, hscheduling, _⟩ := h.closes
  simp [CalculatorNode.filling, hscheduling]

-- Once nothing is on its way and nothing was dropped, every input set has been handed on.
theorem handedOn_resting {inputs : SyncSet κ π} {maxInFlight : Nat}
    (htimed : ∀ id, (inputs.streams id).enableTimestamps)
    (hrejects : ∀ id packet, packet.holder = none → (inputs.streams id).validate packet ≠ none)
    (hplain : inputs.processTimestamps = false)
    (hrun : Transition.run (step process) (opened inputs maxInFlight) events = some final)
    (hnoError : final.hasError = false) (hresting : final.Resting) :
    Transition.log (step process) (handedOn process) (opened inputs maxInFlight) events =
      (Transition.log (step process) delivered (opened inputs maxInFlight) events).map (made process) := by
  have hvalid : (opened inputs maxInFlight : CalculatorNode κ π ω).Valid :=
    opened_valid inputs maxInFlight htimed hrejects hplain
  have hoccupied : (opened inputs maxInFlight : CalculatorNode κ π ω).Occupied :=
    fun _ timestamp hruns => absurd hruns (by simp [opened, runs, OutputStreamHandler.prepareForRun])
  have hinvocations := run_invocations hvalid hrun
  rw [hresting.filling, hresting.unpropagated (run_valid hvalid hrun) (run_occupied hvalid hoccupied hrun) hnoError,
    List.append_nil, List.append_nil] at hinvocations
  refine (handedOn_first htimed hrejects hplain hrun).eq_of_length ?_
  have hlength := congrArg List.length hinvocations
  simpa using hlength.symm

-- A calculator that runs in parallel cannot be told from one that runs alone. Neither the
-- schedule nor the number of invocations in flight shows in what is handed on.
theorem outputs_determined (process : Timestamp × (κ → List (Packet π)) → ω) (inputs : SyncSet κ π)
    (maxInFlight otherMax : Nat) (final other : CalculatorNode κ π ω) (events others : List (Event κ π))
    (htimed : ∀ id, (inputs.streams id).enableTimestamps)
    (hrejects : ∀ id packet, packet.holder = none → (inputs.streams id).validate packet ≠ none)
    (hplain : inputs.processTimestamps = false)
    (hrun : Transition.run (step process) (opened inputs maxInFlight) events = some final)
    (hother : Transition.run (step process) (opened inputs otherMax) others = some other)
    (hsame : ∀ id, Transition.log (step process) (gain id) (opened inputs maxInFlight) events =
      Transition.log (step process) (gain id) (opened inputs otherMax) others) :
    (Transition.log (step process) (handedOn process) (opened inputs maxInFlight) events <+:
          Transition.log (step process) (handedOn process) (opened inputs otherMax) others ∨
        Transition.log (step process) (handedOn process) (opened inputs otherMax) others <+:
          Transition.log (step process) (handedOn process) (opened inputs maxInFlight) events) ∧
      (final.Finished → other.Finished →
        Transition.log (step process) (handedOn process) (opened inputs maxInFlight) events =
          Transition.log (step process) (handedOn process) (opened inputs otherMax) others) := by
  have hsome : ∀ (max : Nat) (calls : List (Event κ π)),
      (Transition.log (step process) delivered (opened inputs max) calls).map (made process) =
        ((Transition.log (step process) delivered (opened inputs max) calls).map SyncSet.view).map
          fun input => (input.1, process input) := fun max calls => by
    rw [List.map_map]
    rfl
  have hfirst := run_synchronised htimed hrejects hplain (run_inputs hrun)
  have hsecond := run_synchronised htimed hrejects hplain (run_inputs hother)
  rw [← show _ = _ from log_delivered hrun, ← funext fun id => log_gain id hrun] at hfirst
  rw [← show _ = _ from log_delivered hother, ← funext fun id => log_gain id hother,
    ← funext hsame] at hsecond
  have hshown := handedOn_first htimed hrejects hplain hrun
  have hshown' := handedOn_first htimed hrejects hplain hother
  rw [hsome] at hshown hshown'
  refine ⟨?_, fun hfinished hfinished' => ?_⟩
  · rcases hfirst.prefix_or hsecond with hle | hle
    · exact List.prefix_or_prefix_of_prefix (hshown.trans (hle.map _)) hshown'
    · exact List.prefix_or_prefix_of_prefix hshown (hshown'.trans (hle.map _))
  · have hvalid := prepareForRun_valid inputs htimed hrejects
    rw [funext (closes_contents (SyncSet.run_valid hvalid (run_inputs hrun)) hfinished.closes)] at hfirst
    rw [funext (closes_contents (SyncSet.run_valid hvalid (run_inputs hother)) hfinished'.closes)] at hsecond
    rw [handedOn_resting htimed hrejects hplain hrun hfinished.noError hfinished.resting,
      handedOn_resting htimed hrejects hplain hother hfinished'.noError hfinished'.resting, hsome, hsome,
      hfirst.unique hsecond]

-- One invocation after the other, each handed on before the next one starts.
def sequential : List (Event Bool Unit) :=
  fed ++ .schedule :: roundOfTwo ++
    [.postProcess .min, .propagate, .propagate, .propagate, .endScheduling, .schedule, .schedule] ++
    roundOfTwo ++ [.postProcess .max, .propagate]

theorem outputs_determined_parallel :
    Transition.log (step countFirst) (handedOn countFirst) (opened (twoInputs false) 2) parallel <+:
        Transition.log (step countFirst) (handedOn countFirst) (opened (twoInputs false) 1) sequential ∨
      Transition.log (step countFirst) (handedOn countFirst) (opened (twoInputs false) 1) sequential <+:
        Transition.log (step countFirst) (handedOn countFirst) (opened (twoInputs false) 2) parallel := by
  obtain ⟨final, hfinal⟩ := Option.isSome_iff_exists.mp
    (show (Transition.run (step countFirst) (opened (twoInputs false) 2) parallel).isSome by decide +kernel)
  obtain ⟨other, hother⟩ := Option.isSome_iff_exists.mp
    (show (Transition.run (step countFirst) (opened (twoInputs false) 1) sequential).isSome by decide +kernel)
  exact (outputs_determined countFirst _ 2 1 final other _ _ (fun _ => rfl) (twoInputs_rejects false) rfl
    hfinal hother (by decide +kernel)).1

end CalculatorNode

end SpaceInvaders.Mediapipe

import SpaceInvaders.Mediapipe.OutputStreamHandler.InOrder

namespace SpaceInvaders.Mediapipe

namespace OutputStreamHandler

variable {ω : Type} {start before after final : OutputStreamHandler ω} {events : List (Event ω)}

theorem run_valid (hvalid : start.Valid) (hrun : Transition.run step start events = some final) :
    final.Valid :=
  Transition.run_invariant Valid events start final
    (fun _ event _ hvisits => step_valid event hvisits.step_eq) hvalid hrun

theorem visits_valid {event : Event ω} (hvalid : start.Valid)
    (hvisits : Transition.Visits step start events before event after) : before.Valid :=
  hvisits.invariant Valid (fun _ event _ h => step_valid event h.step_eq) hvalid

-- What the propagation thread does next.
def turn (handler : OutputStreamHandler ω) : Option (Event ω) :=
  match handler.thread with
  | .absent => none
  | .propagating _ => some .propagateOutputPackets
  | .recycling _ => some .recycleCalculatorContext
  | .locking _ => some .lock
  | .bounding _ => some .tryPropagateTimestampBound
  | .relocking _ => some .relock

theorem turn_cases {event : Event ω} (h : turn before = some event) :
    event = .propagateOutputPackets ∨ event = .recycleCalculatorContext ∨ event = .lock ∨
      event = .tryPropagateTimestampBound ∨ event = .relock := by
  unfold turn at h
  split at h <;> simp_all

-- The propagation thread only takes contexts away.
theorem turn_contexts {other : OutputStreamHandler ω} {input : Event ω} (hvalid : before.Valid)
    (hturn : turn other = some input) (h : step input before = some after) :
    ∀ context ∈ after.activeContexts, context ∈ before.activeContexts := by
  have hphase := hvalid.phase
  unfold Phase at hphase
  rcases turn_cases hturn with rfl | rfl | rfl | rfl | rfl
  · obtain ⟨_, _, rfl⟩ := step_propagateOutputPackets h
    exact fun context hcontext => hcontext
  · obtain ⟨_, _, rfl⟩ := step_recycleCalculatorContext h
    exact fun context hcontext => List.mem_of_mem_tail hcontext
  · obtain ⟨_, hthread, hafter⟩ := step_lock h
    simp only [hthread] at hphase
    obtain ⟨rest, _, _, ⟨_, _, hsome⟩ | ⟨_, _, hsome⟩ | ⟨_, _, _, ⟨_, hsome⟩ | ⟨_, hsome⟩⟩⟩ :=
      afterPackets_cases hphase
    all_goals
      cases hsome.symm.trans hafter
      exact fun context hcontext => hcontext
  · obtain ⟨_, _, rfl⟩ := step_tryPropagateTimestampBound h
    exact fun context hcontext => hcontext
  · obtain ⟨_, hthread, hafter⟩ := step_relock h
    simp only [hthread] at hphase
    rcases afterBound_cases hphase with ⟨_, _, _, hsome⟩ | ⟨_, _, _, hsome⟩ |
      ⟨_, _, _, _, ⟨_, hsome⟩ | ⟨_, hsome⟩⟩
    all_goals
      cases hsome.symm.trans hafter
      exact fun context hcontext => hcontext

-- Outputs come into a context only when its calculator returns.
theorem step_contexts (event : Event ω) (h : step event before = some after) (hvalid : before.Valid) :
    ∀ context ∈ after.activeContexts, context ∈ before.activeContexts ∨ context.outputs = none ∨
      ∃ outputs, context.outputs = some outputs ∧ event = .postProcess context.inputTimestamp outputs := by
  have hown : ∀ other : OutputStreamHandler ω, turn other = some event →
      ∀ context ∈ after.activeContexts, context ∈ before.activeContexts ∨ context.outputs = none ∨
        ∃ outputs, context.outputs = some outputs ∧
          event = .postProcess context.inputTimestamp outputs :=
    fun other hturn context hcontext => .inl (turn_contexts hvalid hturn h context hcontext)
  cases event with
  | prepareCalculatorContext inputTimestamp =>
      obtain ⟨_, _, rfl⟩ := step_prepareCalculatorContext hvalid h
      simp only [List.forall_mem_append, List.forall_mem_singleton]
      exact ⟨fun context hcontext => .inl hcontext, .inr (.inl trivial)⟩
  | updateTaskTimestampBound timestamp =>
      obtain ⟨_, ⟨_, rfl⟩ | ⟨_, hnote⟩⟩ := step_updateTaskTimestampBound h
      · exact fun context hcontext => .inl hcontext
      · rw [(notePropagation_frame hnote).1]
        exact fun context hcontext => .inl hcontext
  | postProcess inputTimestamp outputs =>
      obtain ⟨_, hnote⟩ := step_postProcess h
      rw [(notePropagation_frame hnote).1]
      intro context hcontext
      obtain ⟨old, hold, rfl⟩ := List.mem_map.mp hcontext
      by_cases heq : old.inputTimestamp = inputTimestamp
      · simp [heq]
      · simp [heq, hold]
  | propagateOutputPackets =>
      obtain ⟨_, hthread, _⟩ := step_propagateOutputPackets h
      exact hown before (by simp [turn, hthread])
  | recycleCalculatorContext =>
      obtain ⟨_, hthread, _⟩ := step_recycleCalculatorContext h
      exact hown before (by simp [turn, hthread])
  | lock =>
      obtain ⟨_, hthread, _⟩ := step_lock h
      exact hown before (by simp [turn, hthread])
  | tryPropagateTimestampBound =>
      obtain ⟨_, hthread, _⟩ := step_tryPropagateTimestampBound h
      exact hown before (by simp [turn, hthread])
  | relock =>
      obtain ⟨_, hthread, _⟩ := step_relock h
      exact hown before (by simp [turn, hthread])

theorem visits_outputs {event : Event ω} (hvalid : start.Valid) (hnone : start.activeContexts = [])
    (hvisits : Transition.Visits step start events before event after) :
    ∀ context ∈ before.activeContexts, ∀ outputs, context.outputs = some outputs →
      .postProcess context.inputTimestamp outputs ∈ events := by
  have hboth : before.Valid ∧ ∀ context ∈ before.activeContexts, ∀ outputs,
      context.outputs = some outputs → .postProcess context.inputTimestamp outputs ∈ events := by
    refine hvisits.invariant (fun state => state.Valid ∧ ∀ context ∈ state.activeContexts, ∀ outputs,
      context.outputs = some outputs → .postProcess context.inputTimestamp outputs ∈ events) ?_
      ⟨hvalid, by simp [hnone]⟩
    rintro state other next hstep ⟨hstate, hall⟩
    refine ⟨step_valid other hstep.step_eq hstate, fun context hcontext outputs houtputs => ?_⟩
    rcases step_contexts other hstep.step_eq hstate context hcontext with hold | hnew | ⟨found, hfound, heq⟩
    · exact hall context hold outputs houtputs
    · exact absurd (hnew.symm.trans houtputs) (by simp)
    · obtain rfl := Option.some.inj (hfound.symm.trans houtputs)
      exact heq ▸ hstep.mem
  exact hboth.2

-- What is handed on comes out of the contexts in their order.
theorem run_propagated (hrun : Transition.run step prepareForRun events = some final) :
    Transition.log step prepared prepareForRun events =
      (Transition.log step propagated prepareForRun events).filterMap Propagated.inputTimestamp ++
        unpropagated final := by
  have hflow := Transition.log_flow unpropagated prepared handedOn events prepareForRun final
    (fun _ event _ hvisits => step_flow event hvisits.step_eq (visits_valid prepareForRun_valid hvisits))
    hrun
  rw [show unpropagated (prepareForRun : OutputStreamHandler ω) = [] from rfl, List.nil_append] at hflow
  rw [hflow]
  congr 1
  exact Transition.log_part propagated (·.filterMap Propagated.inputTimestamp) rfl
    (fun _ _ => List.filterMap_append) events prepareForRun

-- Outputs that are handed on are those that a calculator has returned with.
theorem run_postProcess (hrun : Transition.run step prepareForRun events = some final)
    {inputTimestamp : Timestamp} {outputs : ω}
    (hmem : .packets inputTimestamp outputs ∈ Transition.log step propagated prepareForRun events) :
    .postProcess inputTimestamp outputs ∈ events := by
  have hall := Transition.log_forall (fun item => ∀ inputTimestamp outputs,
      item = Propagated.packets inputTimestamp outputs → .postProcess inputTimestamp outputs ∈ events)
    propagated events prepareForRun final ?_ hrun
  · exact hall _ hmem inputTimestamp outputs rfl
  intro before event after hvisits item hitem time found hfound
  have houtputs := visits_outputs prepareForRun_valid rfl hvisits
  subst hfound
  cases event with
  | propagateOutputPackets =>
      obtain ⟨contextTimestamp, front, _, hfront, hphase, hpropagated, _⟩ :=
        propagated_packets (visits_valid prepareForRun_valid hvisits) hvisits.step_eq
      rw [hpropagated] at hitem
      obtain ⟨rfl, rfl⟩ : time = contextTimestamp ∧ found = front := by simpa using hitem
      obtain ⟨context, contexts, hcontexts, rfl⟩ := hphase.split
      apply houtputs context (by simp [hcontexts])
      simpa [frontOutputs, hcontexts] using hfront
  | tryPropagateTimestampBound =>
      obtain ⟨_, _, hpropagated, _⟩ := propagated_bound hvisits.step_eq
      rw [hpropagated] at hitem
      simp at hitem
  | _ => simp [propagated] at hitem

theorem run_places {final : OutputStreamHandler ω} {events : List (Event ω)}
    (hrun : Transition.run step prepareForRun events = some final) :
    (Transition.log step propagated prepareForRun events).Pairwise (fun a b => a.place < b.place) :=
  (Transition.log_sorted Propagated.place floor propagated events prepareForRun final
    (fun _ event _ hvisits => step_floor event hvisits.step_eq (visits_valid prepareForRun_valid hvisits))
    hrun).1

-- The outputs are handed on in the order in which the invocations were prepared, each once and
-- as the calculator has left them, whatever the order in which the calculators return. A bound
-- stands between them only where the order of time puts it.
theorem propagates_in_order (final : OutputStreamHandler ω) (events : List (Event ω))
    (hrun : Transition.run step prepareForRun events = some final) :
    Transition.log step prepared prepareForRun events =
        (Transition.log step propagated prepareForRun events).filterMap Propagated.inputTimestamp ++
          unpropagated final ∧
      (Transition.log step propagated prepareForRun events).Pairwise (fun a b => a.place < b.place) ∧
      ∀ inputTimestamp outputs, .packets inputTimestamp outputs ∈
          Transition.log step propagated prepareForRun events →
        .postProcess inputTimestamp outputs ∈ events :=
  ⟨run_propagated hrun, run_places hrun, fun _ _ hmem => run_postProcess hrun hmem⟩

-- The later one of two invocations returns first.
def outOfOrder : List (Event Nat) :=
  [.prepareCalculatorContext .min, .prepareCalculatorContext .max, .postProcess .max 2,
    .updateTaskTimestampBound .postStream, .postProcess .min 1, .propagateOutputPackets,
    .recycleCalculatorContext, .lock, .propagateOutputPackets]

theorem propagates_in_order_outOfOrder :
    ∃ final, Transition.run step prepareForRun outOfOrder = some final ∧
      [.min, .max] = (Transition.log step propagated prepareForRun outOfOrder).filterMap
        Propagated.inputTimestamp ++ unpropagated final := by
  obtain ⟨final, hfinal⟩ := Option.isSome_iff_exists.mp
    (show (Transition.run step prepareForRun outOfOrder).isSome by decide +kernel)
  exact ⟨final, hfinal, (propagates_in_order final outOfOrder hfinal).1⟩

end OutputStreamHandler

end SpaceInvaders.Mediapipe

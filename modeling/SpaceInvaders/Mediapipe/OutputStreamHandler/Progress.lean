import SpaceInvaders.Mediapipe.OutputStreamHandler.Runs

namespace SpaceInvaders.Mediapipe

namespace OutputStreamHandler

variable {ω : Type} {handler after : OutputStreamHandler ω} {past : List (Propagated ω)}

-- Downstream knows that nothing comes before the bound.
def Covers (past : List (Propagated ω)) (bound : Timestamp) : Prop :=
  bound = .unset ∨ .bound bound ∈ past ∨
    ∃ inputTimestamp outputs, .packets inputTimestamp outputs ∈ past ∧
      bound ≤ inputTimestamp.nextAllowedInStream

-- What must have been handed on where the propagation thread is.
def Reported (past : List (Propagated ω)) (handler : OutputStreamHandler ω) : Prop :=
  match handler.thread with
  | .absent => handler.activeContexts = [] → Covers past handler.taskTimestampBound
  | .recycling contextTimestamp | .locking contextTimestamp =>
      ∃ outputs, .packets contextTimestamp outputs ∈ past
  | .relocking boundToPropagate => .bound boundToPropagate ∈ past
  | _ => True

section Report

theorem Reported.congr (h : Reported past handler) (hthread : after.thread = handler.thread)
    (hpresent : handler.thread ≠ .absent) : Reported past after := by
  unfold Reported at h ⊢
  rw [hthread]
  cases hcase : handler.thread with
  | absent => exact absurd hcase hpresent
  | propagating contextTimestamp | bounding boundToPropagate => trivial
  | recycling contextTimestamp | locking contextTimestamp | relocking boundToPropagate =>
      simpa only [hcase] using h

theorem notePropagation_reported (hnote : handler.notePropagation = some after)
    (hidle : handler.thread = .absent → handler.propagationState = .idle)
    (h : handler.thread ≠ .absent → Reported past handler) : Reported past after := by
  rcases notePropagation_cases hnote with ⟨hstate, rfl⟩ | ⟨_, _, rfl⟩ | ⟨_, _, _, _, _, rfl⟩ |
    ⟨_, rfl, hsome⟩
  · have hpresent : handler.thread ≠ .absent := fun habsent =>
      absurd (hstate.symm.trans (hidle habsent)) (by simp)
    exact (h hpresent).congr rfl hpresent
  · trivial
  · trivial
  · by_cases habsent : after.thread = .absent
    · unfold Reported
      rw [habsent]
      exact fun hnone => absurd hnone (hsome (hidle habsent)).1
    · exact h habsent

theorem idle_of_absent (hvalid : handler.Valid) (habsent : handler.thread = .absent) :
    handler.propagationState = .idle := by
  have hphase := hvalid.phase
  unfold Phase at hphase
  simp only [habsent] at hphase
  exact hphase.state

theorem step_reported (event : Event ω) (h : step event handler = some after) (hvalid : handler.Valid)
    (hreported : Reported past handler) : Reported (past ++ propagated event handler) after := by
  have hidle : handler.thread = .absent → handler.propagationState = .idle := idle_of_absent hvalid
  have hphase := hvalid.phase
  unfold Phase at hphase
  cases event with
  | prepareCalculatorContext inputTimestamp =>
      obtain ⟨_, _, rfl⟩ := step_prepareCalculatorContext hvalid h
      rw [show propagated (.prepareCalculatorContext inputTimestamp) handler = [] from rfl, List.append_nil]
      by_cases habsent : handler.thread = .absent
      · unfold Reported
        simp [habsent]
      · exact hreported.congr rfl habsent
  | updateTaskTimestampBound timestamp =>
      rw [show propagated (.updateTaskTimestampBound timestamp) handler = [] from rfl, List.append_nil]
      obtain ⟨_, ⟨_, rfl⟩ | ⟨_, hnote⟩⟩ := step_updateTaskTimestampBound h
      · exact hreported
      · exact notePropagation_reported hnote hidle
          fun hpresent => hreported.congr rfl hpresent
  | postProcess inputTimestamp outputs =>
      rw [show propagated (.postProcess inputTimestamp outputs) handler = [] from rfl, List.append_nil]
      obtain ⟨_, hnote⟩ := step_postProcess h
      exact notePropagation_reported hnote hidle
        fun hpresent => hreported.congr rfl hpresent
  | propagateOutputPackets =>
      obtain ⟨contextTimestamp, outputs, _, _, _, hpropagated, rfl⟩ := propagated_packets hvalid h
      exact ⟨outputs, by simp [hpropagated]⟩
  | recycleCalculatorContext =>
      obtain ⟨contextTimestamp, hthread, rfl⟩ := step_recycleCalculatorContext h
      rw [show propagated .recycleCalculatorContext handler = [] from rfl, List.append_nil]
      unfold Reported at hreported
      simp only [hthread] at hreported
      exact hreported
  | lock =>
      obtain ⟨contextTimestamp, hthread, hafter⟩ := step_lock h
      rw [show propagated .lock handler = [] from rfl, List.append_nil]
      unfold Reported at hreported
      simp only [hthread] at hphase hreported
      obtain ⟨outputs, hmem⟩ := hreported
      obtain ⟨rest, _, _, ⟨_, hbound, hsome⟩ | ⟨_, _, hsome⟩ |
        ⟨context, contexts, hcontexts, ⟨_, hsome⟩ | ⟨_, hsome⟩⟩⟩ := afterPackets_cases hphase
      all_goals cases hsome.symm.trans hafter
      · exact fun _ => .inr (.inr ⟨contextTimestamp, outputs, hmem, hbound⟩)
      · trivial
      · trivial
      · exact fun hnone => absurd (hcontexts.symm.trans hnone) (by simp)
  | tryPropagateTimestampBound =>
      obtain ⟨boundToPropagate, _, hpropagated, rfl⟩ := propagated_bound h
      simp [Reported, hpropagated]
  | relock =>
      obtain ⟨boundToPropagate, hthread, hafter⟩ := step_relock h
      rw [show propagated .relock handler = [] from rfl, List.append_nil]
      unfold Reported at hreported
      simp only [hthread] at hphase hreported
      rcases afterBound_cases hphase with ⟨_, heq, _, hsome⟩ | ⟨_, _, _, hsome⟩ |
        ⟨context, contexts, _, hcontexts, ⟨_, hsome⟩ | ⟨_, hsome⟩⟩
      all_goals cases hsome.symm.trans hafter
      · exact fun _ => .inr (.inl (heq ▸ hreported))
      · trivial
      · trivial
      · exact fun hnone => absurd (hcontexts.symm.trans hnone) (by simp)

end Report

-- The calculator of a context that is not completed runs.
theorem runs_of_not_completed {timestamp : Timestamp} (hkept : handler.Kept)
    (hmem : timestamp ∈ handler.timestamps) (hnew : timestamp ∉ handler.completedInputTimestamps) :
    handler.runs timestamp = true := by
  obtain ⟨context, hcontext, rfl⟩ := List.mem_map.mp hmem
  refine List.any_eq_true.mpr ⟨context, hcontext, ?_⟩
  have hnone := mt (hkept.outputs context hcontext).mp hnew
  simpa using hnone

-- No thread propagates and the first context still runs, or there is none.
theorem idle_front_runs (hvalid : handler.Valid) (hidle : handler.propagationState = .idle) :
    ∀ timestamp ∈ (unpropagated handler).head?, handler.runs timestamp = true := by
  have habsent := absent_of_idle hvalid hidle
  have hphase := hvalid.phase
  unfold Phase at hphase
  simp only [habsent] at hphase
  unfold unpropagated
  simp only [habsent]
  exact fun timestamp hmem => runs_of_not_completed hvalid.kept (List.mem_of_mem_head? hmem)
    (hphase.front timestamp hmem)

theorem unpropagated_nil (hvalid : handler.Valid) (hidle : handler.propagationState = .idle)
    (hquiet : ∀ timestamp, handler.runs timestamp = false) : unpropagated handler = [] := by
  cases hhead : unpropagated handler with
  | nil => rfl
  | cons timestamp rest =>
      have hruns := idle_front_runs hvalid hidle timestamp (by simp [hhead])
      exact absurd (hruns.symm.trans (hquiet timestamp)) (by simp)

-- Nothing that could be handed on is left when no thread propagates: the first context still
-- runs, or there is none and downstream knows the bound.
theorem idle_strands_nothing (final : OutputStreamHandler ω) (events : List (Event ω))
    (hrun : Transition.run step prepareForRun events = some final)
    (hidle : final.propagationState = .idle) :
    (∀ timestamp ∈ (unpropagated final).head?, final.runs timestamp = true) ∧
      (unpropagated final = [] →
        Covers (Transition.log step propagated prepareForRun events) final.taskTimestampBound) := by
  have hvalid := run_valid prepareForRun_valid hrun
  have habsent := absent_of_idle hvalid hidle
  have hreported := Transition.log_invariant (fun state past => state.Valid ∧ Reported past state)
    propagated events prepareForRun final []
    (fun _ event _ _ hvisits hboth => ⟨step_valid event hvisits.step_eq hboth.1,
      step_reported event hvisits.step_eq hboth.1 hboth.2⟩)
    ⟨prepareForRun_valid, fun _ => .inl rfl⟩ hrun
  replace hreported := hreported.2
  unfold Reported at hreported
  simp only [habsent, List.nil_append] at hreported
  refine ⟨idle_front_runs hvalid hidle, fun hnone => hreported ?_⟩
  unfold unpropagated at hnone
  simp only [habsent] at hnone
  exact List.map_eq_nil_iff.mp hnone

-- The bound lies behind what has been handed on, and is not propagated by itself.
theorem idle_strands_nothing_outOfOrder :
    ∃ final, Transition.run step prepareForRun (outOfOrder ++ [.recycleCalculatorContext, .lock]) = some final ∧
      Covers (Transition.log step propagated prepareForRun (outOfOrder ++ [.recycleCalculatorContext, .lock]))
        final.taskTimestampBound := by
  obtain ⟨final, hfinal⟩ := Option.isSome_iff_exists.mp
    (show (Transition.run step prepareForRun
      (outOfOrder ++ [.recycleCalculatorContext, .lock])).isSome by decide +kernel)
  have hidle : final.propagationState = .idle := by
    cases hfinal
    decide +kernel
  have hnone : unpropagated final = [] := by
    cases hfinal
    decide +kernel
  exact ⟨final, hfinal, (idle_strands_nothing final _ hfinal hidle).2 hnone⟩

section End

-- How many turns the propagation thread has at most before it finds nothing to do, beside
-- three for each completed timestamp.
def turns : PropagationThread → PropagationState → Nat
  | .absent, _ => 0
  | .propagating _, _ => 4
  | .recycling _, _ => 3
  | .locking _, _ => 2
  | .bounding _, .propagationPending => 6
  | .relocking _, .propagationPending => 5
  | .bounding _, _ => 2
  | .relocking _, _ => 1

def remaining (handler : OutputStreamHandler ω) : Nat :=
  3 * handler.completedInputTimestamps.length + turns handler.thread handler.propagationState

theorem remaining_le (handler : OutputStreamHandler ω) :
    remaining handler ≤ 3 * handler.completedInputTimestamps.length + 6 := by
  have hturns : turns handler.thread handler.propagationState ≤ 6 := by
    unfold turns
    split <;> omega
  unfold remaining
  omega

theorem step_turn {event : Event ω} (hvalid : handler.Valid) (hturn : turn handler = some event) :
    ∃ after, step event handler = some after ∧ remaining after < remaining handler := by
  have hphase := hvalid.phase
  unfold Phase at hphase
  unfold turn at hturn
  cases hthread : handler.thread with
  | absent => simp [hthread] at hturn
  | propagating contextTimestamp =>
      simp only [hthread, Option.some.injEq] at hturn
      subst hturn
      refine ⟨{ handler with thread := .recycling contextTimestamp }, by simp [step, hthread], ?_⟩
      simp [remaining, turns, hthread]
  | recycling contextTimestamp =>
      simp only [hthread, Option.some.injEq] at hturn
      subst hturn
      refine ⟨{ handler with
        activeContexts := handler.activeContexts.tail
        thread := .locking contextTimestamp }, by simp [step, hthread], ?_⟩
      simp [remaining, turns, hthread]
  | locking contextTimestamp =>
      simp only [hthread, Option.some.injEq] at hturn hphase
      subst hturn
      have hstep : step .lock handler = handler.afterPackets contextTimestamp := by simp [step, hthread]
      rw [hstep]
      obtain ⟨rest, hrest, _, ⟨_, _, hsome⟩ | ⟨_, _, hsome⟩ | ⟨_, _, _, ⟨_, hsome⟩ | ⟨_, hsome⟩⟩⟩ :=
        afterPackets_cases hphase
      all_goals
        refine ⟨_, hsome, ?_⟩
        simp only [remaining, turns, hthread, hrest, idle, propagatingBound, propagatingPackets, erased,
          List.length_cons]
        omega
  | bounding boundToPropagate =>
      simp only [hthread, Option.some.injEq] at hturn
      subst hturn
      refine ⟨{ handler with thread := .relocking boundToPropagate }, by simp [step, hthread], ?_⟩
      cases hstate : handler.propagationState <;> simp [remaining, turns, hthread, hstate]
  | relocking boundToPropagate =>
      simp only [hthread, Option.some.injEq] at hturn hphase
      subst hturn
      have hstep : step .relock handler = handler.afterBound boundToPropagate := by simp [step, hthread]
      rw [hstep]
      rcases afterBound_cases hphase with ⟨hstate, _, _, hsome⟩ | ⟨hstate, _, _, hsome⟩ |
        ⟨_, _, hstate, _, ⟨_, hsome⟩ | ⟨_, hsome⟩⟩
      all_goals
        refine ⟨_, hsome, ?_⟩
        simp only [remaining, turns, hthread, hstate, idle, propagatingBound, propagatingPackets]
        omega

-- The propagation thread comes to an end by itself. If no calculator runs then, every
-- invocation that was prepared has been handed on.
theorem propagation_ends (final : OutputStreamHandler ω) (events : List (Event ω))
    (hrun : Transition.run step prepareForRun events = some final) :
    ∃ more last, more.length ≤ 3 * final.completedInputTimestamps.length + 6 ∧
      (∀ event ∈ more, ∃ state, turn state = some event) ∧
      Transition.run step final more = some last ∧ last.propagationState = .idle ∧
      ((∀ timestamp, final.runs timestamp = false) →
        Transition.log step prepared prepareForRun events =
          (Transition.log step propagated prepareForRun (events ++ more)).filterMap
            Propagated.inputTimestamp) := by
  have hvalid := run_valid prepareForRun_valid hrun
  obtain ⟨more, last, hlength, hturns, hmore, ⟨hlast, hcontexts⟩, hnone⟩ := Transition.run_ends remaining turn
    (fun state => state.Valid ∧ ∀ context ∈ state.activeContexts, context ∈ final.activeContexts)
    (fun state event hboth hturn => by
      obtain ⟨next, hnext, hless⟩ := step_turn hboth.1 hturn
      exact ⟨next, hnext, ⟨step_valid event hnext hboth.1, fun context hcontext =>
        hboth.2 context (turn_contexts hboth.1 hturn hnext context hcontext)⟩, hless⟩)
    final ⟨hvalid, fun _ hcontext => hcontext⟩
  have habsent : last.thread = .absent := by
    unfold turn at hnone
    split at hnone
    · assumption
    all_goals cases hnone
  have hidle := idle_of_absent hlast habsent
  have hrun' : Transition.run step prepareForRun (events ++ more) = some last := by
    rw [Transition.run_append, hrun]
    exact hmore
  refine ⟨more, last, hlength.trans (remaining_le final), hturns, hmore, hidle, fun hquiet => ?_⟩
  have hnone : unpropagated last = [] := unpropagated_nil hlast hidle fun timestamp => by
    refine Bool.eq_false_iff.mpr fun hruns => ?_
    obtain ⟨context, hcontext, hboth⟩ := List.any_eq_true.mp hruns
    have hruns' : final.runs timestamp = true :=
      List.any_eq_true.mpr ⟨context, hcontexts context hcontext, hboth⟩
    exact absurd (hruns'.symm.trans (hquiet timestamp)) (by simp)
  have hflow := run_propagated hrun'
  rw [hnone, List.append_nil, Transition.log_append _ _ _ hrun, Transition.log_quiet prepared more,
    List.append_nil] at hflow
  · exact hflow
  · intro event hevent state
    obtain ⟨other, hturn⟩ := hturns event hevent
    rcases turn_cases hturn with rfl | rfl | rfl | rfl | rfl <;> rfl

theorem propagation_ends_outOfOrder :
    ∃ final more last, Transition.run step prepareForRun outOfOrder = some final ∧
      Transition.run step final more = some last ∧ last.propagationState = .idle := by
  obtain ⟨final, hfinal⟩ := Option.isSome_iff_exists.mp
    (show (Transition.run step prepareForRun outOfOrder).isSome by decide +kernel)
  obtain ⟨more, last, _, _, hmore, hidle, _⟩ := propagation_ends final outOfOrder hfinal
  exact ⟨final, more, last, hfinal, hmore, hidle⟩

end End

end OutputStreamHandler

end SpaceInvaders.Mediapipe

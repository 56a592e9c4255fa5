import SpaceInvaders.Mediapipe.OutputStreamHandler.Progress

namespace SpaceInvaders.Mediapipe

namespace OutputStreamHandler

variable {ω : Type} {handler after : OutputStreamHandler ω}

-- The eight transitions that the source lists, and one more: a bound that comes while another
-- one is being propagated is propagated next.
def transitions : List (PropagationState × PropagationState) :=
  [(.idle, .propagatingPackets), (.idle, .propagatingBound), (.propagatingPackets, .idle),
    (.propagatingPackets, .propagatingBound), (.propagatingBound, .propagationPending),
    (.propagationPending, .propagatingPackets), (.propagatingBound, .idle), (.propagationPending, .idle),
    (.propagationPending, .propagatingBound)]

theorem note_transition (hnote : handler.notePropagation = some after) :
    handler.propagationState = after.propagationState ∨
      (handler.propagationState, after.propagationState) ∈ transitions := by
  rcases notePropagation_cases hnote with ⟨hstate, rfl⟩ | ⟨hstate, _, rfl⟩ | ⟨_, _, hstate, _, _, rfl⟩ |
    ⟨_, rfl, _⟩
  · simp [hstate, transitions]
  · simp [hstate, transitions, propagatingBound]
  · simp [hstate, transitions, propagatingPackets]
  · exact .inl rfl

theorem step_transition (event : Event ω) (h : step event handler = some after) (hvalid : handler.Valid) :
    handler.propagationState = after.propagationState ∨
      (handler.propagationState, after.propagationState) ∈ transitions := by
  have hphase := hvalid.phase
  unfold Phase at hphase
  cases event with
  | prepareCalculatorContext inputTimestamp =>
      obtain ⟨_, _, rfl⟩ := step_prepareCalculatorContext hvalid h
      exact .inl rfl
  | updateTaskTimestampBound timestamp =>
      obtain ⟨_, ⟨_, rfl⟩ | ⟨_, hnote⟩⟩ := step_updateTaskTimestampBound h
      · exact .inl rfl
      · have hchange := note_transition hnote
        exact hchange
  | postProcess inputTimestamp outputs =>
      have hchange := note_transition (step_postProcess h).2
      exact hchange
  | propagateOutputPackets =>
      obtain ⟨_, _, rfl⟩ := step_propagateOutputPackets h
      exact .inl rfl
  | recycleCalculatorContext =>
      obtain ⟨_, _, rfl⟩ := step_recycleCalculatorContext h
      exact .inl rfl
  | lock =>
      obtain ⟨_, hthread, hafter⟩ := step_lock h
      simp only [hthread] at hphase
      rw [hphase.state]
      obtain ⟨rest, _, _, ⟨_, _, hsome⟩ | ⟨_, _, hsome⟩ | ⟨_, _, _, ⟨_, hsome⟩ | ⟨_, hsome⟩⟩⟩ :=
        afterPackets_cases hphase
      all_goals
        cases hsome.symm.trans hafter
        simp [transitions, idle, propagatingBound, propagatingPackets]
  | tryPropagateTimestampBound =>
      obtain ⟨_, _, rfl⟩ := step_tryPropagateTimestampBound h
      exact .inl rfl
  | relock =>
      obtain ⟨_, hthread, hafter⟩ := step_relock h
      simp only [hthread] at hphase
      rcases afterBound_cases hphase with ⟨hstate, _, _, hsome⟩ | ⟨hstate, _, _, hsome⟩ |
        ⟨_, _, hstate, _, ⟨_, hsome⟩ | ⟨_, hsome⟩⟩
      all_goals
        cases hsome.symm.trans hafter
        simp [hstate, transitions, idle, propagatingBound, propagatingPackets]

-- Each of them is made by some run, and no other one by any.
theorem transitions_exact (outputs : ω) (first second : PropagationState) :
    (first ≠ second ∧ ∃ events event before after,
        Transition.run step (prepareForRun : OutputStreamHandler ω) events = some before ∧
          step event before = some after ∧ before.propagationState = first ∧
          after.propagationState = second) ↔
      (first, second) ∈ transitions := by
  constructor
  · rintro ⟨hne, events, event, before, after, hrun, hstep, rfl, rfl⟩
    exact (step_transition event hstep (run_valid prepareForRun_valid hrun)).resolve_left hne
  · intro h
    simp only [transitions, List.mem_cons, Prod.mk.injEq, List.not_mem_nil, or_false] at h
    rcases h with ⟨rfl, rfl⟩ | ⟨rfl, rfl⟩ | ⟨rfl, rfl⟩ | ⟨rfl, rfl⟩ | ⟨rfl, rfl⟩ | ⟨rfl, rfl⟩ | ⟨rfl, rfl⟩ |
      ⟨rfl, rfl⟩ | ⟨rfl, rfl⟩
    · exact ⟨by decide, [.prepareCalculatorContext .min], .postProcess .min outputs, _, _, rfl, rfl, rfl, rfl⟩
    · exact ⟨by decide, [], .updateTaskTimestampBound .min, _, _, rfl, rfl, rfl, rfl⟩
    · exact ⟨by decide, [.prepareCalculatorContext .min, .postProcess .min outputs, .propagateOutputPackets,
        .recycleCalculatorContext], .lock, _, _, rfl, rfl, rfl, rfl⟩
    · exact ⟨by decide, [.prepareCalculatorContext .min, .updateTaskTimestampBound .max,
        .postProcess .min outputs, .propagateOutputPackets, .recycleCalculatorContext], .lock, _, _, rfl,
        rfl, rfl, rfl⟩
    · exact ⟨by decide, [.updateTaskTimestampBound .min], .updateTaskTimestampBound .max, _, _, rfl, rfl,
        rfl, rfl⟩
    · exact ⟨by decide, [.updateTaskTimestampBound .min, .prepareCalculatorContext .min,
        .postProcess .min outputs, .tryPropagateTimestampBound], .relock, _, _, rfl, rfl, rfl, rfl⟩
    · exact ⟨by decide, [.updateTaskTimestampBound .min, .tryPropagateTimestampBound], .relock, _, _, rfl,
        rfl, rfl, rfl⟩
    · exact ⟨by decide, [.updateTaskTimestampBound .min, .updateTaskTimestampBound .max,
        .prepareCalculatorContext .max, .tryPropagateTimestampBound], .relock, _, _, rfl, rfl, rfl, rfl⟩
    · exact ⟨by decide, [.updateTaskTimestampBound .min, .updateTaskTimestampBound .max,
        .tryPropagateTimestampBound], .relock, _, _, rfl, rfl, rfl, rfl⟩

-- No CHECK fails, whichever thread is next.
theorem calls_succeed (final : OutputStreamHandler ω) (events : List (Event ω))
    (hrun : Transition.run step prepareForRun events = some final) :
    (∀ inputTimestamp, inputTimestamp.IsAllowedInStream → final.reached ≤ invocationPlace inputTimestamp →
        ∃ after, step (.prepareCalculatorContext inputTimestamp) final = some after) ∧
      (∀ timestamp, final.reached ≤ boundPlace timestamp →
        ∃ after, step (.updateTaskTimestampBound timestamp) final = some after) ∧
      (∀ inputTimestamp outputs, final.runs inputTimestamp = true →
        ∃ after, step (.postProcess inputTimestamp outputs) final = some after) ∧
      ∀ event, turn final = some event → ∃ after, step event final = some after := by
  have hvalid := run_valid prepareForRun_valid hrun
  refine ⟨fun _ => prepare_isSome hvalid, fun _ => update_isSome hvalid, fun _ outputs => post_isSome outputs hvalid,
    fun event hturn => ?_⟩
  obtain ⟨after, hafter, _⟩ := step_turn hvalid hturn
  exact ⟨after, hafter⟩

theorem calls_succeed_outOfOrder :
    ∃ final after, Transition.run step prepareForRun (outOfOrder ++ [.recycleCalculatorContext]) = some final ∧
      step .lock final = some after := by
  obtain ⟨final, hfinal⟩ := Option.isSome_iff_exists.mp
    (show (Transition.run step prepareForRun (outOfOrder ++ [.recycleCalculatorContext])).isSome by
      decide +kernel)
  have hturn : turn final = some .lock := by
    cases hfinal
    rfl
  obtain ⟨after, hafter⟩ := (calls_succeed final _ hfinal).2.2.2 .lock hturn
  exact ⟨final, after, hfinal, hafter⟩

end OutputStreamHandler

end SpaceInvaders.Mediapipe

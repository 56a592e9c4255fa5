import SpaceInvaders.Mediapipe.OutputStreamHandler.Steps

namespace SpaceInvaders.Mediapipe

def Propagated.inputTimestamp {ω : Type} : Propagated ω → Option Timestamp
  | .packets inputTimestamp _ => some inputTimestamp
  | .bound _ => none

namespace OutputStreamHandler

variable {ω : Type}

-- The contexts whose outputs have not been handed on.
def unpropagated (handler : OutputStreamHandler ω) : List Timestamp :=
  match handler.thread with
  | .recycling _ => handler.timestamps.tail
  | _ => handler.timestamps

def handedOn (event : Event ω) (handler : OutputStreamHandler ω) : List Timestamp :=
  (propagated event handler).filterMap Propagated.inputTimestamp

-- What has been handed on lies below this place in the order of time, and what will be does not.
def floor (handler : OutputStreamHandler ω) : Int :=
  match handler.thread, handler.activeContexts with
  | .propagating contextTimestamp, _ => invocationPlace contextTimestamp
  | .recycling contextTimestamp, _ => invocationPlace contextTimestamp + 1
  | .locking contextTimestamp, _ => invocationPlace contextTimestamp + 1
  | .bounding boundToPropagate, _ => boundPlace boundToPropagate
  | .relocking boundToPropagate, _ => boundPlace boundToPropagate + 1
  | .absent, [] => max handler.reached (boundPlace handler.taskTimestampBound + 1)
  | .absent, context :: _ => invocationPlace context.inputTimestamp

section Step

variable {handler after : OutputStreamHandler ω}

theorem absent_of_idle (hvalid : handler.Valid) (hidle : handler.propagationState = .idle) :
    handler.thread = .absent := by
  have hphase := hvalid.phase
  unfold Phase at hphase
  cases hthread : handler.thread with
  | absent => rfl
  | propagating contextTimestamp | recycling contextTimestamp | locking contextTimestamp =>
      simp only [hthread] at hphase
      exact absurd (hidle.symm.trans hphase.state) (by simp)
  | bounding boundToPropagate | relocking boundToPropagate =>
      simp only [hthread] at hphase
      rcases hphase.state with ⟨hstate, _⟩ | ⟨hstate, _⟩
      · exact absurd (hidle.symm.trans hstate) (by simp)
      · exact absurd (hidle.symm.trans hstate) (by simp)

-- A note leaves the thread where it is, or starts one that was absent.
theorem notePropagation_frame (h : handler.notePropagation = some after) :
    after.activeContexts = handler.activeContexts ∧
      after.completedInputTimestamps = handler.completedInputTimestamps ∧
      after.taskTimestampBound = handler.taskTimestampBound ∧ after.reached = handler.reached ∧
      (after.thread = handler.thread ∨
        handler.propagationState = .idle ∧ handler.activeContexts = [] ∧
          after.thread = .bounding handler.taskTimestampBound ∨
        handler.propagationState = .idle ∧ ∃ context contexts,
          handler.activeContexts = context :: contexts ∧
            after.thread = .propagating context.inputTimestamp) := by
  rcases notePropagation_cases h with ⟨_, rfl⟩ | ⟨hstate, hnone, rfl⟩ |
    ⟨context, contexts, hstate, hcontexts, _, rfl⟩ | ⟨_, rfl, _⟩
  · exact ⟨rfl, rfl, rfl, rfl, .inl rfl⟩
  · exact ⟨rfl, rfl, rfl, rfl, .inr (.inl ⟨hstate, hnone, rfl⟩)⟩
  · exact ⟨rfl, rfl, rfl, rfl, .inr (.inr ⟨hstate, context, contexts, hcontexts, rfl⟩)⟩
  · exact ⟨rfl, rfl, rfl, rfl, .inl rfl⟩

theorem front_outputs {contextTimestamp : Timestamp} (hkept : handler.Kept)
    (hfront : handler.Front contextTimestamp) :
    ∃ outputs, handler.frontOutputs contextTimestamp = some outputs := by
  obtain ⟨context, contexts, hcontexts, rfl⟩ := hfront.split
  have hmem : context.inputTimestamp ∈ handler.completedInputTimestamps :=
    List.mem_of_mem_head? hfront.completed
  obtain ⟨outputs, houtputs⟩ := Option.isSome_iff_exists.mp
    ((hkept.outputs context (by simp [hcontexts])).mpr hmem)
  exact ⟨outputs, by simp [frontOutputs, hcontexts, houtputs]⟩

theorem propagated_packets (hvalid : handler.Valid)
    (h : step .propagateOutputPackets handler = some after) :
    ∃ contextTimestamp outputs, handler.thread = .propagating contextTimestamp ∧
      handler.frontOutputs contextTimestamp = some outputs ∧ handler.Front contextTimestamp ∧
      propagated .propagateOutputPackets handler = [.packets contextTimestamp outputs] ∧
      after = { handler with thread := .recycling contextTimestamp } := by
  obtain ⟨contextTimestamp, hthread, hafter⟩ := step_propagateOutputPackets h
  have hphase := hvalid.phase
  unfold Phase at hphase
  simp only [hthread] at hphase
  obtain ⟨outputs, houtputs⟩ := front_outputs hvalid.kept hphase
  exact ⟨contextTimestamp, outputs, hthread, houtputs, hphase,
    by simp [propagated, hthread, houtputs], hafter⟩

theorem propagated_bound (h : step .tryPropagateTimestampBound handler = some after) :
    ∃ boundToPropagate, handler.thread = .bounding boundToPropagate ∧
      propagated .tryPropagateTimestampBound handler = [.bound boundToPropagate] ∧
      after = { handler with thread := .relocking boundToPropagate } := by
  obtain ⟨boundToPropagate, hthread, hafter⟩ := step_tryPropagateTimestampBound h
  exact ⟨boundToPropagate, hthread, by simp [propagated, hthread], hafter⟩

theorem note_unpropagated (h : handler.notePropagation = some after)
    (hthread : handler.propagationState = .idle → handler.thread = .absent) :
    unpropagated after = unpropagated handler := by
  obtain ⟨hcontexts, _, _, _, hafter⟩ := notePropagation_frame h
  unfold unpropagated timestamps
  rw [hcontexts]
  rcases hafter with hafter | ⟨hidle, _, hafter⟩ | ⟨hidle, _, _, _, hafter⟩
  · rw [hafter]
  · rw [hafter, hthread hidle]
  · rw [hafter, hthread hidle]

-- The contexts are handed on in the order in which they were prepared, and none is lost.
theorem step_flow (event : Event ω) (h : step event handler = some after) (hvalid : handler.Valid) :
    unpropagated handler ++ prepared event handler = handedOn event handler ++ unpropagated after := by
  have habsent : handler.propagationState = .idle → handler.thread = .absent := absent_of_idle hvalid
  cases event with
  | prepareCalculatorContext inputTimestamp =>
      obtain ⟨_, _, rfl⟩ := step_prepareCalculatorContext hvalid h
      have hphase := hvalid.phase
      unfold Phase at hphase
      unfold unpropagated timestamps prepared handedOn propagated
      cases hthread : handler.thread with
      | recycling contextTimestamp =>
          simp only [hthread] at hphase
          obtain ⟨context, contexts, hcontexts, _⟩ := hphase.split
          simp [hcontexts]
      | _ => simp
  | updateTaskTimestampBound timestamp =>
      obtain ⟨_, ⟨_, rfl⟩ | ⟨_, hnote⟩⟩ := step_updateTaskTimestampBound h
      · simp [prepared, handedOn, propagated, unpropagated, timestamps]
      · rw [note_unpropagated hnote habsent]
        simp [prepared, handedOn, propagated, unpropagated, timestamps]
  | postProcess inputTimestamp outputs =>
      obtain ⟨_, hnote⟩ := step_postProcess h
      rw [note_unpropagated hnote habsent]
      have htimestamps : (handler.posted inputTimestamp outputs).timestamps = handler.timestamps :=
        finish_timestamps
      unfold unpropagated
      rw [htimestamps, show (handler.posted inputTimestamp outputs).thread = handler.thread from rfl]
      simp [prepared, handedOn, propagated]
  | propagateOutputPackets =>
      obtain ⟨contextTimestamp, outputs, hthread, _, hfront, hpropagated, rfl⟩ := propagated_packets hvalid h
      obtain ⟨contexts, hcontexts⟩ := List.head?_eq_some_iff.mp hfront.context
      unfold handedOn
      rw [hpropagated]
      simp only [unpropagated, hthread, prepared, List.append_nil, hcontexts]
      unfold timestamps at hcontexts ⊢
      simp [hcontexts, Propagated.inputTimestamp]
  | recycleCalculatorContext =>
      obtain ⟨contextTimestamp, hthread, rfl⟩ := step_recycleCalculatorContext h
      simp [unpropagated, hthread, prepared, handedOn, propagated, timestamps]
  | lock =>
      obtain ⟨contextTimestamp, hthread, hafter⟩ := step_lock h
      have hphase := hvalid.phase
      unfold Phase at hphase
      simp only [hthread] at hphase
      obtain ⟨rest, _, _, ⟨_, _, hsome⟩ | ⟨_, _, hsome⟩ | ⟨context, contexts, _, ⟨_, hsome⟩ | ⟨_, hsome⟩⟩⟩ :=
        afterPackets_cases hphase
      all_goals
        cases hsome.symm.trans hafter
        simp [unpropagated, hthread, prepared, handedOn, propagated, timestamps, idle, propagatingBound,
          propagatingPackets, erased]
  | tryPropagateTimestampBound =>
      obtain ⟨boundToPropagate, hthread, hpropagated, rfl⟩ := propagated_bound h
      unfold handedOn
      rw [hpropagated]
      simp [unpropagated, hthread, prepared, timestamps, Propagated.inputTimestamp]
  | relock =>
      obtain ⟨boundToPropagate, hthread, hafter⟩ := step_relock h
      have hphase := hvalid.phase
      unfold Phase at hphase
      simp only [hthread] at hphase
      rcases afterBound_cases hphase with ⟨_, _, _, hsome⟩ | ⟨_, _, _, hsome⟩ |
        ⟨context, contexts, _, _, ⟨_, hsome⟩ | ⟨_, hsome⟩⟩
      all_goals
        cases hsome.symm.trans hafter
        simp [unpropagated, hthread, prepared, handedOn, propagated, timestamps, idle, propagatingBound,
          propagatingPackets]

theorem prepare_floor {inputTimestamp : Timestamp}
    (h : step (.prepareCalculatorContext inputTimestamp) handler = some after) (hvalid : handler.Valid) :
    floor handler ≤ floor after := by
  obtain ⟨_, hreached, rfl⟩ := step_prepareCalculatorContext hvalid h
  have hbounded := hvalid.kept.bounded
  unfold floor
  cases hthread : handler.thread with
  | absent =>
      cases hcontexts : handler.activeContexts with
      | nil =>
          simp only [List.nil_append]
          unfold invocationPlace at hreached ⊢
          unfold boundPlace at hbounded ⊢
          omega
      | cons context contexts => exact le_rfl
  | _ => exact le_rfl

-- What the handler has reached and its bound count only where no thread and no invocation is
-- before them.
theorem raised_floor {timestamp : Timestamp} {reached : Int} (hreached : handler.reached ≤ reached)
    (hbound : boundPlace handler.taskTimestampBound ≤ boundPlace timestamp) :
    floor handler ≤ floor { handler with taskTimestampBound := timestamp, reached := reached } := by
  unfold floor
  cases hthread : handler.thread with
  | absent =>
      cases hcontexts : handler.activeContexts with
      | nil => exact max_le_max hreached (Int.add_le_add_right hbound 1)
      | cons context contexts => exact le_rfl
  | _ => exact le_rfl

-- A thread that starts takes up the first invocation, or the bound where there is none.
theorem note_floor {low : Int} (h : handler.notePropagation = some after)
    (habsent : handler.propagationState = .idle → handler.thread = .absent) (hlow : low ≤ floor handler)
    (hbound : handler.propagationState = .idle → handler.activeContexts = [] →
      low ≤ boundPlace handler.taskTimestampBound) : low ≤ floor after := by
  obtain ⟨hcontexts, _, htask, hreach, hafter⟩ := notePropagation_frame h
  rcases hafter with hafter | ⟨hidle, hnone, hafter⟩ | ⟨hidle, context, contexts, hsome, hafter⟩
  · refine hlow.trans_eq ?_
    unfold floor
    rw [hafter, hcontexts, htask, hreach]
  · refine (hbound hidle hnone).trans_eq ?_
    simp only [floor, hafter]
  · refine hlow.trans_eq ?_
    unfold floor
    rw [hafter, habsent hidle, hsome]

theorem update_floor {timestamp : Timestamp}
    (h : step (.updateTaskTimestampBound timestamp) handler = some after) (hvalid : handler.Valid) :
    floor handler ≤ floor after := by
  obtain ⟨hreached, ⟨heq, rfl⟩ | ⟨hlater, hnote⟩⟩ := step_updateTaskTimestampBound h
  · subst heq
    exact raised_floor hreached le_rfl
  · have hlt := bound_lt_bound.mpr hlater
    have habsent : handler.propagationState = .idle → handler.thread = .absent := absent_of_idle hvalid
    refine note_floor hnote habsent (raised_floor hreached hlt.le) fun hidle hnone => ?_
    have hfloor : floor handler = max handler.reached (boundPlace handler.taskTimestampBound + 1) := by
      unfold floor
      rw [habsent hidle, show handler.activeContexts = [] from hnone]
    rw [hfloor]
    exact max_le hreached (Int.add_one_le_of_lt hlt)

theorem posted_floor (inputTimestamp : Timestamp) (outputs : ω) :
    floor (handler.posted inputTimestamp outputs) = floor handler := by
  unfold floor posted finish
  cases hthread : handler.thread with
  | absent =>
      cases hactive : handler.activeContexts with
      | nil => rfl
      | cons context contexts =>
          simp only [List.map_cons]
          split <;> rfl
  | _ => rfl

theorem post_floor {inputTimestamp : Timestamp} {outputs : ω}
    (h : step (.postProcess inputTimestamp outputs) handler = some after) (hvalid : handler.Valid) :
    floor handler ≤ floor after := by
  obtain ⟨hruns, hnote⟩ := step_postProcess h
  have habsent : handler.propagationState = .idle → handler.thread = .absent := absent_of_idle hvalid
  refine note_floor hnote habsent (posted_floor inputTimestamp outputs).ge fun _ hnone => ?_
  -- The context that has just been finished is there.
  have htimestamps : (handler.finish inputTimestamp outputs).timestamps = handler.timestamps :=
    finish_timestamps
  have hmem := (runs_spec hvalid.kept hruns).1
  rw [← htimestamps] at hmem
  unfold timestamps at hmem
  rw [show (handler.finish inputTimestamp outputs).activeContexts = [] from hnone] at hmem
  cases hmem

theorem lock_floor (h : step .lock handler = some after) (hvalid : handler.Valid) :
    floor handler ≤ floor after := by
  obtain ⟨contextTimestamp, hthread, hafter⟩ := step_lock h
  have hphase := hvalid.phase
  unfold Phase at hphase
  simp only [hthread] at hphase
  have hfloor : floor handler = invocationPlace contextTimestamp + 1 := by simp only [floor, hthread]
  rw [hfloor]
  obtain ⟨rest, _, _, ⟨hnone, _, hsome⟩ | ⟨_, hbound, hsome⟩ | ⟨context, contexts, hcontexts, hfront⟩⟩ :=
    afterPackets_cases hphase
  · cases hsome.symm.trans hafter
    simp only [floor, idle, erased, hnone]
    exact le_max_of_le_left hphase.called
  · cases hsome.symm.trans hafter
    have hnext : contextTimestamp < handler.taskTimestampBound :=
      (Timestamp.lt_next contextTimestamp hphase.allowed).trans hbound
    exact Int.add_one_le_of_lt (place_lt_bound.mpr hnext)
  · have hlater : invocationPlace contextTimestamp < invocationPlace context.inputTimestamp :=
      place_lt.mpr (hphase.later _ (by simp [timestamps, hcontexts]))
    rcases hfront with ⟨_, hsome⟩ | ⟨_, hsome⟩
    · cases hsome.symm.trans hafter
      exact hlater
    · cases hsome.symm.trans hafter
      simp only [floor, idle, erased, hcontexts]
      exact hlater

theorem relock_floor (h : step .relock handler = some after) (hvalid : handler.Valid) :
    floor handler ≤ floor after := by
  obtain ⟨boundToPropagate, hthread, hafter⟩ := step_relock h
  have hphase := hvalid.phase
  unfold Phase at hphase
  simp only [hthread] at hphase
  have hfloor : floor handler = boundPlace boundToPropagate + 1 := by simp only [floor, hthread]
  have hbound := bound_le_bound.mpr hphase.bound
  rw [hfloor]
  rcases afterBound_cases hphase with ⟨_, heq, _, hsome⟩ | ⟨_, _, hlater, hsome⟩ |
    ⟨context, contexts, _, hcontexts, hfront⟩
  · cases hsome.symm.trans hafter
    cases hcontexts : handler.activeContexts with
    | nil =>
        simp only [floor, idle, hcontexts]
        exact le_max_of_le_right (by omega)
    | cons context contexts =>
        simp only [floor, idle, hcontexts]
        exact bound_lt_place (hphase.before _ (by simp [timestamps, hcontexts]))
  · cases hsome.symm.trans hafter
    exact bound_lt_bound.mpr hlater
  · have hlater := bound_lt_place (hphase.before context.inputTimestamp (by simp [timestamps, hcontexts]))
    rcases hfront with ⟨_, hsome⟩ | ⟨_, hsome⟩
    · cases hsome.symm.trans hafter
      exact hlater
    · cases hsome.symm.trans hafter
      simp only [floor, idle, hcontexts]
      exact hlater

theorem step_floor (event : Event ω) (h : step event handler = some after) (hvalid : handler.Valid) :
    Transition.EmitsBetween Propagated.place (propagated event handler) (floor handler) (floor after) := by
  cases event with
  | prepareCalculatorContext inputTimestamp => exact Transition.EmitsBetween.nil _ (prepare_floor h hvalid)
  | updateTaskTimestampBound timestamp => exact Transition.EmitsBetween.nil _ (update_floor h hvalid)
  | postProcess inputTimestamp outputs => exact Transition.EmitsBetween.nil _ (post_floor h hvalid)
  | propagateOutputPackets =>
      obtain ⟨contextTimestamp, outputs, hthread, _, _, hpropagated, rfl⟩ := propagated_packets hvalid h
      rw [hpropagated]
      simp only [floor, hthread]
      exact ⟨List.pairwise_singleton _ _, by simp [Propagated.place], by omega⟩
  | recycleCalculatorContext =>
      obtain ⟨contextTimestamp, hthread, rfl⟩ := step_recycleCalculatorContext h
      exact Transition.EmitsBetween.nil _ (by simp [floor, hthread])
  | lock => exact Transition.EmitsBetween.nil _ (lock_floor h hvalid)
  | tryPropagateTimestampBound =>
      obtain ⟨boundToPropagate, hthread, hpropagated, rfl⟩ := propagated_bound h
      rw [hpropagated]
      simp only [floor, hthread]
      exact ⟨List.pairwise_singleton _ _, by simp [Propagated.place], by omega⟩
  | relock => exact Transition.EmitsBetween.nil _ (relock_floor h hvalid)

end Step

end OutputStreamHandler

end SpaceInvaders.Mediapipe

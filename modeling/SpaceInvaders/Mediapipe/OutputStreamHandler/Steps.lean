import SpaceInvaders.Mediapipe.OutputStreamHandler.Valid

namespace SpaceInvaders.Mediapipe

namespace OutputStreamHandler

variable {ω : Type} {handler after : OutputStreamHandler ω}

theorem place_lt {first second : Timestamp} :
    invocationPlace first < invocationPlace second ↔ first < second := by
  unfold invocationPlace
  rw [Timestamp.lt_iff]
  omega

theorem place_lt_bound {timestamp bound : Timestamp} :
    invocationPlace timestamp < boundPlace bound ↔ timestamp < bound := by
  unfold invocationPlace boundPlace
  rw [Timestamp.lt_iff]
  omega

theorem bound_le_place {bound timestamp : Timestamp} :
    boundPlace bound ≤ invocationPlace timestamp ↔ bound ≤ timestamp := by
  unfold invocationPlace boundPlace
  rw [Timestamp.le_iff]
  omega

theorem bound_lt_place {bound timestamp : Timestamp} (h : bound ≤ timestamp) :
    boundPlace bound < invocationPlace timestamp := by
  unfold invocationPlace boundPlace
  rw [Timestamp.le_iff] at h
  omega

theorem bound_lt_bound {first second : Timestamp} : boundPlace first < boundPlace second ↔ first < second := by
  unfold boundPlace
  rw [Timestamp.lt_iff]
  omega

theorem bound_le_bound {first second : Timestamp} :
    boundPlace first ≤ boundPlace second ↔ first ≤ second := by
  unfold boundPlace
  rw [Timestamp.le_iff]
  omega

-- Only contexts that were called for are completed.
theorem completed_called (h : handler.Valid) :
    ∀ timestamp ∈ handler.completedInputTimestamps, invocationPlace timestamp < handler.reached := by
  intro timestamp hmem
  have hactive : timestamp ∈ handler.timestamps → invocationPlace timestamp < handler.reached :=
    h.kept.called timestamp
  have hphase := h.phase
  unfold Phase at hphase
  cases hthread : handler.thread with
  | absent =>
      simp only [hthread] at hphase
      exact hactive (hphase.active timestamp hmem)
  | propagating contextTimestamp | recycling contextTimestamp =>
      simp only [hthread] at hphase
      exact hactive (hphase.active timestamp hmem)
  | locking contextTimestamp =>
      simp only [hthread] at hphase
      obtain ⟨rest, hcompleted, hrest⟩ := hphase.completed
      rw [hcompleted] at hmem
      rcases List.mem_cons.mp hmem with rfl | hin
      · exact hphase.called
      · exact hactive (hrest timestamp hin)
  | bounding boundToPropagate | relocking boundToPropagate =>
      simp only [hthread] at hphase
      exact hactive (hphase.active timestamp hmem)

section Prepare

variable {inputTimestamp : Timestamp}

theorem step_prepareCalculatorContext (hvalid : handler.Valid)
    (h : step (.prepareCalculatorContext inputTimestamp) handler = some after) :
    inputTimestamp.IsAllowedInStream ∧ handler.reached ≤ invocationPlace inputTimestamp ∧
      after = { handler with
        reached := invocationPlace inputTimestamp + 1
        activeContexts := handler.activeContexts ++
          [{ inputTimestamp := inputTimestamp, outputs := none }] } := by
  obtain ⟨⟨hallowed, hreached⟩, h⟩ := Option.ite_none_right_eq_some.mp h
  obtain ⟨_, ⟨⟩⟩ := Option.ite_none_left_eq_some.mp h
  refine ⟨hallowed, hreached, ?_⟩
  have hlast := orderedInsert_last { inputTimestamp := inputTimestamp, outputs := none }
    handler.activeContexts fun context hcontext => place_lt.mp
      ((hvalid.kept.called _ (List.mem_map_of_mem hcontext)).trans_le hreached)
  rw [hlast]

theorem prepare_isSome (hvalid : handler.Valid) (hallowed : inputTimestamp.IsAllowedInStream)
    (hreached : handler.reached ≤ invocationPlace inputTimestamp) :
    ∃ after, step (.prepareCalculatorContext inputTimestamp) handler = some after := by
  have hnew : inputTimestamp ∉ handler.activeContexts.map CalculatorContext.inputTimestamp :=
    fun hmem => absurd (hvalid.kept.called inputTimestamp hmem) (not_lt.mpr hreached)
  exact ⟨_, (if_pos ⟨hallowed, hreached⟩).trans (if_neg hnew)⟩

theorem prepare_valid (hvalid : handler.Valid)
    (h : step (.prepareCalculatorContext inputTimestamp) handler = some after) : after.Valid := by
  obtain ⟨hallowed, hreached, hafter⟩ := step_prepareCalculatorContext hvalid h
  have hlater : ∀ timestamp, invocationPlace timestamp < handler.reached → timestamp < inputTimestamp :=
    fun timestamp hplace => place_lt.mp (hplace.trans_le hreached)
  have hnew : inputTimestamp ∉ handler.completedInputTimestamps :=
    fun hmem => absurd (hlater _ (completed_called hvalid inputTimestamp hmem)) (lt_irrefl _)
  have htimestamps : after.timestamps = handler.timestamps ++ [inputTimestamp] := by
    rw [hafter]
    simp [timestamps]
  have hcompleted : after.completedInputTimestamps = handler.completedInputTimestamps := by rw [hafter]
  have htask : after.taskTimestampBound = handler.taskTimestampBound := by rw [hafter]
  have hstate : after.propagationState = handler.propagationState := by rw [hafter]
  have hplace : after.reached = invocationPlace inputTimestamp + 1 := by rw [hafter]
  have hgrow : ∀ timestamp, invocationPlace timestamp < handler.reached →
      invocationPlace timestamp < after.reached := fun timestamp h => by omega
  have hkept := hvalid.kept
  constructor
  · constructor
    · rw [htimestamps, List.pairwise_append]
      refine ⟨hkept.contexts, List.pairwise_singleton _ _, ?_⟩
      simpa using fun timestamp hmem => hlater timestamp (hkept.called timestamp hmem)
    · rw [hcompleted]
      exact hkept.completed
    · rw [htimestamps, List.forall_mem_append, List.forall_mem_singleton]
      exact ⟨hkept.allowed, hallowed⟩
    · rw [htimestamps, List.forall_mem_append, List.forall_mem_singleton]
      exact ⟨fun timestamp hmem => hgrow timestamp (hkept.called timestamp hmem), by omega⟩
    · have hbounded := hkept.bounded
      rw [htask]
      omega
    · rw [hafter]
      simp only [List.forall_mem_append, List.forall_mem_singleton]
      exact ⟨hkept.outputs, by simpa using hnew⟩
  · have hphase := hvalid.phase
    have hin : ∀ completed : List Timestamp, (∀ timestamp ∈ completed, timestamp ∈ handler.timestamps) →
        ∀ timestamp ∈ completed, timestamp ∈ after.timestamps := fun completed hall timestamp hmem => by
      rw [htimestamps]
      exact List.mem_append_left _ (hall timestamp hmem)
    have hhead : ∀ timestamp, handler.timestamps.head? = some timestamp →
        after.timestamps.head? = some timestamp := fun timestamp hfirst => by
      rw [htimestamps, List.head?_append, hfirst]
      rfl
    have hbefore : ∀ bound : Timestamp, bound ≤ handler.taskTimestampBound → bound ≤ inputTimestamp :=
      fun bound hbound => bound_le_place.mp
        (((bound_le_bound.mpr hbound).trans hkept.bounded).trans hreached)
    unfold Phase at hphase ⊢
    rw [show after.thread = handler.thread by rw [hafter]]
    cases hthread : handler.thread with
    | absent =>
        simp only [hthread] at hphase
        refine ⟨hstate.trans hphase.state, hcompleted ▸ hin _ hphase.active, fun timestamp hmem => ?_⟩
        rw [hcompleted]
        cases hfirst : handler.timestamps.head? with
        | none =>
            rw [htimestamps, List.head?_append, hfirst] at hmem
            obtain rfl : inputTimestamp = timestamp := by simpa using hmem
            exact hnew
        | some first =>
            obtain rfl : first = timestamp := by simpa [hhead first hfirst] using hmem
            exact hphase.front first hfirst
    | propagating contextTimestamp | recycling contextTimestamp =>
        simp only [hthread] at hphase
        exact ⟨hstate.trans hphase.state, hhead _ hphase.context, by rw [hcompleted, hphase.completed],
          hcompleted ▸ hin _ hphase.active⟩
    | locking contextTimestamp =>
        simp only [hthread] at hphase
        obtain ⟨rest, hrest, hactive⟩ := hphase.completed
        refine ⟨hstate.trans hphase.state, ?_, ⟨rest, hcompleted.trans hrest, hin _ hactive⟩,
          hgrow _ hphase.called, hphase.allowed⟩
        rw [htimestamps, List.forall_mem_append, List.forall_mem_singleton]
        exact ⟨hphase.later, hlater _ hphase.called⟩
    | bounding boundToPropagate | relocking boundToPropagate =>
        simp only [hthread] at hphase
        refine ⟨hcompleted ▸ hin _ hphase.active, ?_, htask ▸ hphase.bound, ?_⟩
        · rw [htimestamps, List.forall_mem_append, List.forall_mem_singleton]
          exact ⟨hphase.before, hbefore _ hphase.bound⟩
        · rw [hstate, htask, hcompleted]
          exact hphase.state

end Prepare

section Update

variable {timestamp : Timestamp}

theorem step_updateTaskTimestampBound (h : step (.updateTaskTimestampBound timestamp) handler = some after) :
    handler.reached ≤ boundPlace timestamp ∧
      (handler.taskTimestampBound = timestamp ∧ after = { handler with reached := boundPlace timestamp } ∨
        handler.taskTimestampBound < timestamp ∧
          notePropagation { handler with
            reached := boundPlace timestamp
            taskTimestampBound := timestamp } = some after) := by
  obtain ⟨hreached, h⟩ := Option.ite_none_right_eq_some.mp h
  refine ⟨hreached, ?_⟩
  unfold updateTaskTimestampBound at h
  split at h
  · next heq =>
    left
    exact ⟨heq, (Option.some.inj h).symm⟩
  · obtain ⟨hlt, h⟩ := Option.ite_none_left_eq_some.mp h
    right
    exact ⟨not_not.mp hlt, h⟩

theorem Valid.reach (hvalid : handler.Valid) (place : Int) (hplace : handler.reached ≤ place) :
    Valid { handler with reached := place } := by
  have hkept := hvalid.kept
  refine ⟨⟨hkept.contexts, hkept.completed, hkept.allowed, fun timestamp hmem =>
    (hkept.called timestamp hmem).trans_le hplace, hkept.bounded.trans hplace, hkept.outputs⟩, ?_⟩
  have hphase := hvalid.phase
  unfold Phase at hphase ⊢
  cases hthread : handler.thread with
  | absent =>
      simp only [hthread] at hphase ⊢
      exact ⟨hphase.state, hphase.active, hphase.front⟩
  | propagating contextTimestamp | recycling contextTimestamp =>
      simp only [hthread] at hphase ⊢
      exact ⟨hphase.state, hphase.context, hphase.completed, hphase.active⟩
  | locking contextTimestamp =>
      simp only [hthread] at hphase ⊢
      exact ⟨hphase.state, hphase.later, hphase.completed, hphase.called.trans_le hplace, hphase.allowed⟩
  | bounding boundToPropagate | relocking boundToPropagate =>
      simp only [hthread] at hphase ⊢
      exact ⟨hphase.active, hphase.before, hphase.bound, hphase.state⟩

theorem noted_of_update (hvalid : handler.Valid) (hreached : handler.reached ≤ boundPlace timestamp)
    (hlater : handler.taskTimestampBound < timestamp) :
    Kept { handler with reached := boundPlace timestamp, taskTimestampBound := timestamp } ∧
      Noted { handler with reached := boundPlace timestamp, taskTimestampBound := timestamp } := by
  have hkept := hvalid.kept
  refine ⟨⟨hkept.contexts, hkept.completed, hkept.allowed, fun timestamp hmem =>
    (hkept.called timestamp hmem).trans_le hreached, le_rfl, hkept.outputs⟩, ?_⟩
  have hphase := hvalid.phase
  unfold Phase at hphase
  unfold Noted
  cases hthread : handler.thread with
  | absent =>
      simp only [hthread] at hphase ⊢
      exact ⟨hphase.state, hphase.active⟩
  | propagating contextTimestamp | recycling contextTimestamp =>
      simp only [hthread] at hphase ⊢
      exact ⟨hphase.state, hphase.context, hphase.completed, hphase.active⟩
  | locking contextTimestamp =>
      simp only [hthread] at hphase ⊢
      exact ⟨hphase.state, hphase.later, hphase.completed, hphase.called.trans_le hreached, hphase.allowed⟩
  | bounding boundToPropagate | relocking boundToPropagate =>
      simp only [hthread] at hphase ⊢
      exact ⟨hphase.active, hphase.before, hphase.bound.trans hlater.le,
        .inl (hphase.bound.trans_lt hlater), hphase.state.imp And.left And.left⟩

theorem update_valid (hvalid : handler.Valid)
    (h : step (.updateTaskTimestampBound timestamp) handler = some after) : after.Valid := by
  obtain ⟨hreached, ⟨_, rfl⟩ | ⟨hlater, hnote⟩⟩ := step_updateTaskTimestampBound h
  · exact hvalid.reach _ hreached
  · obtain ⟨hkept, hnoted⟩ := noted_of_update hvalid hreached hlater
    exact notePropagation_valid hkept hnoted hnote

theorem update_isSome (hvalid : handler.Valid) (hreached : handler.reached ≤ boundPlace timestamp) :
    ∃ after, step (.updateTaskTimestampBound timestamp) handler = some after := by
  rcases (bound_le_bound.mp (hvalid.kept.bounded.trans hreached)).eq_or_lt with heq | hlater
  · exact ⟨_, (if_pos hreached).trans (if_pos heq)⟩
  · obtain ⟨hkept, hnoted⟩ := noted_of_update hvalid hreached hlater
    obtain ⟨after, hafter⟩ := notePropagation_isSome hkept hnoted.active
    exact ⟨after, (if_pos hreached).trans
      ((if_neg hlater.ne).trans ((if_neg (not_not.mpr hlater)).trans hafter))⟩

end Update

section Post

variable {inputTimestamp : Timestamp} {outputs : ω}

theorem finish_timestamps : (handler.finish inputTimestamp outputs).timestamps = handler.timestamps := by
  unfold timestamps finish
  rw [List.map_map]
  apply List.map_congr_left
  intro context _
  simp only [Function.comp]
  split <;> rfl

-- A calculator that runs has an active context that is not completed.
theorem runs_spec (hkept : handler.Kept) (hruns : handler.runs inputTimestamp = true) :
    inputTimestamp ∈ handler.timestamps ∧ inputTimestamp ∉ handler.completedInputTimestamps := by
  obtain ⟨context, hcontext, hboth⟩ := List.any_eq_true.mp hruns
  simp only [Bool.and_eq_true, decide_eq_true_eq, Option.isNone_iff_eq_none] at hboth
  obtain ⟨rfl, hnone⟩ := hboth
  refine ⟨List.mem_map_of_mem hcontext, fun hmem => ?_⟩
  have hsome := (hkept.outputs context hcontext).mpr hmem
  rw [hnone] at hsome
  cases hsome

-- The handler when a calculator has returned, before the note.
def posted (inputTimestamp : Timestamp) (outputs : ω) (handler : OutputStreamHandler ω) :
    OutputStreamHandler ω :=
  { handler.finish inputTimestamp outputs with
    completedInputTimestamps := insertTimestamp inputTimestamp handler.completedInputTimestamps }

theorem step_postProcess (h : step (.postProcess inputTimestamp outputs) handler = some after) :
    handler.runs inputTimestamp = true ∧
      (handler.posted inputTimestamp outputs).notePropagation = some after :=
  Option.ite_none_right_eq_some.mp h

theorem posted_kept (hkept : handler.Kept) : (handler.posted inputTimestamp outputs).Kept := by
  have htimestamps : (handler.posted inputTimestamp outputs).timestamps = handler.timestamps :=
    finish_timestamps
  refine ⟨htimestamps ▸ hkept.contexts, insertTimestamp_sorted hkept.completed,
    htimestamps ▸ hkept.allowed, htimestamps ▸ hkept.called, hkept.bounded, ?_⟩
  intro context hcontext
  obtain ⟨before, hbefore, rfl⟩ := List.mem_map.mp hcontext
  simp only [posted, mem_insertTimestamp]
  by_cases heq : before.inputTimestamp = inputTimestamp
  · simp [heq]
  · simpa [heq] using hkept.outputs before hbefore

theorem posted_noted (hvalid : handler.Valid) (hruns : handler.runs inputTimestamp = true) :
    (handler.posted inputTimestamp outputs).Noted := by
  obtain ⟨hmem, hnew⟩ := runs_spec hvalid.kept hruns
  have htimestamps : (handler.posted inputTimestamp outputs).timestamps = handler.timestamps :=
    finish_timestamps
  have hactive : (∀ timestamp ∈ handler.completedInputTimestamps, timestamp ∈ handler.timestamps) →
      ∀ timestamp ∈ (handler.posted inputTimestamp outputs).completedInputTimestamps,
        timestamp ∈ (handler.posted inputTimestamp outputs).timestamps := by
    intro hall timestamp htimestamp
    rw [htimestamps]
    rcases (mem_insertTimestamp timestamp).mp htimestamp with rfl | hold
    · exact hmem
    · exact hall timestamp hold
  have hphase := hvalid.phase
  unfold Phase at hphase
  unfold Noted
  rw [show (handler.posted inputTimestamp outputs).thread = handler.thread from rfl]
  cases hthread : handler.thread with
  | absent =>
      simp only [hthread] at hphase
      exact ⟨hphase.state, hactive hphase.active⟩
  | propagating contextTimestamp | recycling contextTimestamp =>
      simp only [hthread] at hphase
      refine ⟨hphase.state, htimestamps.symm ▸ hphase.context, ?_, hactive hphase.active⟩
      obtain ⟨rest, hrest⟩ := List.head?_eq_some_iff.mp hphase.completed
      obtain ⟨contexts, hcontexts⟩ := List.head?_eq_some_iff.mp hphase.context
      have hsorted := hvalid.kept.contexts
      rw [hcontexts] at hmem hsorted
      rw [hrest] at hnew
      have hlater : contextTimestamp < inputTimestamp := by
        rcases List.mem_cons.mp hmem with rfl | hin
        · exact absurd (List.mem_cons_self ..) hnew
        · exact (List.pairwise_cons.mp hsorted).1 _ hin
      unfold posted
      rw [hrest, insertTimestamp_cons hlater]
      rfl
  | locking contextTimestamp =>
      simp only [hthread] at hphase
      obtain ⟨rest, hrest, hin⟩ := hphase.completed
      refine ⟨hphase.state, htimestamps.symm ▸ hphase.later, ⟨insertTimestamp inputTimestamp rest, ?_, ?_⟩,
        hphase.called, hphase.allowed⟩
      · unfold posted
        rw [hrest, insertTimestamp_cons (hphase.later inputTimestamp hmem)]
      · intro timestamp htimestamp
        rw [htimestamps]
        rcases (mem_insertTimestamp timestamp).mp htimestamp with rfl | hold
        · exact hmem
        · exact hin timestamp hold
  | bounding boundToPropagate | relocking boundToPropagate =>
      simp only [hthread] at hphase
      exact ⟨hactive hphase.active, htimestamps.symm ▸ hphase.before, hphase.bound,
        .inr insertTimestamp_ne_nil, hphase.state.imp And.left And.left⟩

theorem post_valid (hvalid : handler.Valid)
    (h : step (.postProcess inputTimestamp outputs) handler = some after) : after.Valid := by
  obtain ⟨hruns, hnote⟩ := step_postProcess h
  exact notePropagation_valid (posted_kept hvalid.kept) (posted_noted hvalid hruns) hnote

theorem post_isSome (outputs : ω) (hvalid : handler.Valid) (hruns : handler.runs inputTimestamp = true) :
    ∃ after, step (.postProcess inputTimestamp outputs) handler = some after := by
  have hkept : (handler.posted inputTimestamp outputs).Kept := posted_kept hvalid.kept
  obtain ⟨after, hafter⟩ := notePropagation_isSome hkept (posted_noted hvalid hruns).active
  exact ⟨after, (if_pos hruns).trans hafter⟩

end Post

section Thread

theorem step_propagateOutputPackets (h : step .propagateOutputPackets handler = some after) :
    ∃ contextTimestamp, handler.thread = .propagating contextTimestamp ∧
      after = { handler with thread := .recycling contextTimestamp } := by
  unfold step at h
  cases hthread : handler.thread with
  | propagating contextTimestamp => exact ⟨contextTimestamp, rfl, by simpa [hthread] using h.symm⟩
  | _ => simp [hthread] at h

theorem step_recycleCalculatorContext (h : step .recycleCalculatorContext handler = some after) :
    ∃ contextTimestamp, handler.thread = .recycling contextTimestamp ∧
      after = { handler with
        activeContexts := handler.activeContexts.tail
        thread := .locking contextTimestamp } := by
  unfold step at h
  cases hthread : handler.thread with
  | recycling contextTimestamp => exact ⟨contextTimestamp, rfl, by simpa [hthread] using h.symm⟩
  | _ => simp [hthread] at h

theorem step_lock (h : step .lock handler = some after) :
    ∃ contextTimestamp, handler.thread = .locking contextTimestamp ∧
      handler.afterPackets contextTimestamp = some after := by
  unfold step at h
  cases hthread : handler.thread with
  | locking contextTimestamp => exact ⟨contextTimestamp, rfl, by simpa [hthread] using h⟩
  | _ => simp [hthread] at h

theorem step_tryPropagateTimestampBound (h : step .tryPropagateTimestampBound handler = some after) :
    ∃ boundToPropagate, handler.thread = .bounding boundToPropagate ∧
      after = { handler with thread := .relocking boundToPropagate } := by
  unfold step at h
  cases hthread : handler.thread with
  | bounding boundToPropagate => exact ⟨boundToPropagate, rfl, by simpa [hthread] using h.symm⟩
  | _ => simp [hthread] at h

theorem step_relock (h : step .relock handler = some after) :
    ∃ boundToPropagate, handler.thread = .relocking boundToPropagate ∧
      handler.afterBound boundToPropagate = some after := by
  unfold step at h
  cases hthread : handler.thread with
  | relocking boundToPropagate => exact ⟨boundToPropagate, rfl, by simpa [hthread] using h⟩
  | _ => simp [hthread] at h

variable {contextTimestamp boundToPropagate : Timestamp}

theorem Front.split (hfront : handler.Front contextTimestamp) :
    ∃ context contexts, handler.activeContexts = context :: contexts ∧
      context.inputTimestamp = contextTimestamp := by
  have hcontext := hfront.context
  unfold timestamps at hcontext
  cases hcontexts : handler.activeContexts with
  | nil => simp [hcontexts] at hcontext
  | cons context contexts => exact ⟨context, contexts, rfl, by simpa [hcontexts] using hcontext⟩

theorem recycle_valid (hkept : handler.Kept) (hfront : handler.Front contextTimestamp) :
    Valid { handler with
      activeContexts := handler.activeContexts.tail
      thread := .locking contextTimestamp } := by
  obtain ⟨context, contexts, hcontexts, rfl⟩ := hfront.split
  obtain ⟨rest, hrest⟩ := List.head?_eq_some_iff.mp hfront.completed
  have htimestamps : handler.timestamps =
      context.inputTimestamp :: contexts.map CalculatorContext.inputTimestamp := by
    simp [timestamps, hcontexts]
  have hsorted := hkept.contexts
  have hallowed := hkept.allowed
  have hcalled := hkept.called
  have hcompleted := hkept.completed
  have hactive := hfront.active
  have houtputs := hkept.outputs
  rw [htimestamps] at hsorted hallowed hcalled hactive
  rw [List.pairwise_cons] at hsorted
  rw [List.forall_mem_cons] at hallowed hcalled
  rw [hrest, List.pairwise_cons] at hcompleted
  rw [hcontexts, List.forall_mem_cons] at houtputs
  rw [hrest, List.forall_mem_cons] at hactive
  rw [hcontexts, List.tail_cons]
  refine ⟨⟨hsorted.2, hkept.completed, hallowed.2, hcalled.2, hkept.bounded, houtputs.2⟩,
    hfront.state, hsorted.1, ⟨rest, hrest, fun timestamp hmem => ?_⟩, hcalled.1, hallowed.1⟩
  exact (List.mem_cons.mp (hactive.2 timestamp hmem)).resolve_left (hcompleted.1 timestamp hmem).ne'

-- The handler when the timestamp of the recycled context is erased.
def erased (rest : List Timestamp) (handler : OutputStreamHandler ω) : OutputStreamHandler ω :=
  { handler with completedInputTimestamps := rest }

theorem erased_kept {rest : List Timestamp} (hkept : handler.Kept)
    (hcompleted : handler.completedInputTimestamps = contextTimestamp :: rest)
    (hlater : ∀ timestamp ∈ handler.timestamps, contextTimestamp < timestamp) : (erased rest handler).Kept := by
  have hsorted := hkept.completed
  rw [hcompleted] at hsorted
  refine ⟨hkept.contexts, (List.pairwise_cons.mp hsorted).2, hkept.allowed, hkept.called, hkept.bounded,
    fun context hcontext => ?_⟩
  have hne := (hlater _ (List.mem_map_of_mem hcontext)).ne'
  rw [hkept.outputs context hcontext, hcompleted, List.mem_cons]
  exact or_iff_right hne

-- All that can follow the propagation of packets.
theorem afterPackets_cases (hrecycled : handler.Recycled contextTimestamp) :
    ∃ rest, handler.completedInputTimestamps = contextTimestamp :: rest ∧
      (∀ timestamp ∈ rest, timestamp ∈ handler.timestamps) ∧
      (handler.activeContexts = [] ∧
          handler.taskTimestampBound ≤ contextTimestamp.nextAllowedInStream ∧
          handler.afterPackets contextTimestamp = some (erased rest handler).idle ∨
        handler.activeContexts = [] ∧
          contextTimestamp.nextAllowedInStream < handler.taskTimestampBound ∧
          handler.afterPackets contextTimestamp = some (erased rest handler).propagatingBound ∨
        ∃ context contexts, handler.activeContexts = context :: contexts ∧
          (rest.head? = some context.inputTimestamp ∧ handler.afterPackets contextTimestamp =
              some ((erased rest handler).propagatingPackets context.inputTimestamp) ∨
            rest.head? ≠ some context.inputTimestamp ∧
              handler.afterPackets contextTimestamp = some (erased rest handler).idle)) := by
  obtain ⟨rest, hrest, hin⟩ := hrecycled.completed
  refine ⟨rest, hrest, hin, ?_⟩
  unfold afterPackets
  cases hcontexts : handler.activeContexts with
  | nil =>
      obtain rfl : rest = [] := List.eq_nil_iff_forall_not_mem.mpr fun timestamp hmem => by
        simpa [timestamps, hcontexts] using hin timestamp hmem
      by_cases hbound : handler.taskTimestampBound ≤ contextTimestamp.nextAllowedInStream
      · left
        exact ⟨rfl, hbound, by simp [hrest, hbound, erased, hcontexts]⟩
      · right; left
        exact ⟨rfl, not_le.mp hbound, by simp [hrest, hbound, erased, hcontexts]⟩
  | cons context contexts =>
      right; right
      refine ⟨context, contexts, rfl, ?_⟩
      by_cases hfront : rest.head? = some context.inputTimestamp
      · left
        exact ⟨hfront, by simp [hrest, hfront, erased, hcontexts]⟩
      · right
        exact ⟨hfront, by simp [hrest, hfront, erased, hcontexts]⟩

theorem afterPackets_valid (hkept : handler.Kept) (hrecycled : handler.Recycled contextTimestamp) :
    ∃ after, handler.afterPackets contextTimestamp = some after ∧ after.Valid := by
  obtain ⟨rest, hrest, hin, ⟨hnone, _, h⟩ | ⟨hnone, _, h⟩ | ⟨context, contexts, hcontexts, hfront⟩⟩ :=
    afterPackets_cases hrecycled
  all_goals have herased := erased_kept hkept hrest hrecycled.later
  · exact ⟨_, h, idle_valid herased hin (by simp [erased, hnone])⟩
  · exact ⟨_, h, propagatingBound_valid herased hin hnone⟩
  · rcases hfront with ⟨hfront, h⟩ | ⟨hfront, h⟩
    · exact ⟨_, h, propagatingPackets_valid herased hin hcontexts hfront⟩
    · exact ⟨_, h, idle_valid herased hin (by simpa [erased, hcontexts] using hfront)⟩

-- All that can follow the propagation of a bound.
theorem afterBound_cases (hbounding : handler.Bounding boundToPropagate) :
    handler.propagationState = .propagatingBound ∧ boundToPropagate = handler.taskTimestampBound ∧
        handler.completedInputTimestamps = [] ∧
        handler.afterBound boundToPropagate = some handler.idle ∨
      handler.propagationState = .propagationPending ∧ handler.activeContexts = [] ∧
        boundToPropagate < handler.taskTimestampBound ∧
        handler.afterBound boundToPropagate = some handler.propagatingBound ∨
      ∃ context contexts, handler.propagationState = .propagationPending ∧
        handler.activeContexts = context :: contexts ∧
        (handler.completedInputTimestamps.head? = some context.inputTimestamp ∧
            handler.afterBound boundToPropagate =
              some (handler.propagatingPackets context.inputTimestamp) ∨
          handler.completedInputTimestamps.head? ≠ some context.inputTimestamp ∧
            handler.afterBound boundToPropagate = some handler.idle) := by
  unfold afterBound
  rcases hbounding.state with ⟨hstate, hbound, hnone⟩ | ⟨hstate, hnew⟩
  · left
    exact ⟨hstate, hbound, hnone, by simp [hstate]⟩
  · cases hcontexts : handler.activeContexts with
    | nil =>
        right; left
        have hnone : handler.completedInputTimestamps = [] :=
          List.eq_nil_iff_forall_not_mem.mpr fun timestamp hmem => by
            simpa [timestamps, hcontexts] using hbounding.active timestamp hmem
        have hlt := hnew.resolve_right (not_not.mpr hnone)
        exact ⟨hstate, rfl, hlt, by simp [hstate, hlt]⟩
    | cons context contexts =>
        right; right
        refine ⟨context, contexts, hstate, rfl, ?_⟩
        by_cases hfront : handler.completedInputTimestamps.head? = some context.inputTimestamp
        · left
          exact ⟨hfront, by simp [hstate, hfront]⟩
        · right
          exact ⟨hfront, by simp [hstate, hfront]⟩

theorem afterBound_valid (hkept : handler.Kept) (hbounding : handler.Bounding boundToPropagate) :
    ∃ after, handler.afterBound boundToPropagate = some after ∧ after.Valid := by
  rcases afterBound_cases hbounding with ⟨_, _, hnone, h⟩ | ⟨_, hnone, _, h⟩ |
    ⟨context, contexts, _, hcontexts, ⟨hfront, h⟩ | ⟨hfront, h⟩⟩
  · exact ⟨_, h, idle_valid hkept hbounding.active (by simp [hnone])⟩
  · exact ⟨_, h, propagatingBound_valid hkept hbounding.active hnone⟩
  · exact ⟨_, h, propagatingPackets_valid hkept hbounding.active hcontexts hfront⟩
  · exact ⟨_, h, idle_valid hkept hbounding.active (by simpa [hcontexts] using hfront)⟩

theorem step_valid (event : Event ω) (h : step event handler = some after) (hvalid : handler.Valid) :
    after.Valid := by
  have hkept := hvalid.kept
  have hphase := hvalid.phase
  unfold Phase at hphase
  cases event with
  | prepareCalculatorContext inputTimestamp => exact prepare_valid hvalid h
  | updateTaskTimestampBound timestamp => exact update_valid hvalid h
  | postProcess inputTimestamp outputs => exact post_valid hvalid h
  | propagateOutputPackets =>
      obtain ⟨contextTimestamp, hthread, rfl⟩ := step_propagateOutputPackets h
      simp only [hthread] at hphase
      exact ⟨hkept.schedule _ _, hphase.state, hphase.context, hphase.completed, hphase.active⟩
  | recycleCalculatorContext =>
      obtain ⟨contextTimestamp, hthread, rfl⟩ := step_recycleCalculatorContext h
      simp only [hthread] at hphase
      exact recycle_valid hkept hphase
  | lock =>
      obtain ⟨contextTimestamp, hthread, hafter⟩ := step_lock h
      simp only [hthread] at hphase
      obtain ⟨found, hfound, hvalid'⟩ := afterPackets_valid hkept hphase
      cases hfound.symm.trans hafter
      exact hvalid'
  | tryPropagateTimestampBound =>
      obtain ⟨boundToPropagate, hthread, rfl⟩ := step_tryPropagateTimestampBound h
      simp only [hthread] at hphase
      exact ⟨hkept.schedule _ _, hphase.active, hphase.before, hphase.bound, hphase.state⟩
  | relock =>
      obtain ⟨boundToPropagate, hthread, hafter⟩ := step_relock h
      simp only [hthread] at hphase
      obtain ⟨found, hfound, hvalid'⟩ := afterBound_valid hkept hphase
      cases hfound.symm.trans hafter
      exact hvalid'

end Thread

end OutputStreamHandler

end SpaceInvaders.Mediapipe

import SpaceInvaders.Library.Flow
import SpaceInvaders.Mediapipe.OutputStreamHandler

namespace SpaceInvaders.Mediapipe

namespace OutputStreamHandler

variable {ω : Type}

section Sets

variable {timestamp : Timestamp} {timestamps rest : List Timestamp}

theorem mem_insertTimestamp (other : Timestamp) :
    other ∈ insertTimestamp timestamp timestamps ↔ other = timestamp ∨ other ∈ timestamps := by
  unfold insertTimestamp
  split
  · next hmem =>
    constructor
    · exact .inr
    · rintro (rfl | h)
      · exact hmem
      · exact h
  · exact List.mem_orderedInsert _

theorem insertTimestamp_ne_nil : insertTimestamp timestamp timestamps ≠ [] :=
  List.ne_nil_of_mem ((mem_insertTimestamp timestamp).mpr (.inl rfl))

theorem insertTimestamp_sorted (hsorted : timestamps.Pairwise (· < ·)) :
    (insertTimestamp timestamp timestamps).Pairwise (· < ·) := by
  unfold insertTimestamp
  split
  · exact hsorted
  · next hmem =>
    have hle := List.Pairwise.orderedInsert timestamp timestamps (hsorted.imp le_of_lt)
    have hnodup : (timestamps.orderedInsert (· ≤ ·) timestamp).Nodup :=
      (List.perm_orderedInsert (· ≤ ·) timestamp timestamps).nodup_iff.mpr
        (List.nodup_cons.mpr ⟨hmem, hsorted.imp ne_of_lt⟩)
    exact (hle.and hnodup).imp fun h => lt_of_le_of_ne h.1 h.2

-- A later timestamp goes behind the first one.
theorem insertTimestamp_cons {first : Timestamp} (hlater : first < timestamp) :
    insertTimestamp timestamp (first :: rest) = first :: insertTimestamp timestamp rest := by
  unfold insertTimestamp
  by_cases hmem : timestamp ∈ rest
  · simp [hmem]
  · simp [hmem, hlater.ne', not_le.mpr hlater]

theorem orderedInsert_last (context : CalculatorContext ω) (contexts : List (CalculatorContext ω))
    (hlast : ∀ other ∈ contexts, other.inputTimestamp < context.inputTimestamp) :
    contexts.orderedInsert (fun a b => a.inputTimestamp ≤ b.inputTimestamp) context =
      contexts ++ [context] := by
  induction contexts with
  | nil => rfl
  | cons other contexts ih =>
      rw [List.forall_mem_cons] at hlast
      rw [List.orderedInsert_cons, if_neg (not_le.mpr hlast.1), ih hlast.2, List.cons_append]

end Sets

def timestamps (handler : OutputStreamHandler ω) : List Timestamp :=
  handler.activeContexts.map CalculatorContext.inputTimestamp

-- What holds of the two maps whatever the threads do.
structure Kept (handler : OutputStreamHandler ω) : Prop where
  contexts : handler.timestamps.Pairwise (· < ·)
  completed : handler.completedInputTimestamps.Pairwise (· < ·)
  allowed : ∀ timestamp ∈ handler.timestamps, timestamp.IsAllowedInStream
  called : ∀ timestamp ∈ handler.timestamps, invocationPlace timestamp < handler.reached
  bounded : boundPlace handler.taskTimestampBound ≤ handler.reached
  outputs : ∀ context ∈ handler.activeContexts,
    context.outputs.isSome ↔ context.inputTimestamp ∈ handler.completedInputTimestamps

theorem Kept.schedule {handler : OutputStreamHandler ω} (h : handler.Kept) (state : PropagationState)
    (thread : PropagationThread) : Kept { handler with propagationState := state, thread := thread } :=
  ⟨h.contexts, h.completed, h.allowed, h.called, h.bounded, h.outputs⟩

-- The first context is being propagated.
structure Front (contextTimestamp : Timestamp) (handler : OutputStreamHandler ω) : Prop where
  state : handler.propagationState = .propagatingPackets
  context : handler.timestamps.head? = some contextTimestamp
  completed : handler.completedInputTimestamps.head? = some contextTimestamp
  active : ∀ timestamp ∈ handler.completedInputTimestamps, timestamp ∈ handler.timestamps

-- The first context has been recycled, but not its timestamp.
structure Recycled (contextTimestamp : Timestamp) (handler : OutputStreamHandler ω) : Prop where
  state : handler.propagationState = .propagatingPackets
  later : ∀ timestamp ∈ handler.timestamps, contextTimestamp < timestamp
  completed : ∃ rest, handler.completedInputTimestamps = contextTimestamp :: rest ∧
    ∀ timestamp ∈ rest, timestamp ∈ handler.timestamps
  called : invocationPlace contextTimestamp < handler.reached
  allowed : contextTimestamp.IsAllowedInStream

-- A bound is being propagated. Whoever has something new since then has left a note.
structure Bounding (boundToPropagate : Timestamp) (handler : OutputStreamHandler ω) : Prop where
  active : ∀ timestamp ∈ handler.completedInputTimestamps, timestamp ∈ handler.timestamps
  before : ∀ timestamp ∈ handler.timestamps, boundToPropagate ≤ timestamp
  bound : boundToPropagate ≤ handler.taskTimestampBound
  state : handler.propagationState = .propagatingBound ∧
      boundToPropagate = handler.taskTimestampBound ∧ handler.completedInputTimestamps = [] ∨
    handler.propagationState = .propagationPending ∧
      (boundToPropagate < handler.taskTimestampBound ∨ handler.completedInputTimestamps ≠ [])

-- No thread propagates, and there is nothing that it could propagate.
structure Idle (handler : OutputStreamHandler ω) : Prop where
  state : handler.propagationState = .idle
  active : ∀ timestamp ∈ handler.completedInputTimestamps, timestamp ∈ handler.timestamps
  front : ∀ timestamp ∈ handler.timestamps.head?, timestamp ∉ handler.completedInputTimestamps

def Phase (handler : OutputStreamHandler ω) : Prop :=
  match handler.thread with
  | .absent => handler.Idle
  | .propagating contextTimestamp => handler.Front contextTimestamp
  | .recycling contextTimestamp => handler.Front contextTimestamp
  | .locking contextTimestamp => handler.Recycled contextTimestamp
  | .bounding boundToPropagate => handler.Bounding boundToPropagate
  | .relocking boundToPropagate => handler.Bounding boundToPropagate

structure Valid (handler : OutputStreamHandler ω) : Prop where
  kept : handler.Kept
  phase : handler.Phase

theorem prepareForRun_valid : (prepareForRun : OutputStreamHandler ω).Valid where
  kept := ⟨List.Pairwise.nil, List.Pairwise.nil, by simp [timestamps, prepareForRun],
    by simp [timestamps, prepareForRun], le_rfl, by simp [prepareForRun]⟩
  phase := ⟨rfl, by simp [prepareForRun], by simp [timestamps, prepareForRun]⟩

section Note

variable {handler after : OutputStreamHandler ω} {timestamp : Timestamp}

-- The front of the completed timestamps is not before the front of the contexts, as its
-- context is active.
theorem front_le {context : CalculatorContext ω} {contexts : List (CalculatorContext ω)}
    (completed : Timestamp) (hkept : handler.Kept)
    (hactive : ∀ timestamp ∈ handler.completedInputTimestamps, timestamp ∈ handler.timestamps)
    (hcontexts : handler.activeContexts = context :: contexts)
    (hcompleted : completed ∈ handler.completedInputTimestamps) : context.inputTimestamp ≤ completed := by
  have hmem := hactive completed hcompleted
  have hsorted := hkept.contexts
  unfold timestamps at hmem hsorted
  rw [hcontexts, List.map_cons] at hmem hsorted
  rcases List.mem_cons.mp hmem with rfl | hrest
  · exact le_rfl
  · exact ((List.pairwise_cons.mp hsorted).1 completed hrest).le

theorem front_not_completed {context : CalculatorContext ω} {contexts : List (CalculatorContext ω)}
    (hkept : handler.Kept)
    (hactive : ∀ timestamp ∈ handler.completedInputTimestamps, timestamp ∈ handler.timestamps)
    (hcontexts : handler.activeContexts = context :: contexts)
    (hfront : handler.completedInputTimestamps.head? ≠ some context.inputTimestamp) :
    context.inputTimestamp ∉ handler.completedInputTimestamps := by
  intro hmem
  cases hcompleted : handler.completedInputTimestamps with
  | nil => simp [hcompleted] at hmem
  | cons first rest =>
      have hle := front_le first hkept hactive hcontexts (by simp [hcompleted])
      have hsorted := hkept.completed
      rw [hcompleted] at hmem hfront hsorted
      rcases List.mem_cons.mp hmem with heq | hrest
      · exact hfront (by rw [heq]; rfl)
      · exact absurd hle (not_le.mpr ((List.pairwise_cons.mp hsorted).1 _ hrest))

theorem idle_valid (hkept : handler.Kept)
    (hactive : ∀ timestamp ∈ handler.completedInputTimestamps, timestamp ∈ handler.timestamps)
    (hfront : ∀ context ∈ handler.activeContexts.head?,
      handler.completedInputTimestamps.head? ≠ some context.inputTimestamp) : handler.idle.Valid := by
  refine ⟨hkept.schedule _ _, rfl, hactive, fun timestamp htimestamp => ?_⟩
  cases hcontexts : handler.activeContexts with
  | nil => simp [idle, timestamps, hcontexts] at htimestamp
  | cons context contexts =>
      obtain rfl : context.inputTimestamp = timestamp := by
        simpa [idle, timestamps, hcontexts] using htimestamp
      have hnew : context.inputTimestamp ∉ handler.completedInputTimestamps :=
        front_not_completed hkept hactive hcontexts (hfront context (by simp [hcontexts]))
      exact hnew

theorem propagatingPackets_valid {context : CalculatorContext ω} {contexts : List (CalculatorContext ω)}
    (hkept : handler.Kept)
    (hactive : ∀ timestamp ∈ handler.completedInputTimestamps, timestamp ∈ handler.timestamps)
    (hcontexts : handler.activeContexts = context :: contexts)
    (hfront : handler.completedInputTimestamps.head? = some context.inputTimestamp) :
    (handler.propagatingPackets context.inputTimestamp).Valid :=
  ⟨hkept.schedule _ _, rfl, by simp [timestamps, propagatingPackets, hcontexts], hfront, hactive⟩

theorem propagatingBound_valid (hkept : handler.Kept)
    (hactive : ∀ timestamp ∈ handler.completedInputTimestamps, timestamp ∈ handler.timestamps)
    (hnone : handler.activeContexts = []) : handler.propagatingBound.Valid := by
  have htimestamps : handler.timestamps = [] := by simp [timestamps, hnone]
  have hcompleted : handler.completedInputTimestamps = [] := by
    rw [htimestamps] at hactive
    exact List.eq_nil_iff_forall_not_mem.mpr fun timestamp hmem =>
      absurd (hactive timestamp hmem) List.not_mem_nil
  refine ⟨hkept.schedule _ _, hactive, fun timestamp hmem => ?_, le_rfl, .inl ⟨rfl, rfl, hcompleted⟩⟩
  exact absurd (htimestamps ▸ hmem) List.not_mem_nil

-- What the handler may look like between a change under the mutex and what follows it.
def Noted (handler : OutputStreamHandler ω) : Prop :=
  match handler.thread with
  | .absent => handler.propagationState = .idle ∧
      ∀ timestamp ∈ handler.completedInputTimestamps, timestamp ∈ handler.timestamps
  | .propagating contextTimestamp => handler.Front contextTimestamp
  | .recycling contextTimestamp => handler.Front contextTimestamp
  | .locking contextTimestamp => handler.Recycled contextTimestamp
  | .bounding boundToPropagate | .relocking boundToPropagate =>
      (∀ timestamp ∈ handler.completedInputTimestamps, timestamp ∈ handler.timestamps) ∧
      (∀ timestamp ∈ handler.timestamps, boundToPropagate ≤ timestamp) ∧
      boundToPropagate ≤ handler.taskTimestampBound ∧
      (boundToPropagate < handler.taskTimestampBound ∨ handler.completedInputTimestamps ≠ []) ∧
      (handler.propagationState = .propagatingBound ∨ handler.propagationState = .propagationPending)

-- A note is left, or this thread becomes the propagation thread, or it is not for it to do.
theorem notePropagation_cases (h : handler.notePropagation = some after) :
    handler.propagationState = .propagatingBound ∧
        after = { handler with propagationState := .propagationPending } ∨
      handler.propagationState = .idle ∧ handler.activeContexts = [] ∧ after = handler.propagatingBound ∨
      (∃ context contexts, handler.propagationState = .idle ∧
        handler.activeContexts = context :: contexts ∧
        handler.completedInputTimestamps.head? = some context.inputTimestamp ∧
        after = handler.propagatingPackets context.inputTimestamp) ∨
      handler.propagationState ≠ .propagatingBound ∧ after = handler ∧
        (handler.propagationState = .idle → handler.activeContexts ≠ [] ∧
          ∀ context ∈ handler.activeContexts.head?,
            handler.completedInputTimestamps.head? ≠ some context.inputTimestamp) := by
  unfold notePropagation propagationLoop at h
  cases hstate : handler.propagationState with
  | propagatingBound =>
      left
      exact ⟨rfl, by simpa [hstate] using h.symm⟩
  | propagatingPackets =>
      right; right; right
      exact ⟨by simp, by simpa [hstate] using h.symm, by simp⟩
  | propagationPending =>
      right; right; right
      exact ⟨by simp, by simpa [hstate] using h.symm, by simp⟩
  | idle =>
      cases hcontexts : handler.activeContexts with
      | nil =>
          right; left
          exact ⟨rfl, rfl, by simpa [hstate, hcontexts] using h.symm⟩
      | cons context contexts =>
          cases hcompleted : handler.completedInputTimestamps with
          | nil =>
              right; right; right
              exact ⟨by simp, by simpa [hstate, hcontexts, hcompleted] using h.symm, by simp⟩
          | cons first rest =>
              simp only [hstate, hcontexts, hcompleted, ne_eq, not_true, if_false] at h
              split at h
              · next heq =>
                right; right; left
                exact ⟨context, contexts, rfl, rfl, by simp [heq], by simpa using h.symm⟩
              · next hne =>
                obtain ⟨_, ⟨⟩⟩ := Option.ite_none_right_eq_some.mp h
                right; right; right
                exact ⟨by simp, rfl, fun _ => ⟨by simp, by simpa using Ne.symm hne⟩⟩

theorem notePropagation_isSome (hkept : handler.Kept)
    (hactive : handler.propagationState = .idle →
      ∀ timestamp ∈ handler.completedInputTimestamps, timestamp ∈ handler.timestamps) :
    ∃ after, handler.notePropagation = some after := by
  unfold notePropagation propagationLoop
  cases hstate : handler.propagationState with
  | idle =>
      cases hcontexts : handler.activeContexts with
      | nil => simp
      | cons context contexts =>
          cases hcompleted : handler.completedInputTimestamps with
          | nil => simp
          | cons first rest =>
              have hle := front_le first hkept (hactive hstate) hcontexts (by simp [hcompleted])
              by_cases heq : context.inputTimestamp = first
              · simp [heq]
              · simp [heq, lt_of_le_of_ne hle heq]
  | _ => simp

theorem Noted.active (hnoted : handler.Noted) (hidle : handler.propagationState = .idle) :
    ∀ timestamp ∈ handler.completedInputTimestamps, timestamp ∈ handler.timestamps := by
  unfold Noted at hnoted
  cases hthread : handler.thread with
  | absent => exact (by simpa only [hthread] using hnoted : _ ∧ _).2
  | propagating timestamp | recycling timestamp =>
      simp only [hthread] at hnoted
      exact hnoted.active
  | locking timestamp =>
      simp only [hthread] at hnoted
      exact absurd (hidle.symm.trans hnoted.state) (by simp)
  | bounding bound | relocking bound =>
      simp only [hthread] at hnoted
      exact hnoted.1

-- What follows a change under the mutex sets the handler right.
theorem notePropagation_valid (hkept : handler.Kept) (hnoted : handler.Noted)
    (h : handler.notePropagation = some after) : after.Valid := by
  rcases notePropagation_cases h with ⟨hstate, rfl⟩ | ⟨hstate, hnone, rfl⟩ |
    ⟨context, contexts, hstate, hcontexts, hfront, rfl⟩ | ⟨hstate, rfl, hidle⟩
  · refine ⟨hkept.schedule _ _, ?_⟩
    unfold Noted at hnoted
    unfold Phase
    cases hthread : handler.thread with
    | absent =>
        simp only [hthread] at hnoted
        exact absurd (hstate.symm.trans hnoted.1) (by simp)
    | propagating timestamp | recycling timestamp | locking timestamp =>
        simp only [hthread] at hnoted
        exact absurd (hstate.symm.trans hnoted.state) (by simp)
    | bounding bound | relocking bound =>
        simp only [hthread] at hnoted
        exact ⟨hnoted.1, hnoted.2.1, hnoted.2.2.1, .inr ⟨rfl, hnoted.2.2.2.1⟩⟩
  · exact propagatingBound_valid hkept (hnoted.active hstate) hnone
  · exact propagatingPackets_valid hkept (hnoted.active hstate) hcontexts hfront
  · refine ⟨hkept, ?_⟩
    unfold Noted at hnoted
    unfold Phase
    cases hthread : after.thread with
    | absent =>
        simp only [hthread] at hnoted
        exact ⟨hnoted.1, hnoted.2, (idle_valid hkept hnoted.2 (hidle hnoted.1).2).phase.front⟩
    | propagating timestamp | recycling timestamp | locking timestamp =>
        simpa only [hthread] using hnoted
    | bounding bound | relocking bound =>
        simp only [hthread] at hnoted
        obtain ⟨hin, hbefore, hbound, hnew, hstate'⟩ := hnoted
        exact ⟨hin, hbefore, hbound, .inr ⟨hstate'.resolve_left hstate, hnew⟩⟩

end Note

end OutputStreamHandler

end SpaceInvaders.Mediapipe

import SpaceInvaders.Mediapipe.OutputStreamPoller

namespace SpaceInvaders.Mediapipe

namespace OutputStreamPoller

open InputStreamManager

variable {π : Type}

-- What the caller has read of the stream stays true of it, as far as the caller relies on it.
def Reads (stream : InputStreamManager π) (minTimestamp : Timestamp) : Bool → Prop
  | true => minTimestamp ≤ stream.nextTimestampBound ∧
      ∀ packet ∈ stream.queue, minTimestamp ≤ packet.timestamp
  | false => stream.queue.head?.map Packet.timestamp = some minTimestamp

structure Valid (poller : OutputStreamPoller π) : Prop where
  ordered : poller.stream.Ordered
  opened : poller.stream.closed = false
  peeked : ∀ minTimestamp emptyQueue, poller.consumer = .peeked minTimestamp emptyQueue →
    Reads poller.stream minTimestamp emptyQueue
  unlocked : ∀ minTimestamp emptyQueue timestampBoundChanged,
    poller.consumer = .unlocked minTimestamp emptyQueue timestampBoundChanged →
      Reads poller.stream minTimestamp emptyQueue ∧ (emptyQueue → timestampBoundChanged)

theorem Reads.grow {before after : InputStreamManager π} {minTimestamp : Timestamp} {emptyQueue : Bool}
    (h : Reads before minTimestamp emptyQueue) (hgrows : Grows before after) :
    Reads after minTimestamp emptyQueue := by
  obtain ⟨joined, hqueue, hjoined⟩ := hgrows.queue
  cases emptyQueue with
  | true =>
      obtain ⟨hbound, hall⟩ := h
      refine ⟨hbound.trans hgrows.bound, ?_⟩
      rw [hqueue, List.forall_mem_append]
      exact ⟨hall, fun packet hpacket => hbound.trans (hjoined packet hpacket).1⟩
  | false =>
      unfold Reads at h ⊢
      rw [hqueue]
      cases hold : before.queue with
      | nil => simp [hold] at h
      | cons packet rest => simpa [hold] using h

theorem reads_peek (stream : InputStreamManager π) :
    Reads stream stream.minTimestampOrBound stream.isEmpty := by
  unfold minTimestampOrBound isEmpty
  cases h : stream.queue with
  | nil => exact ⟨le_rfl, by simp [h]⟩
  | cons packet rest => simp [Reads, h]

-- The pop of a caller that has read a packet takes that packet and drops none.
theorem Reads.pop {stream : InputStreamManager π} {minTimestamp : Timestamp}
    (h : Reads stream minTimestamp false) (hordered : stream.Ordered)
    (hopen : stream.closed = false) :
    ∃ popped rest, stream.popPacketAtTimestamp minTimestamp = some popped ∧
      popped.numPacketsDropped = 0 ∧ stream.queue = popped.packet :: rest ∧
      popped.packet.timestamp = minTimestamp ∧ popped.stream.queue = rest ∧
      popped.stream.nextTimestampBound = stream.nextTimestampBound ∧
      popped.stream.closed = false ∧ popped.stream.Ordered := by
  obtain ⟨packet, hhead, rfl⟩ := Option.map_eq_some_iff.mp h
  obtain ⟨rest, hqueue⟩ := List.head?_eq_some_iff.mp hhead
  have hmem : packet ∈ stream.queue := hqueue ▸ List.mem_cons_self ..
  obtain ⟨popped, hpop⟩ := popPacketAtTimestamp_isSome packet.timestamp stream hordered.timed
    (hordered.selected hopen packet hmem).le
  obtain ⟨hafter, hdropped, hmatch, _⟩ := pop_spec hordered hpop
  have hsorted := hordered.sorted
  rw [hqueue, List.pairwise_cons] at hsorted
  have hstream := (popPacketAtTimestamp_eq_some packet.timestamp stream popped hpop).2.2.1
  have hpacket := hmatch packet hmem rfl
  refine ⟨popped, rest, hpop, ?_, by rw [hpacket, hqueue], by rw [hpacket], ?_, ?_, ?_,
    pop_ordered hordered hpop⟩
  · rw [hdropped, hqueue, List.filter_cons_of_neg (by simp), List.filter_eq_nil_iff.mpr]
    · rfl
    · intro other hother
      simpa using (hsorted.1 other hother).le
  · rw [hafter, hqueue, List.filter_cons_of_neg (by simp), List.filter_eq_self.mpr]
    intro other hother
    simpa using hsorted.1 other hother
  · rw [hstream]
    exact if_neg (not_le.mpr (hordered.below packet hmem))
  · rw [hstream]
    exact hopen

section Step

variable {poller after : OutputStreamPoller π}

-- A producer that has called the stream leaves the rest of the poller as it is.
theorem produce_valid (added : Added π) (hvalid : Valid poller)
    (hgrows : Grows poller.stream added.stream) : Valid (poller.produce added) where
  ordered := hgrows.ordered
  opened := hgrows.opened
  peeked := fun minTimestamp emptyQueue h => (hvalid.peeked minTimestamp emptyQueue h).grow hgrows
  unlocked := fun minTimestamp emptyQueue changed h =>
    let hread := hvalid.unlocked minTimestamp emptyQueue changed h
    ⟨hread.1.grow hgrows, hread.2⟩

-- A caller that is in no critical state has read nothing.
theorem valid_of_consumer (hvalid : Valid poller) (hstream : after.stream = poller.stream)
    (hpeeked : ∀ minTimestamp emptyQueue, after.consumer ≠ .peeked minTimestamp emptyQueue)
    (hunlocked : ∀ minTimestamp emptyQueue changed,
      after.consumer ≠ .unlocked minTimestamp emptyQueue changed) : Valid after where
  ordered := hstream ▸ hvalid.ordered
  opened := hstream ▸ hvalid.opened
  peeked := fun minTimestamp emptyQueue h => absurd h (hpeeked minTimestamp emptyQueue)
  unlocked := fun minTimestamp emptyQueue changed h =>
    absurd h (hunlocked minTimestamp emptyQueue changed)

theorem signal_valid (hvalid : Valid poller) : Valid poller.signal := by
  unfold signal
  by_cases hasleep : poller.consumer = .asleep
  · rw [if_pos hasleep]
    exact valid_of_consumer hvalid rfl (by simp) (by simp)
  · rw [if_neg hasleep]
    exact ⟨hvalid.ordered, hvalid.opened, hvalid.peeked, hvalid.unlocked⟩

-- The three ways out of the test of the loop.
theorem decided_cases (minTimestamp : Timestamp) (emptyQueue : Bool) (poller : OutputStreamPoller π) :
    (∃ output, poller.decided minTimestamp emptyQueue =
        { poller with outputTimestamp := output, consumer := .idle } ∧
      (poller.graphHasError = true ∧ emptyQueue = true ∨ minTimestamp = .done)) ∨
    (poller.decided minTimestamp emptyQueue =
        { poller with
          outputTimestamp := if emptyQueue then minTimestamp.previousAllowedInStream else minTimestamp
          consumer := .unlocked minTimestamp emptyQueue (poller.boundChanged minTimestamp emptyQueue) } ∧
      (emptyQueue = true → poller.boundChanged minTimestamp emptyQueue = true)) ∨
    (poller.decided minTimestamp emptyQueue = { poller with consumer := .asleep } ∧
      poller.graphHasError = false ∧ emptyQueue = true ∧
      poller.boundChanged minTimestamp emptyQueue = false ∧ minTimestamp ≠ .done) := by
  unfold decided
  cases herror : poller.graphHasError <;> cases emptyQueue <;>
    cases hchanged : poller.boundChanged minTimestamp _ <;>
    by_cases hdone : minTimestamp = .done <;> simp_all

theorem decided_stream (minTimestamp : Timestamp) (emptyQueue : Bool) (poller : OutputStreamPoller π) :
    (poller.decided minTimestamp emptyQueue).stream = poller.stream := by
  rcases decided_cases minTimestamp emptyQueue poller with ⟨_, h, _⟩ | ⟨h, _⟩ | ⟨h, _⟩ <;> rw [h]

theorem decided_valid (minTimestamp : Timestamp) (emptyQueue : Bool) (hvalid : Valid poller)
    (hreads : Reads poller.stream minTimestamp emptyQueue) :
    Valid (poller.decided minTimestamp emptyQueue) := by
  rcases decided_cases minTimestamp emptyQueue poller with ⟨output, h, _⟩ | ⟨h, hempty⟩ | ⟨h, _⟩
  · rw [h]
    exact valid_of_consumer hvalid rfl (by simp) (by simp)
  · rw [h]
    refine ⟨hvalid.ordered, hvalid.opened, by simp, ?_⟩
    intro min empty changed hconsumer
    cases hconsumer
    exact ⟨hreads, hempty⟩
  · rw [h]
    exact valid_of_consumer hvalid rfl (by simp) (by simp)

theorem step_decide (h : step .decide poller = some after) :
    ∃ minTimestamp emptyQueue, poller.consumer = .peeked minTimestamp emptyQueue ∧
      after = poller.decided minTimestamp emptyQueue := by
  cases hconsumer : poller.consumer with
  | peeked minTimestamp emptyQueue =>
      simp only [step, hconsumer, Option.some.injEq] at h
      exact ⟨minTimestamp, emptyQueue, rfl, h.symm⟩
  | _ => simp [step, hconsumer] at h

-- A caller that is past the critical section returns at once or takes the head of the queue.
theorem step_finish (h : step .finish poller = some after) (hvalid : Valid poller) :
    (∃ minTimestamp changed, poller.consumer = .unlocked minTimestamp true changed ∧
      after = { poller with consumer := .idle }) ∨
    ∃ minTimestamp changed popped, poller.consumer = .unlocked minTimestamp false changed ∧
      poller.stream.popPacketAtTimestamp minTimestamp = some popped ∧
      poller.stream.queue = popped.packet :: popped.stream.queue ∧
      popped.packet.timestamp = minTimestamp ∧
      popped.stream.nextTimestampBound = poller.stream.nextTimestampBound ∧
      popped.stream.closed = false ∧ popped.stream.Ordered ∧
      after = { poller with stream := popped.stream, consumer := .idle } := by
  cases hconsumer : poller.consumer with
  | unlocked minTimestamp emptyQueue changed =>
      cases emptyQueue with
      | true =>
          simp only [step, hconsumer, Option.some.injEq] at h
          exact .inl ⟨minTimestamp, changed, rfl, h.symm⟩
      | false =>
          obtain ⟨popped, rest, hpop, hdropped, hqueue, htimestamp, rfl, hbound, hopen, hordered⟩ :=
            (hvalid.unlocked minTimestamp false changed hconsumer).1.pop hvalid.ordered hvalid.opened
          simp only [step, hconsumer, hpop, hdropped, if_true, Option.some.injEq] at h
          exact .inr ⟨minTimestamp, changed, popped, rfl, hpop, hqueue, htimestamp, hbound, hopen,
            hordered, h.symm⟩
  | _ => simp [step, hconsumer] at h

theorem step_valid (event : Event π) (h : step event poller = some after) (hvalid : Valid poller) :
    Valid after := by
  cases event with
  | addPackets container =>
      cases h
      exact produce_valid _ hvalid (addPackets_grows container _ hvalid.ordered hvalid.opened)
  | setNextTimestampBound bound =>
      cases h
      exact produce_valid _ hvalid (setNextTimestampBound_grows bound _ hvalid.ordered hvalid.opened)
  | recordError =>
      cases h
      exact ⟨hvalid.ordered, hvalid.opened, hvalid.peeked, hvalid.unlocked⟩
  | notify =>
      obtain ⟨_, ⟨⟩⟩ := Option.ite_none_right_eq_some.mp h
      exact signal_valid ⟨hvalid.ordered, hvalid.opened, hvalid.peeked, hvalid.unlocked⟩
  | notifyError =>
      obtain ⟨_, ⟨⟩⟩ := Option.ite_none_right_eq_some.mp h
      exact signal_valid ⟨hvalid.ordered, hvalid.opened, hvalid.peeked, hvalid.unlocked⟩
  | next =>
      obtain ⟨_, ⟨⟩⟩ := Option.ite_none_right_eq_some.mp h
      exact valid_of_consumer hvalid rfl (by simp) (by simp)
  | peek =>
      obtain ⟨_, ⟨⟩⟩ := Option.ite_none_right_eq_some.mp h
      refine ⟨hvalid.ordered, hvalid.opened, ?_, by simp⟩
      intro min empty hconsumer
      cases hconsumer
      exact reads_peek poller.stream
  | decide =>
      obtain ⟨min, empty, hconsumer, rfl⟩ := step_decide h
      exact decided_valid min empty hvalid (hvalid.peeked min empty hconsumer)
  | wake =>
      obtain ⟨_, ⟨⟩⟩ := Option.ite_none_right_eq_some.mp h
      exact valid_of_consumer hvalid rfl (by simp) (by simp)
  | finish =>
      rcases step_finish h hvalid with ⟨_, _, _, rfl⟩ | ⟨_, _, _, _, _, _, _, _, hopen, hordered, rfl⟩
      · exact valid_of_consumer hvalid rfl (by simp) (by simp)
      · exact ⟨hordered, hopen, by simp, by simp⟩

-- What joins the queue and what is returned, over one step.
theorem step_flow (event : Event π) (h : step event poller = some after) (hvalid : Valid poller) :
    poller.stream.queue ++ gain event poller = returned event poller ++ after.stream.queue := by
  cases event with
  | addPackets container =>
      cases h
      show _ = (addPackets container poller.stream).stream.queue
      rw [addPackets_stream, foldl_addPacket_queue]
      rfl
  | setNextTimestampBound bound =>
      cases h
      show poller.stream.queue ++ [] = (setNextTimestampBound bound poller.stream).stream.queue
      rcases setNextTimestampBound_cases bound poller.stream with h | ⟨_, _, h⟩ <;> simp [h]
  | recordError =>
      cases h
      exact List.append_nil _
  | notify =>
      obtain ⟨_, ⟨⟩⟩ := Option.ite_none_right_eq_some.mp h
      exact List.append_nil _
  | notifyError =>
      obtain ⟨_, ⟨⟩⟩ := Option.ite_none_right_eq_some.mp h
      exact List.append_nil _
  | next =>
      obtain ⟨_, ⟨⟩⟩ := Option.ite_none_right_eq_some.mp h
      exact List.append_nil _
  | peek =>
      obtain ⟨_, ⟨⟩⟩ := Option.ite_none_right_eq_some.mp h
      exact List.append_nil _
  | decide =>
      obtain ⟨min, empty, _, rfl⟩ := step_decide h
      rw [decided_stream]
      exact List.append_nil _
  | wake =>
      obtain ⟨_, ⟨⟩⟩ := Option.ite_none_right_eq_some.mp h
      exact List.append_nil _
  | finish =>
      rcases step_finish h hvalid with ⟨_, _, hconsumer, rfl⟩ | ⟨_, _, _, hconsumer, hpop, hqueue, _, _, _, _, rfl⟩
      · simp [returned, gain, hconsumer]
      · simp [returned, gain, hconsumer, hpop, hqueue]

-- The stream of a poller only goes where calls on it lead.
theorem step_calls (event : Event π) (h : step event poller = some after) (hvalid : Valid poller) :
    Transition.run call poller.stream (calls event poller) = some after.stream := by
  cases event with
  | addPackets container =>
      cases h
      rfl
  | setNextTimestampBound bound =>
      cases h
      rfl
  | recordError =>
      cases h
      rfl
  | notify =>
      obtain ⟨_, ⟨⟩⟩ := Option.ite_none_right_eq_some.mp h
      rfl
  | notifyError =>
      obtain ⟨_, ⟨⟩⟩ := Option.ite_none_right_eq_some.mp h
      rfl
  | next =>
      obtain ⟨_, ⟨⟩⟩ := Option.ite_none_right_eq_some.mp h
      rfl
  | peek =>
      obtain ⟨_, ⟨⟩⟩ := Option.ite_none_right_eq_some.mp h
      rfl
  | decide =>
      obtain ⟨min, empty, _, rfl⟩ := step_decide h
      rw [decided_stream]
      rfl
  | wake =>
      obtain ⟨_, ⟨⟩⟩ := Option.ite_none_right_eq_some.mp h
      rfl
  | finish =>
      rcases step_finish h hvalid with ⟨_, _, hconsumer, rfl⟩ | ⟨_, _, _, hconsumer, hpop, _, _, _, _, _, rfl⟩
      · simp [calls, hconsumer]
      · simp [calls, hconsumer, call, hpop]

theorem calls_gain (event : Event π) (h : step event poller = some after) :
    Transition.log call InputStreamManager.gain poller.stream (calls event poller) =
      gain event poller := by
  cases event with
  | addPackets container => exact List.append_nil _
  | setNextTimestampBound bound => rfl
  | finish =>
      cases hconsumer : poller.consumer with
      | unlocked minTimestamp emptyQueue changed =>
          cases emptyQueue with
          | true => simp [calls, gain, hconsumer]
          | false =>
              simp only [calls, hconsumer, Transition.log, InputStreamManager.gain, gain,
                List.nil_append]
              split <;> rfl
      | _ => simp [calls, gain, hconsumer]
  | _ => rfl

theorem finish_isSome (minTimestamp : Timestamp) (emptyQueue changed : Bool) (hvalid : Valid poller)
    (hconsumer : poller.consumer = .unlocked minTimestamp emptyQueue changed) :
    (step .finish poller).isSome := by
  cases emptyQueue with
  | true => simp [step, hconsumer]
  | false =>
      obtain ⟨popped, _, hpop, hdropped, _⟩ :=
        (hvalid.unlocked minTimestamp false changed hconsumer).1.pop hvalid.ordered hvalid.opened
      simp [step, hconsumer, hpop, hdropped]

theorem answer_ne_untouched (event : Event π) (hvalid : Valid poller) :
    ∀ given ∈ answer event poller, given ≠ .untouched := by
  cases event with
  | decide =>
      cases hconsumer : poller.consumer with
      | peeked minTimestamp emptyQueue =>
          simp only [answer, hconsumer]
          split <;> simp
      | _ => simp [answer, hconsumer]
  | finish =>
      cases hconsumer : poller.consumer with
      | unlocked minTimestamp emptyQueue changed =>
          cases emptyQueue with
          | true =>
              have hchanged := (hvalid.unlocked minTimestamp true changed hconsumer).2 rfl
              simp [answer, hconsumer, hchanged]
          | false =>
              simp only [answer, hconsumer]
              split <;> simp
      | _ => simp [answer, hconsumer]
  | _ => simp [answer]

-- The caller answers false without an error at the end of the stream only.
theorem finished_reads (hvalid : Valid poller) (hfinished : Answer.finished ∈ answer .decide poller)
    (hnoError : poller.graphHasError = false) :
    poller.stream.queue = [] ∧ poller.stream.nextTimestampBound = .done := by
  cases hconsumer : poller.consumer with
  | peeked minTimestamp emptyQueue =>
      have hreads := hvalid.peeked minTimestamp emptyQueue hconsumer
      simp only [answer, hconsumer] at hfinished
      split at hfinished
      · next hidle =>
        have hdone : minTimestamp = .done := by
          rcases decided_cases minTimestamp emptyQueue poller with ⟨_, _, h⟩ | ⟨h, _⟩ | ⟨h, _⟩
          · simpa [hnoError] using h
          · simp [h] at hidle
          · simp [h] at hidle
        subst hdone
        have hearlier : ∀ packet ∈ poller.stream.queue, ¬Timestamp.done ≤ packet.timestamp :=
          fun packet hpacket => not_le.mpr ((hvalid.ordered.allowed packet hpacket).2.trans_lt
            (show Timestamp.postStream < .done by decide))
        cases emptyQueue with
        | true =>
            refine ⟨List.eq_nil_iff_forall_not_mem.mpr fun packet hpacket =>
              hearlier packet hpacket (hreads.2 packet hpacket), ?_⟩
            exact le_antisymm poller.stream.nextTimestampBound.hmax hreads.1
        | false =>
            obtain ⟨packet, hhead, hequal⟩ := Option.map_eq_some_iff.mp hreads
            exact absurd hequal.ge (hearlier packet (List.mem_of_head? hhead))
      · simp at hfinished
  | _ => simp [answer, hconsumer] at hfinished

end Step

section Run

variable {start before after final : OutputStreamPoller π} {events done rest : List (Event π)}

theorem prepareForRun_valid (poller : OutputStreamPoller π) (hidle : poller.consumer = .idle)
    (htimed : poller.stream.enableTimestamps) : Valid poller.prepareForRun where
  ordered := prepareForRun_ordered poller.stream htimed
  opened := rfl
  peeked := fun _ _ h => absurd (hidle.symm.trans h) (by simp)
  unlocked := fun _ _ _ h => absurd (hidle.symm.trans h) (by simp)

theorem run_valid (hvalid : Valid start) (hrun : Transition.run step start events = some final) :
    Valid final :=
  Transition.run_invariant Valid events start final
    (fun _ event _ hvisits => step_valid event hvisits.step_eq) hvalid hrun

theorem visits_valid {event : Event π} (hvalid : Valid start)
    (hvisits : Transition.Visits step start events before event after) : Valid before :=
  hvisits.invariant Valid (fun _ event _ h => step_valid event h.step_eq) hvalid

theorem run_flow (hvalid : Valid start) (hrun : Transition.run step start events = some final) :
    start.stream.queue ++ Transition.log step gain start events =
      Transition.log step returned start events ++ final.stream.queue :=
  Transition.log_flow (fun poller => poller.stream.queue) gain returned events start final
    (fun _ event _ hvisits => step_flow event hvisits.step_eq (visits_valid hvalid hvisits)) hrun

theorem run_gain_sorted (hvalid : Valid start) (hrun : Transition.run step start events = some final) :
    (Transition.log step gain start events).Pairwise (·.timestamp < ·.timestamp) ∧
      ∀ packet ∈ Transition.log step gain start events,
        packet.timestamp.IsAllowedInStream ∧ start.stream.horizon ≤ packet.timestamp := by
  have hcalls : ∀ before event after, Transition.Visits step start events before event after →
      Transition.run call before.stream (calls event before) = some after.stream :=
    fun _ event _ hvisits => step_calls event hvisits.step_eq (visits_valid hvalid hvisits)
  rw [← Transition.log_refines OutputStreamPoller.stream calls gain InputStreamManager.gain events start
    final hcalls (fun _ event _ hvisits => calls_gain event hvisits.step_eq) hrun]
  exact log_gain_sorted _ start.stream final.stream hvalid.ordered
    (Transition.run_refines OutputStreamPoller.stream calls events start final hcalls hrun)

-- Between the read of the queue and the pop anything may happen to the stream. The
-- CHECKs of Next hold all the same, true never comes without a packet, and the
-- packets come as they were accepted.
theorem next_returns_accepted (poller final : OutputStreamPoller π) (events : List (Event π))
    (hidle : poller.consumer = .idle) (htimed : poller.stream.enableTimestamps)
    (hrun : Transition.run step poller.prepareForRun events = some final) :
    Transition.log step gain poller.prepareForRun events =
        Transition.log step returned poller.prepareForRun events ++ final.stream.queue ∧
      (Transition.log step gain poller.prepareForRun events).Pairwise (·.timestamp < ·.timestamp) ∧
      (∀ minTimestamp emptyQueue changed, final.consumer = .unlocked minTimestamp emptyQueue changed →
        (step .finish final).isSome) ∧
      Answer.untouched ∉ Transition.log step answer poller.prepareForRun events := by
  have hvalid := prepareForRun_valid poller hidle htimed
  refine ⟨run_flow hvalid hrun, (run_gain_sorted hvalid hrun).1,
    fun min empty changed hconsumer => finish_isSome min empty changed (run_valid hvalid hrun) hconsumer,
    fun huntouched => ?_⟩
  exact Transition.log_forall (· ≠ .untouched) answer events poller.prepareForRun final
    (fun _ event _ hvisits => answer_ne_untouched event (visits_valid hvalid hvisits)) hrun
    .untouched huntouched rfl

def outPoller : OutputStreamPoller Unit := (initialized "out" (fun _ => none) false).prepareForRun

-- A packet comes between the read of the queue and the pop.
def addedBetween : List (Event Unit) :=
  [.next, .addPackets [⟨some (), .min⟩], .peek, .decide, .addPackets [⟨some (), .max⟩]]

theorem next_returns_accepted_between :
    ∃ final, Transition.run step outPoller addedBetween = some final ∧
      Transition.log step gain outPoller addedBetween =
        Transition.log step returned outPoller addedBetween ++ final.stream.queue ∧
      (step .finish final).isSome ∧ answer .finish final = [.packet ⟨some (), .min⟩] := by
  obtain ⟨final, hfinal, hstate⟩ := Option.map_eq_some_iff.mp
    (show (Transition.run step outPoller addedBetween).map
      (fun final => (final.consumer, answer .finish final)) =
        some (.unlocked .min false false, [.packet ⟨some (), .min⟩]) by decide +kernel)
  obtain ⟨hconsumer, hanswer⟩ := Prod.mk.inj hstate
  have haccepted := next_returns_accepted (initialized "out" (fun _ => none) false) final addedBetween
    rfl rfl hfinal
  exact ⟨final, hfinal, haccepted.1, haccepted.2.2.1 _ _ _ hconsumer, hanswer⟩

-- False without an error is the end: what was ever accepted has been returned.
theorem next_finishes (poller before final : OutputStreamPoller π) (done rest : List (Event π))
    (hidle : poller.consumer = .idle) (htimed : poller.stream.enableTimestamps)
    (hdone : Transition.run step poller.prepareForRun done = some before)
    (hfinished : Answer.finished ∈ answer .decide before) (hnoError : before.graphHasError = false)
    (hrest : Transition.run step before rest = some final) :
    Transition.log step gain poller.prepareForRun (done ++ rest) =
      Transition.log step returned poller.prepareForRun done := by
  have hstart := prepareForRun_valid poller hidle htimed
  have hvalid := run_valid hstart hdone
  obtain ⟨hqueue, hbound⟩ := finished_reads hvalid hfinished hnoError
  have hflow := run_flow hstart hdone
  have hlater : Transition.log step gain before rest = [] := by
    apply List.eq_nil_iff_forall_not_mem.mpr
    intro packet hpacket
    obtain ⟨hallowed, hhorizon⟩ := (run_gain_sorted hvalid hrest).2 packet hpacket
    have hend : before.stream.horizon = .oneOverPostStream := by
      rw [horizon, hvalid.opened, hbound]
      decide
    rw [hend] at hhorizon
    exact absurd (hhorizon.trans hallowed.2)
      (show ¬Timestamp.oneOverPostStream ≤ .postStream by decide)
  rw [Transition.log_append _ _ _ hdone, hlater, List.append_nil]
  rw [hqueue, List.append_nil] at hflow
  exact hflow

-- Two packets are taken before the stream is done, and one more is offered after the answer.
def takenThenDone : List (Event Unit) :=
  [.addPackets [⟨some (), .min⟩], .next, .peek, .decide, .addPackets [⟨some (), .max⟩], .finish,
    .next, .peek, .decide, .finish, .setNextTimestampBound .done, .next, .peek]

def offeredAfter : List (Event Unit) := [.decide, .addPackets [⟨some (), .postStream⟩], .next, .peek]

theorem next_finishes_done :
    ∃ before final, Transition.run step outPoller takenThenDone = some before ∧
      Transition.run step before offeredAfter = some final ∧
      Transition.log step gain outPoller (takenThenDone ++ offeredAfter) =
        Transition.log step returned outPoller takenThenDone ∧
      Transition.log step returned outPoller takenThenDone = [⟨some (), .min⟩, ⟨some (), .max⟩] := by
  obtain ⟨before, hbefore, hstate⟩ := Option.map_eq_some_iff.mp
    (show (Transition.run step outPoller takenThenDone).map (fun before =>
      (answer .decide before, before.graphHasError, (Transition.run step before offeredAfter).isSome)) =
        some ([.finished], false, true) by decide +kernel)
  obtain ⟨hfinished, hstate⟩ := Prod.mk.inj hstate
  obtain ⟨hnoError, hsome⟩ := Prod.mk.inj hstate
  obtain ⟨final, hfinal⟩ := Option.isSome_iff_exists.mp hsome
  exact ⟨before, final, hbefore, hfinal,
    next_finishes (initialized "out" (fun _ => none) false) before final takenThenDone offeredAfter rfl rfl
      hbefore (hfinished ▸ List.mem_singleton_self _) hnoError hfinal, by decide +kernel⟩

end Run

end OutputStreamPoller

end SpaceInvaders.Mediapipe

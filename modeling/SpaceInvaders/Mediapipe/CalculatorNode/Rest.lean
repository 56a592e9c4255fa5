import SpaceInvaders.Mediapipe.CalculatorNode.WakeUp

namespace SpaceInvaders.Mediapipe

namespace OutputStreamHandler

variable {ω : Type} {handler after : OutputStreamHandler ω} {timestamp : Timestamp}

theorem length_insertTimestamp_le (timestamp : Timestamp) (timestamps : List Timestamp) :
    (insertTimestamp timestamp timestamps).length ≤ timestamps.length + 1 := by
  unfold insertTimestamp
  split
  · exact Nat.le_succ _
  · exact (List.orderedInsert_length _ _ _).le

-- A note gives the propagation thread four turns more at most.
theorem notePropagation_remaining (h : handler.notePropagation = some after) :
    remaining after ≤ remaining handler + 4 := by
  unfold remaining
  rcases notePropagation_cases h with ⟨hstate, rfl⟩ | ⟨_, _, rfl⟩ | ⟨_, _, _, _, _, rfl⟩ | ⟨_, rfl, _⟩
  · cases hthread : handler.thread <;> simp [turns, hstate]
  · simp only [propagatingBound, turns]
    omega
  · simp only [propagatingPackets, turns]
    omega
  · omega

theorem prepare_remaining (hvalid : handler.Valid)
    (h : step (.prepareCalculatorContext timestamp) handler = some after) :
    remaining after = remaining handler := by
  obtain ⟨_, _, rfl⟩ := step_prepareCalculatorContext hvalid h
  rfl

theorem update_remaining (h : step (.updateTaskTimestampBound timestamp) handler = some after) :
    remaining after ≤ remaining handler + 4 := by
  obtain ⟨_, ⟨_, rfl⟩ | ⟨_, hnote⟩⟩ := step_updateTaskTimestampBound h
  · exact Nat.le_add_right _ 4
  · have hle := notePropagation_remaining hnote
    exact hle

theorem post_remaining {outputs : ω} (h : step (.postProcess timestamp outputs) handler = some after) :
    remaining after ≤ remaining handler + 7 := by
  obtain ⟨_, hnote⟩ := step_postProcess h
  have hle := notePropagation_remaining hnote
  have hlength := length_insertTimestamp_le timestamp handler.completedInputTimestamps
  have hposted : remaining (handler.posted timestamp outputs) ≤ remaining handler + 3 := by
    unfold remaining posted
    simp only [finish]
    omega
  omega

end OutputStreamHandler

namespace SyncSet

variable {κ π : Type} {set after : SyncSet κ π}

-- The packets of a stream that no input set has been begun for.
def untaken (set : SyncSet κ π) (id : κ) : Nat :=
  match set.scheduling with
  | .filling _ inputSet =>
      ((set.streams id).queue.filter fun packet => inputSet.timestamp < packet.timestamp).length
  | _ => (set.streams id).queue.length

def untakenCount (set : SyncSet κ π) : Nat := (set.streamIds.map (untaken set)).sum

theorem untakenCount_congr (hids : after.streamIds = set.streamIds)
    (hsame : ∀ id, untaken after id = untaken set id) : untakenCount after = untakenCount set := by
  unfold untakenCount
  rw [hids, funext hsame]

variable [DecidableEq κ]

theorem getReadiness_untaken (h : step .getReadiness set = some after) :
    untakenCount after = untakenCount set := by
  obtain ⟨hscheduling, rfl⟩ := step_getReadiness h
  exact untakenCount_congr rfl fun id => by simp only [untaken, hscheduling]

theorem read_untaken (h : step .read set = some after) : untakenCount after = untakenCount set := by
  obtain ⟨_, _, _, _, hscheduling, rfl⟩ := step_read h
  exact untakenCount_congr rfl fun id => by simp only [untaken, hscheduling]

-- A packet that is taken has the timestamp of the input set.
theorem fill_untaken (h : step .fill set = some after) (hvalid : Valid set) :
    untakenCount after = untakenCount set := by
  obtain ⟨id, unfilled, inputSet, hscheduling, hfill⟩ := step_fill h
  obtain ⟨found, popped, hfound, _, hafter, hothers, _, hqueue⟩ := fillStream_valid hvalid hscheduling
  cases hfound.symm.trans hfill
  refine untakenCount_congr (step_frame .fill h).1 fun other => ?_
  simp only [untaken, hscheduling, hafter]
  by_cases hother : other = id
  · subst hother
    rcases hqueue with ⟨hqueue, htimestamp, _⟩ | ⟨_, hqueue⟩
    · rw [hqueue, List.filter_cons_of_neg (by simp [htimestamp])]
    · rw [hqueue]
  · rw [hothers other hother]

-- Nothing is left at the timestamp of an input set that is complete.
theorem process_untaken (h : step .process set = some after) (hvalid : Valid set) :
    untakenCount after = untakenCount set := by
  obtain ⟨inputSet, hscheduling, rfl⟩ := step_process h
  have hphase := hvalid.phase
  unfold Phase at hphase
  simp only [hscheduling] at hphase
  obtain ⟨_, _, _, _, hpast, _⟩ := hphase
  refine untakenCount_congr rfl fun id => ?_
  simp only [untaken, hscheduling]
  rw [List.filter_eq_self.mpr]
  exact fun packet hpacket => by simpa using (hpast id List.not_mem_nil).2.1 packet hpacket

theorem stop_untaken (h : step .decide set = some after) (hidle : after.scheduling = .idle) :
    untakenCount after = untakenCount set := by
  have hids := (step_frame .decide h).1
  obtain ⟨minBound, minPacket, hscheduling, hdecided⟩ := step_decide h
  refine untakenCount_congr hids fun id => ?_
  unfold decided at hdecided
  split at hdecided
  · obtain ⟨_, ⟨⟩⟩ := Option.ite_none_right_eq_some.mp hdecided
    cases hidle
  · cases hdecided
    simp only [untaken, hscheduling]

-- An input set is begun for one packet at least.
theorem prepare_untaken (h : step .decide set = some after) (hvalid : Valid set)
    (hplain : set.processTimestamps = false) {timestamp : Timestamp}
    (hfilling : after.scheduling = .filling set.streamIds { timestamp := timestamp, packets := [] }) :
    untakenCount after < untakenCount set := by
  have hframe := step_frame .decide h
  have hphase := (step_valid .decide h hvalid).phase
  obtain ⟨minBound, minPacket, hscheduling, hdecided⟩ := step_decide h
  have hstreams : after.streams = set.streams := by
    unfold decided at hdecided
    split at hdecided
    · obtain ⟨_, ⟨⟩⟩ := Option.ite_none_right_eq_some.mp hdecided
      rfl
    · cases hdecided
      rfl
  unfold Phase at hphase
  simp only [hfilling, hframe.2, hplain, List.not_mem_nil, false_and, exists_false, false_or,
    forall_const] at hphase
  obtain ⟨_, _, _, _, _, _, id, hid, packet, hpacket, htimestamp⟩ := hphase
  unfold untakenCount
  rw [hframe.1]
  refine List.sum_lt_sum _ _ (fun other _ => ?_) ⟨id, hid, ?_⟩
  · simp only [untaken, hfilling, hscheduling, hstreams]
    exact List.length_filter_le _ _
  · rw [hstreams] at hpacket
    simp only [untaken, hfilling, hscheduling, hstreams]
    refine List.length_filter_lt_length_iff_exists.mpr ⟨packet, hpacket, ?_⟩
    simp [htimestamp]

end SyncSet

namespace CalculatorNode

open SyncSet OutputStreamHandler

variable {κ π ω : Type} {process : Timestamp × (κ → List (Packet π)) → ω}
  {node after : CalculatorNode κ π ω}

-- What is not a call of a producer or an error of another node.
inductive Event.Internal : Event κ π → Prop where
  | notify : Event.Internal .notify
  | schedule : Event.Internal .schedule
  | postProcess (inputTimestamp : Timestamp) : Event.Internal (.postProcess inputTimestamp)
  | endScheduling : Event.Internal .endScheduling
  | propagate : Event.Internal .propagate

-- The steps that are left to a scheduling thread, if it finds nothing to do after an input
-- set that it has begun. An invocation costs 18 + streams.
def threadWork (streams : Nat) (thread : SchedulingThread) (scheduling : Scheduling κ π) : Nat :=
  match thread, scheduling with
  | .absent, _ => 0
  | .leaving, _ => 1
  | .updating _, _ => 6
  | .entering, _ => streams + 9
  | .scheduling _, .idle => streams + 8
  | .scheduling _, .reading unread _ _ => unread.length + 7
  | .scheduling _, .filling unfilled _ => unfilled.length + 2 * streams + 27

-- A bound on the steps that a node takes before it needs a producer. A notification and the
-- end of an invocation may each start the scheduling thread once more.
def work (node : CalculatorNode κ π ω) : Nat :=
  (3 * node.inputs.streamIds.length + 21) * untakenCount node.inputs +
    threadWork node.inputs.streamIds.length node.schedulingThread node.inputs.scheduling +
    (node.inputs.streamIds.length + 10) * (node.notifying + node.ending) +
    (if node.schedulingState = .schedulingPending then node.inputs.streamIds.length + 9 else 0) +
    (node.inputs.streamIds.length + 18) * node.scheduled.length + remaining node.outputs

-- What a notification or the end of an invocation may cost is at hand.
theorem token_work (node : CalculatorNode κ π ω) {count left : Nat} (h : count = left + 1) :
    (node.inputs.streamIds.length + 10) * count =
      (node.inputs.streamIds.length + 10) * left + (node.inputs.streamIds.length + 10) := by
  rw [h, Nat.mul_succ]

variable [DecidableEq κ]

-- A turn of the loops of GetReadiness and FillInputSet.
theorem read_work {allowance : Nat} {call : SyncSet.Event κ π} {inputs : SyncSet κ π} (hvalid : node.Valid)
    (hthread : node.schedulingThread = .scheduling allowance)
    (hinputs : SyncSet.step call node.inputs = some inputs)
    (hturn : call = .getReadiness ∨ call = .read ∨ call = .fill) :
    work { node with inputs := inputs } < work node := by
  have hids := (step_frame call hinputs).1
  have hthreadWork : untakenCount inputs = untakenCount node.inputs ∧
      threadWork node.inputs.streamIds.length (.scheduling allowance) inputs.scheduling <
        threadWork node.inputs.streamIds.length (.scheduling allowance) node.inputs.scheduling := by
    rcases hturn with rfl | rfl | rfl
    · refine ⟨getReadiness_untaken hinputs, ?_⟩
      obtain ⟨hscheduling, rfl⟩ := step_getReadiness hinputs
      simp only [threadWork, hscheduling]
      omega
    · refine ⟨read_untaken hinputs, ?_⟩
      obtain ⟨_, _, _, _, hscheduling, rfl⟩ := step_read hinputs
      simp only [threadWork, hscheduling, List.length_cons]
      omega
    · refine ⟨fill_untaken hinputs hvalid.inputs, ?_⟩
      obtain ⟨_, _, _, hscheduling, hfill⟩ := step_fill hinputs
      obtain ⟨found, _, hfound, _, hafter, _⟩ := fillStream_valid hvalid.inputs hscheduling
      cases hfound.symm.trans hfill
      simp only [threadWork, hscheduling, hafter, List.length_cons]
      omega
  obtain ⟨huntaken, hless⟩ := hthreadWork
  unfold work
  simp only [hids, hthread, huntaken]
  omega

theorem notify_work (h : Moves process node .notify after) (hvalid : node.Valid) :
    after.work < node.work := by
  have htoken : node.notifying ≠ 0 → _ := fun hnotifying => token_work node
    (show node.notifying + node.ending = node.notifying - 1 + node.ending + 1 by omega)
  cases h with
  | notifyStarts hnotifying hidle hfree =>
      unfold work
      simp only [hidle, hvalid.absent.mpr hidle, threadWork, htoken hnotifying]
      simp
      omega
  | notifyNotes hnotifying hstate =>
      unfold work
      simp only [hstate, htoken hnotifying]
      simp
      omega
  | notifyNothing hnotifying hstate =>
      unfold work
      simp only [htoken hnotifying]
      omega

theorem end_work (h : Moves process node .endScheduling after) (hvalid : node.Valid) :
    after.work < node.work := by
  have htoken : node.ending ≠ 0 → _ := fun hending => token_work node
    (show node.notifying + node.ending = node.notifying + (node.ending - 1) + 1 by omega)
  cases h with
  | endsWithNote hending hcounted hstate =>
      unfold work
      simp only [htoken hending]
      simp
      omega
  | endsAndStarts hending hcounted hidle =>
      unfold work
      simp only [hidle, hvalid.absent.mpr hidle, threadWork, htoken hending]
      simp
      omega

theorem schedule_work (h : Moves process node .schedule after) (hvalid : node.Valid) :
    after.work < node.work := by
  have hphase := hvalid.thread
  unfold Thread at hphase
  cases h with
  | enters hthread =>
      simp only [hthread] at hphase
      unfold work
      simp only [hthread, hphase.1, threadWork]
      omega
  | exhausts hthread hidle =>
      unfold work
      simp only [hthread, hidle, threadWork]
      omega
  | reads allowance call inputs hthread hcall hinputs hturn => exact read_work hvalid hthread hinputs hturn
  | prepares allowance timestamp inputs outputs hthread hcall hinputs hdecision hfilling houtputs =>
      obtain ⟨_, _, hscheduling, _⟩ := step_decide hinputs
      have hless := prepare_untaken hinputs hvalid.inputs hvalid.plain hfilling
      have hwork := Nat.mul_le_mul_left (3 * node.inputs.streamIds.length + 21) (Nat.succ_le_of_lt hless)
      rw [Nat.mul_succ] at hwork
      unfold work
      simp only [hthread, hfilling, hscheduling, (step_frame .decide hinputs).1, threadWork,
        prepare_remaining hvalid.outputs houtputs, List.length_nil]
      omega
  | stops allowance result timestamp inputs thread hthread hcall hinputs hdecision hresult hidle hafter =>
      obtain ⟨_, _, hscheduling, _⟩ := step_decide hinputs
      unfold work
      simp only [hthread, hidle, hscheduling, (step_frame .decide hinputs).1, stop_untaken hinputs hidle]
      rcases hafter with rfl | ⟨_, rfl⟩
      · simp only [threadWork, List.length_nil]
        omega
      · simp only [threadWork, List.length_nil]
        omega
  | schedules allowance inputSet hthread hscheduling hpositive hfree =>
      have huntaken : untakenCount { node.inputs with scheduling := .idle } = untakenCount node.inputs :=
        process_untaken (by simp only [SyncSet.step, hscheduling]) hvalid.inputs
      unfold work
      simp only [hthread, hscheduling, huntaken, threadWork, List.length_append, List.length_singleton,
        List.length_nil, Nat.mul_succ]
      omega
  | drops allowance inputSet hthread hscheduling hpositive herror =>
      have huntaken : untakenCount { node.inputs with scheduling := .idle } = untakenCount node.inputs :=
        process_untaken (by simp only [SyncSet.step, hscheduling]) hvalid.inputs
      unfold work
      simp only [hthread, hscheduling, huntaken, threadWork, List.length_nil]
      omega
  | updates inputBound outputs hthread houtputs =>
      have hle := update_remaining houtputs
      unfold work
      simp only [hthread, threadWork]
      omega
  | repeats hthread hpending hfree =>
      simp only [hthread] at hphase
      unfold work
      simp only [hthread, hpending, hphase.1, threadWork]
      simp
      omega
  | leaves hthread hlast =>
      unfold work
      simp only [hthread, threadWork]
      simp
      omega

theorem step_work (event : Event κ π) (h : step process event node = some after) (hvalid : node.Valid)
    (hinternal : event.Internal) : after.work < node.work := by
  have hmoves := moves_of_step h hvalid
  cases hinternal with
  | notify => exact notify_work hmoves hvalid
  | schedule => exact schedule_work hmoves hvalid
  | endScheduling => exact end_work hmoves hvalid
  | postProcess inputTimestamp =>
      cases hmoves with
      | posts inputSet outputs hmem houtputs =>
          have hle := post_remaining houtputs
          have hlength := length_filter_timestamp inputSet.timestamp node.scheduled hvalid.ascending
            ⟨inputSet, hmem, rfl⟩
          unfold work
          simp only [← hlength, Nat.mul_succ, ← Nat.add_assoc]
          omega
  | propagate =>
      cases hmoves with
      | propagates event outputs hturn houtputs =>
          obtain ⟨found, hfound, hless⟩ := step_turn hvalid.outputs hturn
          cases hfound.symm.trans houtputs
          unfold work
          simp only
          omega

theorem run_work {final : CalculatorNode κ π ω} (events : List (Event κ π)) (hvalid : node.Valid)
    (hinternal : ∀ event ∈ events, event.Internal)
    (hrun : Transition.run (step process) node events = some final) :
    events.length + final.work ≤ node.work := by
  induction events generalizing node with
  | nil =>
      cases hrun
      simp
  | cons event rest ih =>
      rw [List.forall_mem_cons] at hinternal
      rw [Transition.run_cons, Option.bind_eq_some_iff] at hrun
      obtain ⟨next, hnext, hrun⟩ := hrun
      have hless := step_work event hnext hvalid hinternal.1
      have hrest := ih (step_valid event hnext hvalid) hinternal.2 hrun
      rw [List.length_cons]
      omega

-- No thread of the node can go on.
def Still (process : Timestamp × (κ → List (Packet π)) → ω) (node : CalculatorNode κ π ω) : Prop :=
  ∀ event : Event κ π, event.Internal → step process event node = none

theorem exists_still (process : Timestamp × (κ → List (Packet π)) → ω) (start : CalculatorNode κ π ω)
    (hvalid : start.Valid) :
    ∃ events final, (∀ event ∈ events, Event.Internal event) ∧
      Transition.run (step process) start events = some final ∧ Still process final := by
  generalize hwork : start.work = bound
  induction bound using Nat.strongRecOn generalizing start with
  | ind bound ih =>
      by_cases hstill : Still process start
      · exact ⟨[], start, by simp, rfl, hstill⟩
      · unfold Still at hstill
        push Not at hstill
        obtain ⟨event, hinternal, hsome⟩ := hstill
        obtain ⟨next, hnext⟩ := Option.ne_none_iff_exists'.mp hsome
        have hless := step_work event hnext hvalid hinternal
        obtain ⟨events, final, hall, hrun, hfinal⟩ :=
          ih next.work (hwork ▸ hless) next (step_valid event hnext hvalid) rfl
        refine ⟨event :: events, final, List.forall_mem_cons.mpr ⟨hinternal, hall⟩, ?_, hfinal⟩
        rw [Transition.run_cons, hnext]
        exact hrun

-- Nobody is left to run, to be heard or to hand on.
theorem Still.rests (hstill : Still process node) (hvalid : node.Valid) :
    node.schedulingState = .idle ∧ node.notifying = 0 ∧ node.currentInFlight = 0 ∧ node.Resting := by
  have habsent : node.schedulingThread = .absent := by
    by_contra hpresent
    obtain ⟨after, hafter, _⟩ : ∃ after, step process .schedule node = some after ∧ after.Valid :=
      schedule_valid hvalid hpresent
    cases (hstill .schedule .schedule).symm.trans hafter
  have hscheduled : node.scheduled = [] := by
    refine List.eq_nil_iff_forall_not_mem.mpr fun inputSet hmem => ?_
    obtain ⟨after, hafter, _⟩ :
        ∃ after, step process (.postProcess inputSet.timestamp) node = some after ∧ after.Valid :=
      postProcess_valid hvalid inputSet hmem
    cases (hstill _ (.postProcess inputSet.timestamp)).symm.trans hafter
  have hending : node.ending = 0 := by
    by_contra hending
    obtain ⟨after, hafter⟩ : ∃ after, step process .endScheduling node = some after :=
      end_proceeds hvalid hending
    cases (hstill .endScheduling .endScheduling).symm.trans hafter
  have hnotifying : node.notifying = 0 := by
    by_contra hnotifying
    have hnotify : step process .notify node = _ := step_of (if_neg hnotifying) rfl rfl
    cases (hstill .notify .notify).symm.trans hnotify
  have houtputs : node.outputs.thread = .absent := by
    by_contra hpresent
    obtain ⟨after, hafter, _⟩ : ∃ after, step process .propagate node = some after ∧ after.Valid :=
      propagate_valid hvalid hpresent
    cases (hstill .propagate .propagate).symm.trans hafter
  have hcounted := hvalid.counted
  rw [hscheduled, hending] at hcounted
  refine ⟨hvalid.absent.mp habsent, hnotifying, hcounted, hscheduled, ?_,
    idle_of_absent hvalid.outputs houtputs⟩
  have hphase := hvalid.thread
  unfold Thread at hphase
  simp only [habsent] at hphase
  simp [filling, hphase.1]

-- However its threads are scheduled, a node that is left alone comes to rest. Without an
-- error it has then handed on all it could, and its packets wait for streams that are empty.
theorem threads_come_to_rest (process : Timestamp × (κ → List (Packet π)) → ω) (inputs : SyncSet κ π)
    (maxInFlight : Nat) (before final : CalculatorNode κ π ω) (events more : List (Event κ π))
    (htimed : ∀ id, (inputs.streams id).enableTimestamps)
    (hrejects : ∀ id packet, packet.holder = none → (inputs.streams id).validate packet ≠ none)
    (hplain : inputs.processTimestamps = false)
    (hrun : Transition.run (step process) (opened inputs maxInFlight) events = some before)
    (hinternal : ∀ event ∈ more, Event.Internal event)
    (hmore : Transition.run (step process) before more = some final) :
    more.length ≤ before.work ∧
      (∃ rest last, (∀ event ∈ rest, Event.Internal event) ∧
        Transition.run (step process) final rest = some last ∧ Still process last) ∧
      (Still process final →
        final.scheduled = [] ∧ final.currentInFlight = 0 ∧
          (final.hasError = false →
            Transition.log (step process) (handedOn process) (opened inputs maxInFlight) (events ++ more) =
              (Transition.log (step process) delivered (opened inputs maxInFlight) (events ++ more)).map
                (made process)) ∧
          (final.hasError = false → 0 < maxInFlight → Starved final.inputs)) := by
  have hstart : (opened inputs maxInFlight : CalculatorNode κ π ω).Valid :=
    opened_valid inputs maxInFlight htimed hrejects hplain
  have hvalid := run_valid hstart hrun
  have hwhole : Transition.run (step process) (opened inputs maxInFlight) (events ++ more) = some final := by
    rw [Transition.run_append, hrun]
    exact hmore
  have hfinal := run_valid hvalid hmore
  refine ⟨?_, exists_still process final hfinal, fun hstill => ?_⟩
  · have hwork := run_work more hvalid hinternal hmore
    omega
  obtain ⟨hidle, hquiet, hcounted, hresting⟩ := hstill.rests hfinal
  refine ⟨hresting.scheduled, hcounted,
    fun hnoError => handedOn_resting htimed hrejects hplain hwhole hnoError hresting,
    fun hnoError hpositive => ?_⟩
  have halert := run_alert hstart (fun _ => .inl Nat.one_ne_zero) hwhole
  refine halert.starved hfinal hidle hquiet hnoError ?_
  rw [hcounted, run_maxInFlight hstart hwhole]
  exact hpositive

theorem still_of_quiet (hthread : node.schedulingThread = .absent) (hscheduled : node.scheduled = [])
    (hending : node.ending = 0) (hnotifying : node.notifying = 0) (houtputs : node.outputs.thread = .absent) :
    Still process node := by
  intro event hinternal
  refine Option.eq_none_iff_forall_ne_some.mpr fun after h => ?_
  obtain ⟨advanced, _, _, hadvanced, _⟩ := step_cases h
  cases hinternal with
  | notify => simp [advance, hnotifying] at hadvanced
  | schedule => simp [advance, schedulingLoop, hthread] at hadvanced
  | postProcess inputTimestamp => simp [advance, hscheduled] at hadvanced
  | endScheduling => simp [advance, hending] at hadvanced
  | propagate => simp [advance, houtputs] at hadvanced

-- Both calculators run before the first one returns, which is the later one.
def untilRest : List (Event Bool Unit) :=
  [.notify, .notify] ++ List.replicate 17 .schedule ++ [.postProcess .max, .postProcess .min, .endScheduling] ++
    List.replicate 6 .schedule ++ [.endScheduling] ++ List.replicate 6 .schedule ++
    List.replicate 6 .propagate

theorem threads_come_to_rest_busy :
    ∃ before final, Transition.run (step countFirst) (opened (twoInputs false) 2) fed = some before ∧
      Transition.run (step countFirst) before untilRest = some final ∧ 41 ≤ before.work ∧
      Transition.log (step countFirst) (handedOn countFirst) (opened (twoInputs false) 2) (fed ++ untilRest) =
        (Transition.log (step countFirst) delivered (opened (twoInputs false) 2) (fed ++ untilRest)).map
          (made countFirst) ∧
      Transition.log (step countFirst) (handedOn countFirst) (opened (twoInputs false) 2) (fed ++ untilRest) =
        [(.min, 1), (.max, 1)] := by
  obtain ⟨before, hbefore⟩ := Option.isSome_iff_exists.mp
    (show (Transition.run (step countFirst) (opened (twoInputs false) 2) fed).isSome by decide +kernel)
  obtain ⟨final, hfinal⟩ := Option.isSome_iff_exists.mp
    (show (Transition.run (step countFirst) before untilRest).isSome by
      cases hbefore
      decide +kernel)
  have hrest : Still countFirst final ∧ final.hasError = false := by
    cases hbefore
    cases hfinal
    exact ⟨still_of_quiet (by decide +kernel) (List.isEmpty_iff.mp (by decide +kernel)) (by decide +kernel)
      (by decide +kernel) (by decide +kernel), by decide +kernel⟩
  have hinternal : ∀ event ∈ untilRest, Event.Internal event := by
    intro event hevent
    simp only [untilRest, List.mem_append, List.mem_cons, List.mem_replicate, List.not_mem_nil,
      or_false, ne_eq] at hevent
    rcases hevent with ((((((rfl | rfl) | ⟨_, rfl⟩) | rfl | rfl | rfl) | ⟨_, rfl⟩) | rfl) | ⟨_, rfl⟩) | ⟨_, rfl⟩
    all_goals constructor
  obtain ⟨hwork, _, hcomes⟩ := threads_come_to_rest countFirst _ 2 before final fed untilRest (fun _ => rfl)
    (twoInputs_rejects false) rfl hbefore hinternal hfinal
  exact ⟨before, final, hbefore, hfinal, hwork, (hcomes hrest.1).2.2.1 hrest.2, by decide +kernel⟩

end CalculatorNode

end SpaceInvaders.Mediapipe

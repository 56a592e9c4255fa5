import SpaceInvaders.Mediapipe.CalculatorNode.Outputs

namespace SpaceInvaders.Mediapipe

namespace InputStreamManager

variable {π : Type} {stream before after : InputStreamManager π}

-- Each packet comes after one that was there, and an empty stream shows no change.
structure Behind (before after : InputStreamManager π) : Prop where
  queue : ∀ packet ∈ after.queue, ∃ old ∈ before.queue, old.timestamp ≤ packet.timestamp
  still : before.queue = [] → after.queue = [] ∧ after.nextTimestampBound = before.nextTimestampBound

theorem Behind.refl (stream : InputStreamManager π) : Behind stream stream :=
  ⟨fun packet hpacket => ⟨packet, hpacket, le_rfl⟩, fun hnone => ⟨hnone, rfl⟩⟩

theorem Grows.behind (hgrows : Grows before after) (hordered : before.Ordered)
    (hstill : before.queue = [] → after = before) : Behind before after := by
  cases hqueue : before.queue with
  | nil =>
      rw [hstill hqueue]
      exact .refl before
  | cons head rest =>
      refine ⟨fun packet hpacket => ?_, fun hnone => absurd (hqueue.symm.trans hnone) (by simp)⟩
      obtain ⟨joined, hjoin, hlater⟩ := hgrows.queue
      rw [hjoin] at hpacket
      rcases List.mem_append.mp hpacket with hold | hnew
      · exact ⟨packet, hold, le_rfl⟩
      · have hhead : head ∈ before.queue := by simp [hqueue]
        exact ⟨head, hhead, (hordered.below head hhead).le.trans (hlater packet hnew).1⟩

-- A call that neither fails nor notifies leaves an empty stream as it was.
theorem addPackets_still (container : List (Packet π)) (hopen : stream.closed = false)
    (hstatus : (addPackets container stream).status = none)
    (hnotify : (addPackets container stream).notify = false) (hqueue : stream.queue = []) :
    (addPackets container stream).stream = stream := by
  obtain ⟨haccepted, hnotified⟩ := addPackets_of_status container stream hopen hstatus
  cases container with
  | nil =>
      rw [addPackets_stream, gained, if_neg (by simp [hopen]), haccepted]
      rfl
  | cons packet rest => simp [hnotified, hqueue] at hnotify

theorem setNextTimestampBound_still (bound : Timestamp)
    (hnotify : (setNextTimestampBound bound stream).notify = false) (hqueue : stream.queue = []) :
    (setNextTimestampBound bound stream).stream = stream := by
  unfold setNextTimestampBound at hnotify ⊢
  split
  · rfl
  split
  · rfl
  split
  · next hclosed hlow hbound => simp [hclosed, hlow, hbound, hqueue] at hnotify
  · rfl

end InputStreamManager

namespace SyncSet

open InputStreamManager

variable {κ π : Type} {set after : SyncSet κ π} {streams : κ → InputStreamManager π}
  {unread : List κ} {minBound minPacket : Timestamp}

-- Every packet waits for an empty stream, whose bound has not passed it.
def Starved (set : SyncSet κ π) : Prop :=
  ∀ id, ∀ packet ∈ (set.streams id).queue,
    ∃ other, (set.streams other).queue = [] ∧ (set.streams other).nextTimestampBound ≤ packet.timestamp

-- The minima of the streams that have been read are still those of the streams.
structure Current (unread : List κ) (minBound minPacket : Timestamp) (set : SyncSet κ π) : Prop where
  packets : ∀ id, id ∉ unread → ∀ packet ∈ (set.streams id).queue, minPacket ≤ packet.timestamp
  bound : minBound = .done ∨
    ∃ id, (set.streams id).queue = [] ∧ (set.streams id).nextTimestampBound ≤ minBound

theorem Starved.change (h : Starved set) (hbehind : ∀ id, Behind (set.streams id) (streams id)) :
    Starved { set with streams := streams } := by
  intro id packet hpacket
  obtain ⟨old, hold, hle⟩ := (hbehind id).queue packet hpacket
  obtain ⟨other, hnone, hbound⟩ := h id old hold
  obtain ⟨hnone', hbound'⟩ := (hbehind other).still hnone
  exact ⟨other, hnone', (hbound'.trans_le hbound).trans hle⟩

theorem Current.change (h : Current unread minBound minPacket set)
    (hbehind : ∀ id, Behind (set.streams id) (streams id)) :
    Current unread minBound minPacket { set with streams := streams } := by
  refine ⟨fun id hid packet hpacket => ?_, h.bound.imp_right ?_⟩
  · obtain ⟨old, hold, hle⟩ := (hbehind id).queue packet hpacket
    exact (h.packets id hid old hold).trans hle
  · rintro ⟨id, hnone, hbound⟩
    obtain ⟨hnone', hbound'⟩ := (hbehind id).still hnone
    exact ⟨id, hnone', hbound'.trans_le hbound⟩

theorem Current.read {id : κ} (h : Current (id :: unread) minBound minPacket set)
    (hordered : (set.streams id).Ordered) :
    Current unread (readStream (set.streams id) minBound minPacket).1
      (readStream (set.streams id) minBound minPacket).2 set := by
  have hle := (readStream_le (set.streams id) minBound minPacket).2
  refine ⟨fun other hother packet hpacket => ?_, ?_⟩
  · by_cases heq : other = id
    · subst heq
      unfold readStream isEmpty minTimestampOrBound
      cases hqueue : (set.streams other).queue with
      | nil => simp [hqueue] at hpacket
      | cons head rest =>
          have hsorted := hordered.sorted
          rw [hqueue] at hpacket hsorted
          rcases List.mem_cons.mp hpacket with rfl | hrest
          · exact min_le_right _ _
          · exact (min_le_right _ _).trans ((List.pairwise_cons.mp hsorted).1 packet hrest).le
    · exact hle.trans (h.packets other (by simp [heq, hother]) packet hpacket)
  · unfold readStream isEmpty minTimestampOrBound
    cases hqueue : (set.streams id).queue with
    | nil =>
        rcases min_choice minBound (set.streams id).nextTimestampBound with heq | heq
        · simpa [heq] using h.bound
        · simp only [List.isEmpty_nil, if_true, heq]
          exact .inr ⟨id, hqueue, le_rfl⟩
    | cons head rest => exact h.bound

-- A node that is not ready for an invocation after a read of all streams is starved.
theorem Current.starved (h : Current [] minBound minPacket set)
    (hallowed : ∀ id, (set.streams id).Ordered) (hplain : set.processTimestamps = false)
    (hready : (readiness set.processTimestamps set.lastProcessedTs minBound minPacket).1 ≠
      .readyForProcess) : Starved set := by
  intro id packet hpacket
  have hle := h.packets id List.not_mem_nil packet hpacket
  have hlast := ((hallowed id).allowed packet hpacket).2
  have hopen : ¬.oneOverPostStream ≤ minPacket := not_le.mpr
    ((hle.trans hlast).trans_lt (show Timestamp.postStream < .oneOverPostStream by decide))
  have hbound : minBound ≤ minPacket := by
    refine not_lt.mp fun hlt => hready ?_
    unfold readiness
    rw [min_eq_left hlt.le, if_neg hopen, if_pos hplain, if_pos hlt]
  rcases h.bound with rfl | ⟨other, hnone, hother⟩
  · exact absurd ((hbound.trans hle).trans hlast) (by decide)
  · exact ⟨other, hnone, (hother.trans hbound).trans hle⟩

end SyncSet

namespace CalculatorNode

open SyncSet OutputStreamHandler

variable {κ π ω : Type} {process : Timestamp × (κ → List (Packet π)) → ω}
  {node after : CalculatorNode κ π ω}

-- What the scheduling thread, or the lack of one, has left to do when nobody has sent word.
def Watched (node : CalculatorNode κ π ω) : Prop :=
  match node.schedulingThread with
  | .entering => True
  | .scheduling allowance => allowance + node.currentInFlight = node.maxInFlight ∧
      ∀ unread minBound minPacket, node.inputs.scheduling = .reading unread minBound minPacket →
        Current unread minBound minPacket node.inputs
  | _ => node.currentInFlight < node.maxInFlight → Starved node.inputs

-- Either somebody is still to be heard or the streams are as the node has seen them.
def Alert (node : CalculatorNode κ π ω) : Prop :=
  node.hasError = false →
    node.notifying ≠ 0 ∨ node.schedulingState = .schedulingPending ∨ node.Watched

theorem Watched.change {streams : κ → InputStreamManager π} (h : node.Watched)
    (hbehind : ∀ id, InputStreamManager.Behind (node.inputs.streams id) (streams id)) (notifying : Nat)
    (hasError : Bool) :
    Watched { node with
      inputs := { node.inputs with streams := streams }
      notifying := notifying
      hasError := hasError } := by
  unfold Watched at h ⊢
  cases hthread : node.schedulingThread with
  | entering => trivial
  | scheduling allowance =>
      simp only [hthread] at h ⊢
      exact ⟨h.1, fun unread minBound minPacket hscheduling =>
        (h.2 unread minBound minPacket hscheduling).change hbehind⟩
  | _ =>
      simp only [hthread] at h ⊢
      exact fun hfree => (h hfree).change hbehind

variable [DecidableEq κ]

theorem Alert.produce (halert : node.Alert) (hvalid : node.Valid) (id : κ)
    (added : InputStreamManager.Added π)
    (hgrows : InputStreamManager.Grows (node.inputs.streams id) added.stream)
    (hstill : added.status = none → added.notify = false → (node.inputs.streams id).queue = [] →
      added.stream = node.inputs.streams id) :
    Alert { changed added node with
      inputs := { node.inputs with streams := Function.update node.inputs.streams id added.stream } } := by
  intro hnoError
  simp only [changed, Bool.or_eq_false_iff, Option.isSome_eq_false_iff, Option.isNone_iff_eq_none] at hnoError
  cases hnotify : added.notify with
  | true =>
      left
      simp [changed, hnotify]
  | false =>
      have hbehind : ∀ other, InputStreamManager.Behind (node.inputs.streams other)
          (Function.update node.inputs.streams id added.stream other) := by
        intro other
        by_cases hother : other = id
        · rw [hother, Function.update_self]
          exact hgrows.behind (hvalid.inputs.ordered id) (hstill hnoError.2 hnotify)
        · rw [Function.update_of_ne hother]
          exact .refl _
      rcases halert hnoError.1 with hnotifying | hpending | hwatched
      · exact .inl (by simpa [changed, hnotify] using hnotifying)
      · exact .inr (.inl hpending)
      · right
        right
        exact hwatched.change hbehind _ _

theorem Alert.read (halert : node.Alert) (hvalid : node.Valid) {allowance : Nat}
    {call : SyncSet.Event κ π} {inputs : SyncSet κ π}
    (hthread : node.schedulingThread = .scheduling allowance)
    (hinputs : SyncSet.step call node.inputs = some inputs)
    (hturn : call = .getReadiness ∨ call = .read ∨ call = .fill) : Alert { node with inputs := inputs } := by
  refine fun hnoError => (halert hnoError).imp_right fun h => h.imp_right fun hwatched => ?_
  unfold Watched at hwatched ⊢
  simp only [hthread] at hwatched ⊢
  refine ⟨hwatched.1, fun unread minBound minPacket hscheduling => ?_⟩
  rcases hturn with rfl | rfl | rfl
  · obtain ⟨_, rfl⟩ := step_getReadiness hinputs
    cases hscheduling
    exact ⟨fun id hid => absurd (node.inputs.hcomplete id) hid, .inl rfl⟩
  · obtain ⟨id, rest, oldBound, oldPacket, hreading, rfl⟩ := step_read hinputs
    cases hscheduling
    have hread := (hwatched.2 _ _ _ hreading).read (hvalid.inputs.ordered id)
    exact ⟨hread.packets, hread.bound⟩
  · obtain ⟨_, _, _, hfilling, hfill⟩ := step_fill hinputs
    obtain ⟨found, _, hfound, _, hafter, _⟩ := fillStream_valid hvalid.inputs hfilling
    cases hfound.symm.trans hfill
    cases hafter.symm.trans hscheduling

-- The end of GetReadiness leaves the streams alone.
theorem Alert.stop (halert : node.Alert) (hvalid : node.Valid) {allowance : Nat} {result : NodeReadiness}
    {timestamp : Timestamp} {inputs : SyncSet κ π} {thread : SchedulingThread}
    (hthread : node.schedulingThread = .scheduling allowance)
    (hinputs : SyncSet.step .decide node.inputs = some inputs)
    (hdecision : decision node.inputs = some (result, timestamp)) (hresult : result ≠ .readyForProcess)
    (hafter : thread = .leaving ∨ result = .notReady ∧ thread = .updating timestamp) :
    Alert { node with inputs := inputs, schedulingThread := thread } := by
  refine fun hnoError => (halert hnoError).imp_right fun h => h.imp_right fun hwatched => ?_
  unfold Watched at hwatched
  simp only [hthread] at hwatched
  obtain ⟨minBound, minPacket, hreading, hdecided⟩ := step_decide hinputs
  have hready : (readiness node.inputs.processTimestamps node.inputs.lastProcessedTs minBound minPacket).1 =
      result := by
    simp only [decision, hreading, Option.some.injEq, Prod.mk.injEq] at hdecision
    exact hdecision.1
  have hstarved := (hwatched.2 _ _ _ hreading).starved hvalid.inputs.ordered hvalid.plain
    (hready ▸ hresult)
  have hstreams : inputs.streams = node.inputs.streams := by
    unfold decided at hdecided
    split at hdecided
    · obtain ⟨_, ⟨⟩⟩ := Option.ite_none_right_eq_some.mp hdecided
      rfl
    · cases hdecided
      rfl
  have hstarved' : Starved inputs := by
    unfold Starved
    rw [hstreams]
    exact hstarved
  rcases hafter with rfl | ⟨_, rfl⟩ <;> exact fun _ => hstarved'

theorem step_alert (event : Event κ π) (h : step process event node = some after) (hvalid : node.Valid)
    (halert : node.Alert) : after.Alert := by
  have hphase := hvalid.thread
  unfold Thread at hphase
  have hbounded := hvalid.bounded
  cases moves_of_step h hvalid with
  | addPackets id container =>
      have hopen := hvalid.inputs.opened id
      exact halert.produce hvalid id _
        (InputStreamManager.addPackets_grows container _ (hvalid.inputs.ordered id) hopen)
        (InputStreamManager.addPackets_still container hopen)
  | setNextTimestampBound id bound =>
      exact halert.produce hvalid id _
        (InputStreamManager.setNextTimestampBound_grows bound _ (hvalid.inputs.ordered id)
          (hvalid.inputs.opened id))
        (fun _ => InputStreamManager.setNextTimestampBound_still bound)
  | notifyStarts hnotifying hidle hfree => exact fun _ => .inr (.inr trivial)
  | notifyNotes hnotifying hstate => exact fun _ => .inr (.inl rfl)
  | notifyNothing hnotifying hstate =>
      refine fun hnoError => .inr ?_
      rcases hstate with hpending | ⟨hidle, hfull⟩
      · exact .inl hpending
      · right
        unfold Watched
        simp only [hvalid.absent.mpr hidle]
        exact fun hfree => absurd hfull (not_le.mpr hfree)
  | enters hthread =>
      simp only [hthread] at hphase
      refine fun hnoError => .inr (.inr ⟨Nat.sub_add_cancel hbounded, fun _ _ _ hreading => ?_⟩)
      cases hphase.1.symm.trans hreading
  | exhausts hthread hidle =>
      refine fun hnoError => (halert hnoError).imp_right fun h => h.imp_right fun hwatched hfree => ?_
      unfold Watched at hwatched
      simp only [hthread] at hwatched
      have hfull := hwatched.1
      simp only at hfree
      omega
  | reads allowance call inputs hthread hcall hinputs hturn => exact halert.read hvalid hthread hinputs hturn
  | prepares allowance timestamp inputs outputs hthread hcall hinputs hdecision hfilling houtputs =>
      refine fun hnoError => (halert hnoError).imp_right fun h => h.imp_right fun hwatched => ?_
      unfold Watched at hwatched ⊢
      simp only [hthread] at hwatched ⊢
      refine ⟨hwatched.1, fun _ _ _ hreading => ?_⟩
      cases hfilling.symm.trans hreading
  | stops allowance result timestamp inputs thread hthread hcall hinputs hdecision hresult hidle hafter =>
      exact halert.stop hvalid hthread hinputs hdecision hresult hafter
  | schedules allowance inputSet hthread hscheduling hpositive hfree =>
      refine fun hnoError => (halert hnoError).imp_right fun h => h.imp_right fun hwatched => ?_
      unfold Watched at hwatched
      simp only [hthread] at hwatched
      refine ⟨?_, fun _ _ _ hreading => by cases hreading⟩
      have hfull := hwatched.1
      simp only
      omega
  | drops allowance inputSet hthread hscheduling hpositive herror =>
      exact fun hnoError => absurd (herror.symm.trans hnoError) (by simp)
  | updates inputBound outputs hthread houtputs =>
      refine fun hnoError => (halert hnoError).imp_right fun h => h.imp_right fun hwatched => ?_
      unfold Watched at hwatched
      simp only [hthread] at hwatched
      exact hwatched
  | repeats hthread hpending hfree =>
      simp only [hthread] at hphase
      refine fun hnoError => .inr (.inr ⟨Nat.sub_add_cancel hfree.le, fun _ _ _ hreading => ?_⟩)
      cases hphase.1.symm.trans hreading
  | leaves hthread hlast =>
      refine fun hnoError => (halert hnoError).imp_right fun h => .inr fun hfree => ?_
      rcases h with hpending | hwatched
      · exact absurd (hlast hpending) (not_le.mpr hfree)
      · unfold Watched at hwatched
        simp only [hthread] at hwatched
        exact hwatched hfree
  | posts inputSet outputs hmem houtputs => exact halert
  | endsWithNote hending hcounted hstate => exact fun _ => .inr (.inl rfl)
  | endsAndStarts hending hcounted hidle => exact fun _ => .inr (.inr trivial)
  | propagates event outputs hturn houtputs => exact halert
  | fails => exact fun hnoError => absurd hnoError (by simp)

theorem run_alert {start final : CalculatorNode κ π ω} {events : List (Event κ π)} (hvalid : start.Valid)
    (halert : start.Alert) (hrun : Transition.run (step process) start events = some final) : final.Alert :=
  (Transition.run_invariant (fun node => node.Valid ∧ node.Alert) events start final
    (fun _ event _ hvisits hboth => ⟨step_valid event hvisits.step_eq hboth.1,
      step_alert event hvisits.step_eq hboth.1 hboth.2⟩) ⟨hvalid, halert⟩ hrun).2

omit [DecidableEq κ] in
theorem Alert.starved (halert : node.Alert) (hvalid : node.Valid) (hidle : node.schedulingState = .idle)
    (hquiet : node.notifying = 0) (hnoError : node.hasError = false)
    (hfree : node.currentInFlight < node.maxInFlight) : Starved node.inputs := by
  rcases halert hnoError with hnotifying | hpending | hwatched
  · exact absurd hquiet hnotifying
  · exact absurd (hidle.symm.trans hpending) (by simp)
  · unfold Watched at hwatched
    simp only [hvalid.absent.mpr hidle] at hwatched
    exact hwatched hfree

-- No wake-up is lost. A node that nobody schedules or is about to notify, and that has room
-- for an invocation, has no packet that it could take.
theorem no_wakeup_lost (process : Timestamp × (κ → List (Packet π)) → ω) (inputs : SyncSet κ π)
    (maxInFlight : Nat) (final : CalculatorNode κ π ω) (events : List (Event κ π))
    (htimed : ∀ id, (inputs.streams id).enableTimestamps)
    (hrejects : ∀ id packet, packet.holder = none → (inputs.streams id).validate packet ≠ none)
    (hplain : inputs.processTimestamps = false)
    (hrun : Transition.run (step process) (opened inputs maxInFlight) events = some final)
    (hidle : final.schedulingState = .idle) (hquiet : final.notifying = 0)
    (hnoError : final.hasError = false) (hfree : final.currentInFlight < maxInFlight) :
    ∀ id, ∀ packet ∈ (final.inputs.streams id).queue, ∃ other,
      (final.inputs.streams other).queue = [] ∧
        (final.inputs.streams other).nextTimestampBound ≤ packet.timestamp := by
  have hvalid : (opened inputs maxInFlight : CalculatorNode κ π ω).Valid :=
    opened_valid inputs maxInFlight htimed hrejects hplain
  have halert := run_alert hvalid (fun _ => .inl Nat.one_ne_zero) hrun
  exact halert.starved (run_valid hvalid hrun) hidle hquiet hnoError
    (hfree.trans_eq (run_maxInFlight hvalid hrun).symm)

-- The packet comes while the node is being scheduled, and the other stream stays behind.
def late : List (Event Bool Unit) :=
  [.notify, .schedule, .schedule, .schedule, .addPackets false [⟨some (), .min⟩], .schedule, .notify,
    .schedule, .schedule, .schedule] ++ List.replicate 6 .schedule

theorem no_wakeup_lost_late :
    ∃ final, Transition.run (step countFirst) (opened (twoInputs false) 1) late = some final ∧
      ∃ other, (final.inputs.streams other).queue = [] ∧
        (final.inputs.streams other).nextTimestampBound ≤ .min := by
  obtain ⟨final, hfinal⟩ := Option.isSome_iff_exists.mp
    (show (Transition.run (step countFirst) (opened (twoInputs false) 1) late).isSome by decide +kernel)
  refine ⟨final, hfinal, ?_⟩
  refine no_wakeup_lost countFirst _ 1 final late (fun _ => rfl) (twoInputs_rejects false) rfl hfinal
    ?_ ?_ ?_ ?_ false ⟨some (), .min⟩ ?_
  all_goals
    cases hfinal
    decide +kernel

end CalculatorNode

end SpaceInvaders.Mediapipe

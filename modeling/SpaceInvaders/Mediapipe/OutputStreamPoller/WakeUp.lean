import SpaceInvaders.Mediapipe.OutputStreamPoller.Next

namespace SpaceInvaders.Mediapipe

namespace OutputStreamPoller

open InputStreamManager

variable {π : Type}

-- A caller that waits, or is about to, is owed a notification for whatever it has not seen.
structure Alert (poller : OutputStreamPoller π) : Prop where
  valid : Valid poller
  asleep : poller.consumer = .asleep → poller.HasReason → poller.HasPending
  peeked : ∀ minTimestamp, poller.consumer = .peeked minTimestamp true →
    poller.stream.queue = [] ∧ poller.stream.nextTimestampBound = minTimestamp ∨ poller.HasPending

section Produce

variable {poller : OutputStreamPoller π}

theorem produce_hasPending (added : Added π) (h : poller.HasPending) :
    (poller.produce added).HasPending := by
  cases h with
  | inl h =>
      left
      simp only [produce]
      split <;> omega
  | inr h =>
      right
      simp only [produce]
      split <;> omega

theorem produce_notify (added : Added π) (h : added.notify = true) :
    (poller.produce added).HasPending := by
  left
  simp [produce, h]

theorem produce_error (added : Added π) (h : added.status ≠ none) :
    (poller.produce added).HasPending := by
  right
  simp [produce, h]

-- A call that changes what a caller sees of an empty queue owes a notification.
theorem addPackets_pending (container : List (Packet π)) (hopen : poller.stream.closed = false)
    (hqueue : poller.stream.queue = []) :
    (poller.produce (addPackets container poller.stream)).HasPending ∨
      (addPackets container poller.stream).stream = poller.stream := by
  by_cases hstatus : (addPackets container poller.stream).status = none
  · obtain ⟨haccepted, hnotify⟩ := addPackets_of_status container poller.stream hopen hstatus
    cases container with
    | nil =>
        right
        rw [addPackets_stream, gained, if_neg (by simp [hopen]), haccepted]
        rfl
    | cons packet rest =>
        left
        exact produce_notify _ (by simp [hnotify, hqueue])
  · exact .inl (produce_error _ hstatus)

theorem setNextTimestampBound_pending (bound : Timestamp) (hqueue : poller.stream.queue = []) :
    (poller.produce (setNextTimestampBound bound poller.stream)).HasPending ∨
      (setNextTimestampBound bound poller.stream).stream = poller.stream := by
  by_cases hstatus : (setNextTimestampBound bound poller.stream).status = none
  · by_cases hnotify : (setNextTimestampBound bound poller.stream).notify
    · exact .inl (produce_notify _ hnotify)
    · right
      revert hstatus hnotify
      unfold setNextTimestampBound
      split
      · simp
      split
      · simp
      split <;> simp [hqueue]
  · exact .inl (produce_error _ hstatus)

-- What a producer does keeps a caller alert who was so.
theorem produce_alert (added : Added π) (halert : Alert poller)
    (hgrows : Grows poller.stream added.stream)
    (hpending : poller.stream.queue = [] →
      (poller.produce added).HasPending ∨ added.stream = poller.stream) :
    Alert (poller.produce added) := by
  refine ⟨produce_valid added halert.valid hgrows, fun hasleep hreason => ?_, fun min hpeeked => ?_⟩
  · by_cases hqueue : poller.stream.queue = []
    · rcases hpending hqueue with h | h
      · exact h
      · -- Nothing has changed that the caller would look at.
        have hsame : poller.HasReason := by
          unfold HasReason at hreason ⊢
          rw [← h]
          exact hreason
        exact produce_hasPending added (halert.asleep hasleep hsame)
    · exact produce_hasPending added (halert.asleep hasleep (.inr (.inl hqueue)))
  · rcases halert.peeked min hpeeked with ⟨hqueue, hbound⟩ | h
    · rcases hpending hqueue with h | h
      · exact .inr h
      · exact .inl ⟨(congrArg queue h).trans hqueue, (congrArg nextTimestampBound h).trans hbound⟩
    · exact .inr (produce_hasPending added h)

end Produce

-- A caller that is awake and has no reading pending is alert.
theorem alert_of_consumer {after : OutputStreamPoller π} (hvalid : Valid after)
    (hasleep : after.consumer ≠ .asleep) (hpeeked : ∀ min, after.consumer ≠ .peeked min true) :
    Alert after :=
  ⟨hvalid, fun h => absurd h hasleep, fun min h => absurd h (hpeeked min)⟩

theorem signal_consumer (poller : OutputStreamPoller π) : poller.signal.consumer ≠ .asleep := by
  unfold signal
  by_cases h : poller.consumer = .asleep <;> simp [h]

-- Nobody signals between the read of the stream and the decision.
theorem signal_not_peeked (poller : OutputStreamPoller π) (hfree : poller.mutexIsFree)
    (minTimestamp : Timestamp) : poller.signal.consumer ≠ .peeked minTimestamp true := by
  unfold signal mutexIsFree at *
  cases hconsumer : poller.consumer <;> simp_all

theorem step_alert {poller after : OutputStreamPoller π} (event : Event π)
    (h : step event poller = some after) (halert : Alert poller) : Alert after := by
  have hvalid := step_valid event h halert.valid
  have hopen := halert.valid.opened
  have hordered := halert.valid.ordered
  cases event with
  | addPackets container =>
      cases h
      exact produce_alert _ halert (addPackets_grows container _ hordered hopen)
        (addPackets_pending container hopen)
  | setNextTimestampBound bound =>
      cases h
      exact produce_alert _ halert (setNextTimestampBound_grows bound _ hordered hopen)
        (setNextTimestampBound_pending bound)
  | recordError =>
      cases h
      exact ⟨hvalid, fun _ _ => .inr (Nat.succ_pos _), fun _ _ => .inr (.inr (Nat.succ_pos _))⟩
  | notify =>
      obtain ⟨⟨_, hfree⟩, ⟨⟩⟩ := Option.ite_none_right_eq_some.mp h
      exact alert_of_consumer hvalid (signal_consumer _) (signal_not_peeked _ hfree)
  | notifyError =>
      obtain ⟨⟨_, hfree⟩, ⟨⟩⟩ := Option.ite_none_right_eq_some.mp h
      exact alert_of_consumer hvalid (signal_consumer _) (signal_not_peeked _ hfree)
  | next =>
      obtain ⟨_, ⟨⟩⟩ := Option.ite_none_right_eq_some.mp h
      exact alert_of_consumer hvalid (by simp) (by simp)
  | peek =>
      obtain ⟨_, ⟨⟩⟩ := Option.ite_none_right_eq_some.mp h
      refine ⟨hvalid, by simp, fun min hpeeked => ?_⟩
      obtain ⟨hmin, hempty⟩ := Consumer.peeked.inj hpeeked
      have hqueue : poller.stream.queue = [] := List.isEmpty_iff.mp hempty
      rw [minTimestampOrBound, hqueue] at hmin
      exact .inl ⟨hqueue, hmin⟩
  | decide =>
      obtain ⟨min, empty, hconsumer, rfl⟩ := step_decide h
      rcases decided_cases min empty poller with ⟨_, heq, _⟩ | ⟨heq, _⟩ | ⟨heq, hnoError, hempty, hchanged, hdone⟩
      · rw [heq] at hvalid ⊢
        exact alert_of_consumer hvalid (by simp) (by simp)
      · rw [heq] at hvalid ⊢
        exact alert_of_consumer hvalid (by simp) (by simp)
      · rw [heq] at hvalid ⊢
        refine ⟨hvalid, fun _ hreason => ?_, by simp⟩
        rw [hempty] at hconsumer hchanged
        rcases halert.peeked min hconsumer with ⟨hqueue, hbound⟩ | hpending
        · -- What the caller has read is what is there.
          rcases hreason with herror | hfilled | hend | ⟨hprocess, hlater⟩
          · exact absurd herror (by simp [hnoError])
          · exact absurd hqueue hfilled
          · exact absurd (hbound.symm.trans hend) hdone
          · rw [hbound] at hlater
            have hseen : poller.boundChanged min true = true := by
              simp only [boundChanged, Bool.true_and, Bool.and_eq_true, decide_eq_true_eq]
              exact ⟨hprocess, hlater⟩
            exact absurd (hchanged.symm.trans hseen) (by simp)
        · exact hpending
  | wake =>
      obtain ⟨_, ⟨⟩⟩ := Option.ite_none_right_eq_some.mp h
      exact alert_of_consumer hvalid (by simp) (by simp)
  | finish =>
      rcases step_finish h halert.valid with ⟨_, _, _, rfl⟩ | ⟨_, _, _, _, _, _, _, _, _, _, rfl⟩
      · exact alert_of_consumer hvalid (by simp) (by simp)
      · exact alert_of_consumer hvalid (by simp) (by simp)

-- No wake-up is lost: a caller that waits although it could return is owed a notification.
theorem next_wakes (poller final : OutputStreamPoller π) (events : List (Event π))
    (hidle : poller.consumer = .idle) (htimed : poller.stream.enableTimestamps)
    (hrun : Transition.run step poller.prepareForRun events = some final)
    (hasleep : final.consumer = .asleep) (hreason : final.HasReason) : final.HasPending := by
  have hstart : Alert poller.prepareForRun := by
    apply alert_of_consumer (prepareForRun_valid poller hidle htimed)
    · exact fun h => absurd (hidle.symm.trans h) (by simp)
    · exact fun min h => absurd (hidle.symm.trans h) (by simp)
  have hfinal : Alert final := Transition.run_invariant Alert events _ final
    (fun _ event _ hvisits => step_alert event hvisits.step_eq) hstart hrun
  exact hfinal.asleep hasleep hreason

-- The packet comes between the read of the empty queue and the wait.
theorem next_wakes_late :
    ∃ final, Transition.run step
        (initialized "out" (fun _ => none) false : OutputStreamPoller Unit).prepareForRun
        [.next, .peek, .addPackets [⟨some (), .min⟩], .decide] = some final ∧ final.HasPending := by
  obtain ⟨final, hfinal⟩ := Option.isSome_iff_exists.mp
    (show (Transition.run step
        (initialized "out" (fun _ => none) false : OutputStreamPoller Unit).prepareForRun
        [.next, .peek, .addPackets [⟨some (), .min⟩], .decide]).isSome by decide +kernel)
  have hconsumer : final.consumer = .asleep := by
    cases hfinal
    decide +kernel
  have hqueue : final.stream.queue ≠ [] := by
    cases hfinal
    decide +kernel
  exact ⟨final, hfinal, next_wakes _ final _ rfl rfl hfinal hconsumer (.inr (.inl hqueue))⟩

end OutputStreamPoller

end SpaceInvaders.Mediapipe

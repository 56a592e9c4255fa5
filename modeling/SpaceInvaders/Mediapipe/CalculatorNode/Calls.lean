import SpaceInvaders.Mediapipe.CalculatorNode

namespace SpaceInvaders.Mediapipe

namespace SyncSet

open InputStreamManager OutputStreamHandler

variable {κ π : Type} {place : Int}

-- Nothing is in the streams, or will come to them, that lies before a place in the order of time.
def Later (place : Int) (set : SyncSet κ π) : Prop :=
  ∀ id, (∀ packet ∈ (set.streams id).queue, place ≤ boundPlace packet.timestamp) ∧
    place ≤ boundPlace (set.streams id).nextTimestampBound

-- Where the calls of the scheduling thread have come to when it stands in the set.
def Timed (place : Int) (set : SyncSet κ π) : Prop :=
  match set.scheduling with
  | .idle => Later place set
  | .reading _ minBound minPacket =>
      Later place set ∧ place ≤ boundPlace minBound ∧ place ≤ boundPlace minPacket
  | .filling _ inputSet => place = invocationPlace inputSet.timestamp + 1

theorem prepareForRun_timed (set : SyncSet κ π) : Timed (boundPlace .unset) set.prepareForRun := by
  intro id
  refine ⟨fun packet hpacket => absurd hpacket List.not_mem_nil, ?_⟩
  exact bound_le_bound.mpr (show Timestamp.unset ≤ .preStream by decide)

theorem Later.mono {set : SyncSet κ π} {first second : Int} (h : Later second set) (hle : first ≤ second) :
    Later first set :=
  fun id => ⟨fun packet hpacket => hle.trans ((h id).1 packet hpacket), hle.trans (h id).2⟩

theorem timed_of_idle {set : SyncSet κ π} {place : Int} (hidle : set.scheduling = .idle)
    (hlater : Later place set) : Timed place set := by
  unfold Timed
  rw [hidle]
  exact hlater

theorem Later.grow {set : SyncSet κ π} {streams : κ → InputStreamManager π} (h : Later place set)
    (hgrows : ∀ id, Grows (set.streams id) (streams id)) : Later place { set with streams := streams } := by
  intro id
  obtain ⟨joined, hqueue, hjoined⟩ := (hgrows id).queue
  show (∀ packet ∈ (streams id).queue, _) ∧ _
  rw [hqueue, List.forall_mem_append]
  exact ⟨⟨(h id).1, fun packet hpacket =>
    (h id).2.trans (bound_le_bound.mpr (hjoined packet hpacket).1)⟩,
    (h id).2.trans (bound_le_bound.mpr (hgrows id).bound)⟩

theorem Timed.grow {set : SyncSet κ π} {streams : κ → InputStreamManager π} (h : Timed place set)
    (hgrows : ∀ id, Grows (set.streams id) (streams id)) : Timed place { set with streams := streams } := by
  unfold Timed at h ⊢
  cases hscheduling : set.scheduling with
  | idle =>
      simp only [hscheduling] at h ⊢
      exact h.grow hgrows
  | reading unread minBound minPacket =>
      simp only [hscheduling] at h ⊢
      exact ⟨h.1.grow hgrows, h.2⟩
  | filling unfilled inputSet => simpa only [hscheduling] using h

theorem update_grows [DecidableEq κ] {set : SyncSet κ π} (hvalid : Valid set) (id : κ)
    {stream : InputStreamManager π} (hgrows : Grows (set.streams id) stream) (other : κ) :
    Grows (set.streams other) (Function.update set.streams id stream other) := by
  by_cases hother : other = id
  · rw [hother, Function.update_self]
    exact hgrows
  · rw [Function.update_of_ne hother]
    exact Grows.refl (hvalid.ordered other) (hvalid.opened other)

variable [DecidableEq κ] {set after : SyncSet κ π}

-- What producers and the loops of the scheduling thread do before and after the decision.
theorem step_timed (event : Event κ π) (h : step event set = some after) (hvalid : Valid set)
    (hne : ∀ minBound minPacket, event = .decide → set.scheduling ≠ .reading [] minBound minPacket)
    (htimed : Timed place set) : Timed place after := by
  have hphase := hvalid.phase
  unfold Phase at hphase
  cases event with
  | addPackets id container =>
      cases h
      exact htimed.grow (update_grows hvalid id
        (addPackets_grows container _ (hvalid.ordered id) (hvalid.opened id)))
  | setNextTimestampBound id bound =>
      cases h
      exact htimed.grow (update_grows hvalid id
        (setNextTimestampBound_grows bound _ (hvalid.ordered id) (hvalid.opened id)))
  | getReadiness =>
      obtain ⟨hscheduling, rfl⟩ := step_getReadiness h
      unfold Timed at htimed
      simp only [hscheduling] at htimed
      obtain ⟨id⟩ : Nonempty κ := ⟨set.streamIds.head set.hsome⟩
      have hdone : place ≤ boundPlace .done :=
        (htimed id).2.trans (bound_le_bound.mpr (set.streams id).nextTimestampBound.hmax)
      exact ⟨htimed, hdone, hdone⟩
  | read =>
      obtain ⟨id, unread, minBound, minPacket, hscheduling, rfl⟩ := step_read h
      unfold Timed at htimed
      simp only [hscheduling] at htimed
      obtain ⟨hlater, hbound, hpacket⟩ := htimed
      have hread : place ≤ boundPlace (readStream (set.streams id) minBound minPacket).1 ∧
          place ≤ boundPlace (readStream (set.streams id) minBound minPacket).2 := by
        unfold readStream isEmpty minTimestampOrBound
        cases hqueue : (set.streams id).queue with
        | nil =>
            refine ⟨?_, hpacket⟩
            rcases min_choice minBound (set.streams id).nextTimestampBound with heq | heq
            · simpa [heq] using hbound
            · simpa [heq] using (hlater id).2
        | cons packet rest =>
            refine ⟨hbound, ?_⟩
            have hfirst := (hlater id).1 packet (by simp [hqueue])
            rcases min_choice minPacket packet.timestamp with heq | heq
            · simpa [heq] using hpacket
            · simpa [heq] using hfirst
      exact ⟨hlater, hread⟩
  | decide =>
      obtain ⟨minBound, minPacket, hscheduling, _⟩ := step_decide h
      exact absurd hscheduling (hne minBound minPacket rfl)
  | fill =>
      obtain ⟨id, unfilled, inputSet, hscheduling, hfill⟩ := step_fill h
      obtain ⟨found, _, hfound, _, hafter, _⟩ := fillStream_valid hvalid hscheduling
      cases hfound.symm.trans hfill
      unfold Timed at htimed ⊢
      simp only [hscheduling] at htimed
      simpa only [hafter] using htimed
  | process =>
      obtain ⟨inputSet, hscheduling, rfl⟩ := step_process h
      unfold Timed at htimed
      simp only [hscheduling] at htimed hphase
      obtain ⟨_, _, _, _, hpast, _⟩ := hphase
      subst htimed
      intro id
      obtain ⟨_, hqueue, hbound⟩ := hpast id List.not_mem_nil
      exact ⟨fun packet hpacket => Int.add_one_le_of_lt (place_lt_bound.mpr (hqueue packet hpacket)),
        Int.add_one_le_of_lt (place_lt_bound.mpr hbound)⟩

-- What a decision finds. The call that follows it comes in the order of time.
theorem decide_timed (h : step .decide set = some after) (hvalid : Valid set)
    (hplain : set.processTimestamps = false) (htimed : Timed place set) :
    ∃ readiness timestamp, CalculatorNode.decision set = some (readiness, timestamp) ∧
      match readiness with
      | .readyForProcess => timestamp.IsAllowedInStream ∧ place ≤ invocationPlace timestamp ∧
          after.scheduling = .filling set.streamIds { timestamp := timestamp, packets := [] }
      | .notReady => place ≤ boundPlace timestamp ∧ after.scheduling = .idle ∧
          Later (boundPlace timestamp) after
      | .readyForClose => after.scheduling = .idle ∧ Later place after := by
  obtain ⟨minBound, minPacket, hscheduling, hdecided⟩ := step_decide h
  have hphase := hvalid.phase
  unfold Phase at hphase
  unfold Timed at htimed
  simp only [hscheduling] at hphase htimed
  obtain ⟨last, hselected, _, hseen, _⟩ := hphase
  obtain ⟨hlater, hbound, hpacket⟩ := htimed
  unfold decided at hdecided
  cases hready : readiness set.processTimestamps set.lastProcessedTs minBound minPacket with
  | mk result rest =>
  obtain ⟨timestamp, processed⟩ := rest
  simp only [hready] at hdecided
  refine ⟨result, timestamp, by simp only [CalculatorNode.decision, hscheduling, hready], ?_⟩
  cases result with
  | readyForProcess =>
      obtain ⟨hallowed, ⟨⟩⟩ := Option.ite_none_right_eq_some.mp hdecided
      obtain ⟨_, _, _, _, hequal, _⟩ := readiness_process hready
      refine ⟨hallowed, ?_, rfl⟩
      rw [hequal hplain]
      exact hpacket.trans (bound_lt_place le_rfl).le
  | notReady =>
      cases hdecided
      have hmin : timestamp = min minPacket minBound := readiness_notReady_min hplain hready
      refine ⟨?_, rfl, fun id => ?_⟩
      · rw [hmin]
        rcases min_choice minPacket minBound with heq | heq
        · rwa [heq]
        · rwa [heq]
      · have hbefore : timestamp ≤ minPacket ∧ timestamp ≤ minBound :=
          hmin ▸ ⟨min_le_left _ _, min_le_right _ _⟩
        simp only [bound_le_bound]
        rcases hseen id List.not_mem_nil with ⟨hne, hall⟩ | ⟨hlow, hall⟩
        · obtain ⟨first, hfirst⟩ := List.exists_mem_of_ne_nil _ hne
          exact ⟨fun packet hmem => hbefore.1.trans (hall packet hmem),
            (hbefore.1.trans (hall first hfirst)).trans ((hvalid.ordered id).below first hfirst).le⟩
        · exact ⟨fun packet hmem => hbefore.2.trans (hall packet hmem), hbefore.2.trans hlow⟩
  | readyForClose =>
      cases hdecided
      exact ⟨rfl, hlater⟩

end SyncSet

end SpaceInvaders.Mediapipe

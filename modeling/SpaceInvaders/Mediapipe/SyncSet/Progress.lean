import Mathlib.Algebra.Order.BigOperators.Group.List
import Mathlib.Algebra.Order.Ring.Nat
import SpaceInvaders.Mediapipe.SyncSet.Inputs

namespace SpaceInvaders.Mediapipe

namespace SyncSet

open InputStreamManager

variable {κ π : Type} [DecidableEq κ]

-- What the scheduling thread does when it is let to run: all of GetReadiness, then all of
-- FillInputSet and a call of the calculator.
def round (streamIds : List κ) : List (Event κ π) :=
  .getReadiness :: List.replicate streamIds.length .read ++ .decide ::
    List.replicate streamIds.length .fill ++ [.process]

def waiting (set : SyncSet κ π) : Nat :=
  (set.streamIds.map fun id => (set.streams id).queue.length).sum

section Round

variable {set : SyncSet κ π} {timestamp : Timestamp}

-- A timestamp that every bound has passed stays below the bound that is read, and the heads
-- of the queues are all read.
theorem run_reads (set : SyncSet κ π) (unread : List κ) (minBound minPacket : Timestamp)
    (hscheduling : set.scheduling = .reading unread minBound minPacket) (hlow : timestamp < minBound)
    (hbounds : ∀ id, timestamp < (set.streams id).nextTimestampBound) :
    ∃ finalBound finalPacket, Transition.run step set (List.replicate unread.length .read) =
        some { set with scheduling := .reading [] finalBound finalPacket } ∧
      timestamp < finalBound ∧ finalPacket ≤ minPacket ∧
      ∀ id ∈ unread, ∀ packet rest, (set.streams id).queue = packet :: rest →
        finalPacket ≤ packet.timestamp := by
  induction unread generalizing set minBound minPacket with
  | nil => exact ⟨minBound, minPacket, by simp [← hscheduling], hlow, le_rfl, by simp⟩
  | cons id unread ih =>
      have hread : timestamp < (readStream (set.streams id) minBound minPacket).1 ∧
          ∀ packet rest, (set.streams id).queue = packet :: rest →
            (readStream (set.streams id) minBound minPacket).2 ≤ packet.timestamp := by
        unfold readStream isEmpty minTimestampOrBound
        cases hqueue : (set.streams id).queue with
        | nil => exact ⟨lt_min hlow (hbounds id), by simp⟩
        | cons head tail =>
            refine ⟨hlow, fun packet rest h => ?_⟩
            obtain ⟨rfl, _⟩ := List.cons.inj h
            exact min_le_right _ _
      obtain ⟨finalBound, finalPacket, hrun, hbound, hpacket, hheads⟩ :=
        ih { set with scheduling := .reading unread _ _ } _ _ rfl hread.1 hbounds
      refine ⟨finalBound, finalPacket, ?_, hbound, ?_, ?_⟩
      · rw [List.length_cons, List.replicate_succ, Transition.run_cons]
        simp only [step, hscheduling, Option.bind_some]
        exact hrun
      · exact hpacket.trans (readStream_le _ _ _).2
      · rw [List.forall_mem_cons]
        exact ⟨fun packet rest h => hpacket.trans (hread.2 packet rest h), hheads⟩

theorem run_fills (hvalid : Valid set) (unfilled : List κ) (inputSet : InputSet κ π)
    (hscheduling : set.scheduling = .filling unfilled inputSet) :
    ∃ last packets, Transition.run step set (List.replicate unfilled.length .fill) = some last ∧
      last.scheduling = .filling [] { inputSet with packets := packets } := by
  induction unfilled generalizing set inputSet with
  | nil => exact ⟨set, inputSet.packets, rfl, hscheduling⟩
  | cons id unfilled ih =>
      obtain ⟨after, popped, hfill, hafter, hscheduling', _⟩ := fillStream_valid hvalid hscheduling
      obtain ⟨last, packets, hrun, hlast⟩ := ih hafter _ hscheduling'
      refine ⟨last, packets, ?_, hlast⟩
      rw [List.length_cons, List.replicate_succ, Transition.run_cons]
      simp only [step, hscheduling, hfill, Option.bind_some]
      exact hrun

-- A round by the scheduling thread alone delivers an input set while a packet waits that
-- every bound has passed.
theorem run_round (hvalid : Valid set) (hidle : set.scheduling = .idle)
    (hplain : set.processTimestamps = false) (id : κ) (packet : Packet π)
    (hpacket : packet ∈ (set.streams id).queue)
    (hsettled : ∀ other, packet.timestamp < (set.streams other).nextTimestampBound) :
    ∃ last inputSet, Transition.run step set (round set.streamIds) = some last ∧
      last.scheduling = .idle ∧ Transition.log step delivered set (round set.streamIds) = [inputSet] ∧
      ∃ entry ∈ inputSet.packets, entry.2.holder ≠ none := by
  have hdone : packet.timestamp < .done :=
    ((hvalid.ordered id).allowed packet hpacket).2.trans_lt (by decide)
  have hget : step .getReadiness set =
      some { set with scheduling := .reading set.streamIds .done .done } := by
    simp only [step, hidle]
  obtain ⟨minBound, minPacket, hreads, hbound, _, hheads⟩ :=
    run_reads { set with scheduling := .reading set.streamIds .done .done } set.streamIds
      .done .done rfl hdone hsettled
  have hvalid' : Valid { set with scheduling := .reading [] minBound minPacket } :=
    run_valid (step_valid _ hget hvalid) hreads
  have hle : minPacket ≤ packet.timestamp := by
    have hsorted := (hvalid.ordered id).sorted
    cases hqueue : (set.streams id).queue with
    | nil => simp [hqueue] at hpacket
    | cons head rest =>
        rw [hqueue] at hpacket hsorted
        have hhead := hheads id (set.hcomplete id) head rest hqueue
        rcases List.mem_cons.mp hpacket with rfl | hrest
        · exact hhead
        · exact hhead.trans ((List.pairwise_cons.mp hsorted).1 packet hrest).le
  have hready : readiness set.processTimestamps set.lastProcessedTs minBound minPacket =
      (.readyForProcess, minPacket, minPacket) := by
    have hlt := hle.trans_lt hbound
    have hopen : ¬.oneOverPostStream ≤ minPacket := not_le.mpr
      ((hle.trans ((hvalid.ordered id).allowed packet hpacket).2).trans_lt (by decide))
    unfold readiness
    rw [min_eq_left hlt.le, if_neg hopen, if_pos hplain, if_pos hlt]
  obtain ⟨chosen, hdecided, hchosen⟩ := decided_valid hvalid' rfl
  have hscheduling : chosen.scheduling =
      .filling set.streamIds { timestamp := minPacket, packets := [] } := by
    unfold decided at hdecided
    simp only [hready] at hdecided
    obtain ⟨_, ⟨⟩⟩ := Option.ite_none_right_eq_some.mp hdecided
    rfl
  obtain ⟨filled, packets, hfills, hfilled⟩ := run_fills hchosen _ _ hscheduling
  have hrun : Transition.run step set (.getReadiness :: List.replicate set.streamIds.length .read ++
      .decide :: List.replicate set.streamIds.length .fill) = some filled := by
    rw [Transition.run_append, Transition.run_cons, hget, Option.bind_some, hreads, Option.bind_some,
      Transition.run_cons]
    simp only [step, hdecided, Option.bind_some, hfills]
  have hprocess : step .process filled = some { filled with scheduling := .idle } := by
    simp only [step, hfilled]
  refine ⟨{ filled with scheduling := .idle }, { timestamp := minPacket, packets := packets }, ?_, rfl,
    ?_, ?_⟩
  · rw [round, Transition.run_append, hrun, Option.bind_some, Transition.run_cons, hprocess]
    rfl
  · rw [round, Transition.log_append _ _ _ hrun, Transition.log_quiet, List.nil_append,
      Transition.log_cons_of_some _ _ _ hprocess]
    · simp only [delivered, hfilled, Transition.log_nil, List.append_nil]
    · intro event hevent state
      simp only [List.cons_append, List.mem_cons, List.mem_append, List.mem_replicate] at hevent
      rcases hevent with rfl | ⟨_, rfl⟩ | rfl | ⟨_, rfl⟩ <;> rfl
  · have hphase := (run_valid hvalid hrun).phase
    unfold Phase at hphase
    simp only [hfilled] at hphase
    exact (hphase.2.2.2.2.2.2 ((run_frame hrun).2.trans hplain)).resolve_right (by simp)

end Round

-- What keeps a packet on its way while the scheduling thread runs.
structure Settled (id : κ) (packet : Packet π) (set : SyncSet κ π) : Prop where
  valid : Valid set
  idle : set.scheduling = .idle
  plain : set.processTimestamps = false
  waits : packet ∈ (set.streams id).queue
  passed : ∀ other, packet.timestamp < (set.streams other).nextTimestampBound

theorem round_nearer {id : κ} {packet : Packet π} {set : SyncSet κ π} (h : Settled id packet set) :
    ∃ next, Transition.run step set (round set.streamIds) = some next ∧ waiting next < waiting set ∧
      ((∃ inputSet ∈ Transition.log step delivered set (round set.streamIds), packet ∈ row id inputSet) ∨
        Settled id packet next) := by
  obtain ⟨next, inputSet, hrun, hidle, hlog, entry, hentry, hholder⟩ :=
    run_round h.valid h.idle h.plain id packet h.waits h.passed
  have hqueue : ∀ other, (set.streams other).queue = row other inputSet ++ (next.streams other).queue := by
    intro other
    have hflow := run_delivered_flow h.valid hrun other
    rw [hlog, Transition.log_quiet] at hflow
    · simpa [contents, h.idle, hidle] using hflow
    · intro event hevent state
      simp only [round, List.cons_append, List.mem_cons, List.mem_append, List.mem_replicate,
        List.not_mem_nil, or_false] at hevent
      rcases hevent with rfl | (⟨_, rfl⟩ | rfl | ⟨_, rfl⟩) | rfl <;> rfl
  have hlength : ∀ other, (set.streams other).queue.length =
      (row other inputSet).length + (next.streams other).queue.length := fun other => by
    rw [hqueue other, List.length_append]
  refine ⟨next, hrun, ?_, ?_⟩
  · unfold waiting
    rw [(run_frame hrun).1]
    refine List.sum_lt_sum _ _ (fun other _ => ?_) ⟨entry.1, set.hcomplete entry.1, ?_⟩
    · rw [hlength other]
      exact Nat.le_add_left _ _
    · rw [hlength entry.1]
      exact Nat.lt_add_of_pos_left (List.length_pos_of_mem (mem_row hentry hholder))
  · have hwaits := h.waits
    rw [hqueue id] at hwaits
    rcases List.mem_append.mp hwaits with hrow | hleft
    · left
      exact ⟨inputSet, by simp [hlog], hrow⟩
    · right
      exact ⟨run_valid h.valid hrun, hidle, (run_frame hrun).2.trans h.plain, hleft,
        fun other => (h.passed other).trans_le (run_bound h.valid hrun other)⟩

-- A packet is not held back once every bound has passed it. The scheduling thread delivers it
-- without a further call of a producer, in at most as many rounds as packets wait.
theorem settled_delivered (set final : SyncSet κ π) (events : List (Event κ π)) (id : κ)
    (packet : Packet π) (htimed : ∀ id, (set.streams id).enableTimestamps)
    (hrejects : ∀ id packet, packet.holder = none → (set.streams id).validate packet ≠ none)
    (hplain : set.processTimestamps = false)
    (hrun : Transition.run step set.prepareForRun events = some final) (hidle : final.scheduling = .idle)
    (hwaits : packet ∈ (final.streams id).queue)
    (hpassed : ∀ other, packet.timestamp < (final.streams other).nextTimestampBound) :
    ∃ count ≤ waiting final, ∃ last,
      Transition.run step final (List.replicate count (round set.streamIds)).flatten = some last ∧
      ∃ inputSet ∈ Transition.log step delivered final
          (List.replicate count (round set.streamIds)).flatten, packet ∈ row id inputSet := by
  have hframe := run_frame hrun
  have hstart : Settled id packet final ∧ final.streamIds = set.streamIds :=
    ⟨⟨run_valid (prepareForRun_valid set htimed hrejects) hrun, hidle, hframe.2.trans hplain, hwaits,
      hpassed⟩, hframe.1⟩
  refine Transition.log_reaches waiting
    (fun state => Settled id packet state ∧ state.streamIds = set.streamIds) delivered
    (fun inputSet => packet ∈ row id inputSet) (round set.streamIds) ?_ final hstart
  rintro state ⟨hsettled, hids⟩
  obtain ⟨next, hnext, hless, hgoal⟩ := round_nearer hsettled
  rw [hids] at hnext hgoal
  exact ⟨next, hnext, hless, hgoal.imp_right fun h => ⟨h, (run_frame hnext).1.trans hids⟩⟩

-- The second packet of one stream, while the other stream only moves its bound.
theorem settled_delivered_second :
    ∃ final, Transition.run step (twoInputs false).prepareForRun
        [.addPackets false [⟨some (), .min⟩, ⟨some (), .max⟩], .setNextTimestampBound false .done,
          .setNextTimestampBound true .postStream] = some final ∧
      ∃ count ≤ waiting final, ∃ last,
        Transition.run step final (List.replicate count (round [false, true])).flatten = some last ∧
        ∃ inputSet ∈ Transition.log step delivered final
            (List.replicate count (round [false, true])).flatten,
          ⟨some (), .max⟩ ∈ row false inputSet := by
  obtain ⟨final, hfinal⟩ := Option.isSome_iff_exists.mp
    (show (Transition.run step (twoInputs false).prepareForRun
        [.addPackets false [⟨some (), .min⟩, ⟨some (), .max⟩], .setNextTimestampBound false .done,
          .setNextTimestampBound true .postStream]).isSome by decide +kernel)
  refine ⟨final, hfinal, settled_delivered _ final _ false ⟨some (), .max⟩ (fun _ => rfl)
    (twoInputs_rejects false) rfl hfinal ?_ ?_ ?_⟩
  · cases hfinal
    rfl
  · cases hfinal
    decide +kernel
  · cases hfinal
    decide +kernel

end SyncSet

end SpaceInvaders.Mediapipe

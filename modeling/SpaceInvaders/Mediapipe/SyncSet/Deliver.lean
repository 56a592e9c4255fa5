import SpaceInvaders.Mediapipe.SyncSet.Readiness

namespace SpaceInvaders.Mediapipe

namespace SyncSet

open InputStreamManager

section Stream

variable {π : Type}

-- Nothing before the timestamp is in the stream or will come to it.
def From (timestamp : Timestamp) (stream : InputStreamManager π) : Prop :=
  (∀ packet ∈ stream.queue, timestamp ≤ packet.timestamp) ∧ timestamp < stream.nextTimestampBound

def Past (timestamp : Timestamp) (stream : InputStreamManager π) : Prop :=
  (∀ packet ∈ stream.queue, timestamp < packet.timestamp) ∧ timestamp < stream.nextTimestampBound

-- What the minima say of a stream that the loop of GetReadiness has read. The stream may
-- have had packets then, or have got its first one since.
def Seen (minBound minPacket : Timestamp) (stream : InputStreamManager π) : Prop :=
  (stream.queue ≠ [] ∧ ∀ packet ∈ stream.queue, minPacket ≤ packet.timestamp) ∨
    minBound ≤ stream.nextTimestampBound ∧ ∀ packet ∈ stream.queue, minBound ≤ packet.timestamp

variable {before after : InputStreamManager π} {timestamp minBound minPacket : Timestamp}

theorem From.grow (h : From timestamp before) (hgrows : Grows before after) : From timestamp after := by
  obtain ⟨joined, hqueue, hjoined⟩ := hgrows.queue
  refine ⟨?_, h.2.trans_le hgrows.bound⟩
  rw [hqueue, List.forall_mem_append]
  exact ⟨h.1, fun packet hpacket => h.2.le.trans (hjoined packet hpacket).1⟩

theorem Past.grow (h : Past timestamp before) (hgrows : Grows before after) : Past timestamp after := by
  obtain ⟨joined, hqueue, hjoined⟩ := hgrows.queue
  refine ⟨?_, h.2.trans_le hgrows.bound⟩
  rw [hqueue, List.forall_mem_append]
  exact ⟨h.1, fun packet hpacket => h.2.trans_le (hjoined packet hpacket).1⟩

theorem Seen.grow (h : Seen minBound minPacket before) (hordered : before.Ordered)
    (hgrows : Grows before after) : Seen minBound minPacket after := by
  obtain ⟨joined, hqueue, hjoined⟩ := hgrows.queue
  unfold Seen
  rw [hqueue]
  rcases h with ⟨hne, hall⟩ | ⟨hbound, hall⟩
  · left
    refine ⟨by simp [hne], List.forall_mem_append.mpr ⟨hall, fun packet hpacket => ?_⟩⟩
    obtain ⟨first, hfirst⟩ := List.exists_mem_of_ne_nil _ hne
    exact (hall first hfirst).trans ((hordered.below first hfirst).le.trans (hjoined packet hpacket).1)
  · right
    exact ⟨hbound.trans hgrows.bound,
      List.forall_mem_append.mpr ⟨hall, fun packet hpacket => hbound.trans (hjoined packet hpacket).1⟩⟩

-- The minima only come down, so what they said of a stream stays true.
theorem Seen.mono {newBound newPacket : Timestamp} (h : Seen minBound minPacket before)
    (hbound : newBound ≤ minBound) (hpacket : newPacket ≤ minPacket) : Seen newBound newPacket before := by
  rcases h with ⟨hne, hall⟩ | ⟨hlow, hall⟩
  · exact .inl ⟨hne, fun packet hmem => hpacket.trans (hall packet hmem)⟩
  · exact .inr ⟨hbound.trans hlow, fun packet hmem => hbound.trans (hall packet hmem)⟩

theorem readStream_le (stream : InputStreamManager π) (minBound minPacket : Timestamp) :
    (readStream stream minBound minPacket).1 ≤ minBound ∧
      (readStream stream minBound minPacket).2 ≤ minPacket := by
  unfold readStream
  split
  · exact ⟨min_le_left _ _, le_rfl⟩
  · exact ⟨le_rfl, min_le_left _ _⟩

theorem readStream_seen (stream : InputStreamManager π) (hordered : stream.Ordered)
    (minBound minPacket : Timestamp) :
    Seen (readStream stream minBound minPacket).1 (readStream stream minBound minPacket).2 stream := by
  unfold readStream isEmpty minTimestampOrBound
  cases hqueue : stream.queue with
  | nil => exact .inr ⟨min_le_right _ _, by simp [hqueue]⟩
  | cons packet rest =>
      have hsorted := hordered.sorted
      rw [hqueue, List.pairwise_cons] at hsorted
      refine .inl ⟨by simp [hqueue], ?_⟩
      rw [hqueue, List.forall_mem_cons]
      exact ⟨min_le_right _ _, fun other hother => (min_le_right _ _).trans (hsorted.1 other hother).le⟩

theorem readStream_over (stream : InputStreamManager π) (hqueue : stream.queue = [])
    (hstream : .oneOverPostStream ≤ stream.nextTimestampBound) (hbound : .oneOverPostStream ≤ minBound)
    (hpacket : .oneOverPostStream ≤ minPacket) :
    .oneOverPostStream ≤ (readStream stream minBound minPacket).1 ∧
      .oneOverPostStream ≤ (readStream stream minBound minPacket).2 := by
  simp [readStream, isEmpty, minTimestampOrBound, hqueue, hstream, hbound, hpacket]

-- The smallest packet timestamp is that of a packet.
theorem readStream_attained (stream : InputStreamManager π) (minBound minPacket : Timestamp) :
    (readStream stream minBound minPacket).2 = minPacket ∨
      ∃ packet ∈ stream.queue, packet.timestamp = (readStream stream minBound minPacket).2 := by
  unfold readStream isEmpty minTimestampOrBound
  cases hqueue : stream.queue with
  | nil => exact .inl rfl
  | cons packet rest =>
      rcases le_total minPacket packet.timestamp with hle | hle
      · exact .inl (min_eq_left hle)
      · exact .inr ⟨packet, List.mem_cons_self .., (min_eq_right hle).symm⟩

theorem Seen.from (h : Seen minBound minPacket before) (hordered : before.Ordered)
    (hpacket : timestamp ≤ minPacket) (hbound : timestamp < minBound) : From timestamp before := by
  rcases h with ⟨hne, hall⟩ | ⟨hlow, hall⟩
  · obtain ⟨first, hfirst⟩ := List.exists_mem_of_ne_nil _ hne
    exact ⟨fun packet hmem => hpacket.trans (hall packet hmem),
      (hpacket.trans (hall first hfirst)).trans_lt (hordered.below first hfirst)⟩
  · exact ⟨fun packet hmem => hbound.le.trans (hall packet hmem), hbound.trans_le hlow⟩

-- A pop at a timestamp that nothing precedes drops nothing. It takes the head of the
-- queue or nothing.
theorem From.pop (h : From timestamp before) (hordered : before.Ordered)
    (hselect : before.lastSelectTimestamp ≤ timestamp) :
    ∃ popped, before.popPacketAtTimestamp timestamp = some popped ∧ popped.numPacketsDropped = 0 ∧
      Past timestamp popped.stream ∧ popped.stream.Ordered ∧
      popped.stream.closed = before.closed ∧ popped.stream.validate = before.validate ∧
      popped.stream.lastSelectTimestamp = timestamp ∧
      popped.stream.nextTimestampBound = before.nextTimestampBound ∧
      popped.streamIsDone = popped.stream.isDone ∧
      (before.queue = popped.packet :: popped.stream.queue ∧ popped.packet.timestamp = timestamp ∨
        popped.packet.holder = none ∧ before.queue = popped.stream.queue) := by
  obtain ⟨popped, hpop⟩ := popPacketAtTimestamp_isSome timestamp before hordered.timed hselect
  obtain ⟨hqueue, hdropped, hmatch, hnone⟩ := pop_spec hordered hpop
  obtain ⟨_, _, hstream, _, _, hdone⟩ := popPacketAtTimestamp_eq_some timestamp before popped hpop
  have hbound : popped.stream.nextTimestampBound = before.nextTimestampBound := by
    rw [hstream]
    exact if_neg (not_le.mpr h.2)
  have hsorted := hordered.sorted
  refine ⟨popped, hpop, ?_, ⟨?_, hbound ▸ h.2⟩, pop_ordered hordered hpop, by rw [hstream],
    by rw [hstream], by rw [hstream], hbound, hdone, ?_⟩
  · rw [hdropped, List.filter_eq_nil_iff.mpr]
    · rfl
    · intro packet hpacket
      simpa using h.1 packet hpacket
  · intro packet hpacket
    rw [hqueue] at hpacket
    simpa using (List.mem_filter.mp hpacket).2
  · cases hold : before.queue with
    | nil =>
        right
        exact ⟨hnone (by simp [hold]), by rw [hqueue, hold]; rfl⟩
    | cons packet rest =>
        rw [hold, List.pairwise_cons] at hsorted
        have hle := h.1 packet (hold ▸ List.mem_cons_self ..)
        rcases hle.eq_or_lt with hequal | hlt
        · left
          have hrest : rest.filter (timestamp < ·.timestamp) = rest :=
            List.filter_eq_self.mpr fun other hother => by
              simpa using hle.trans_lt (hsorted.1 other hother)
          rw [hmatch packet (hold ▸ List.mem_cons_self ..) hequal.symm, hqueue, hold,
            List.filter_cons_of_neg (by simp [hequal]), hrest]
          exact ⟨rfl, hequal.symm⟩
        · right
          have hall : ∀ other ∈ packet :: rest, timestamp < other.timestamp :=
            List.forall_mem_cons.mpr ⟨hlt, fun other hother => hlt.trans (hsorted.1 other hother)⟩
          refine ⟨hnone (by rw [hold]; exact fun other hother => (hall other hother).ne'), ?_⟩
          rw [hqueue, hold]
          exact (List.filter_eq_self.mpr fun other hother => by simpa using hall other hother).symm

end Stream

variable {κ π : Type}

-- Every stream was last popped at this timestamp.
def Selected (last : Timestamp) (set : SyncSet κ π) : Prop :=
  ∀ id, (set.streams id).lastSelectTimestamp = last

-- No packet is left and none can come.
def Over (set : SyncSet κ π) : Prop :=
  ∀ id, (set.streams id).queue = [] ∧ .oneOverPostStream ≤ (set.streams id).nextTimestampBound

-- The last pop is not later than the last processed timestamp. Only at the end that one
-- falls back to Max.
def Processed (last minBound minPacket : Timestamp) (set : SyncSet κ π) : Prop :=
  set.processTimestamps = true → last ≤ max set.lastProcessedTs .unstarted ∨
    Over set ∧ .oneOverPostStream ≤ minBound ∧ .oneOverPostStream ≤ minPacket

def Phase (set : SyncSet κ π) : Prop :=
  match set.scheduling with
  | .idle => ∃ last, Selected last set ∧ Processed last .done .done set
  | .reading unread minBound minPacket => ∃ last, Selected last set ∧
      Processed last minBound minPacket set ∧
      (∀ id, id ∉ unread → Seen minBound minPacket (set.streams id)) ∧
      (minPacket = .done ∨ ∃ id, ∃ packet ∈ (set.streams id).queue, packet.timestamp = minPacket)
  | .filling unfilled inputSet => inputSet.timestamp.IsAllowedInStream ∧
      set.lastProcessedTs = inputSet.timestamp ∧
      inputSet.packets.map Prod.fst ++ unfilled = set.streamIds ∧
      (∀ id ∈ unfilled, (set.streams id).lastSelectTimestamp < inputSet.timestamp ∧
        From inputSet.timestamp (set.streams id)) ∧
      (∀ id, id ∉ unfilled → (set.streams id).lastSelectTimestamp = inputSet.timestamp ∧
        Past inputSet.timestamp (set.streams id)) ∧
      (∀ entry ∈ inputSet.packets, entry.2.holder ≠ none → entry.2.timestamp = inputSet.timestamp) ∧
      (set.processTimestamps = false → (∃ entry ∈ inputSet.packets, entry.2.holder ≠ none) ∨
        ∃ id ∈ unfilled, ∃ packet ∈ (set.streams id).queue, packet.timestamp = inputSet.timestamp)

structure Valid (set : SyncSet κ π) : Prop where
  ordered : ∀ id, (set.streams id).Ordered
  opened : ∀ id, (set.streams id).closed = false
  rejects : ∀ id packet, packet.holder = none → (set.streams id).validate packet ≠ none
  filled : ∀ id, ∀ packet ∈ (set.streams id).queue, packet.holder ≠ none
  shard : ∀ id, set.shardIsDone id = true →
    (set.streams id).queue = [] ∧ (set.streams id).nextTimestampBound = .done
  phase : Phase set

section Produce

variable {set : SyncSet κ π} {streams : κ → InputStreamManager π}

theorem Selected.grow {last : Timestamp} (h : Selected last set)
    (hgrows : ∀ id, Grows (set.streams id) (streams id)) : Selected last { set with streams := streams } :=
  fun id => (hgrows id).selected.trans (h id)

theorem no_packet_joins {stream after : InputStreamManager π} (hgrows : Grows stream after)
    (hqueue : stream.queue = []) (hbound : .oneOverPostStream ≤ stream.nextTimestampBound) :
    after.queue = [] := by
  obtain ⟨joined, hjoin, hjoined⟩ := hgrows.queue
  rw [hqueue, List.nil_append] at hjoin
  rw [hjoin]
  apply List.eq_nil_iff_forall_not_mem.mpr
  intro packet hpacket
  have hallowed := hgrows.ordered.allowed packet (hjoin ▸ hpacket)
  exact absurd ((hbound.trans (hjoined packet hpacket).1).trans hallowed.2)
    (show ¬Timestamp.oneOverPostStream ≤ .postStream by decide)

theorem Over.grow (h : Over set) (hgrows : ∀ id, Grows (set.streams id) (streams id)) :
    Over { set with streams := streams } :=
  fun id => ⟨no_packet_joins (hgrows id) (h id).1 (h id).2, (h id).2.trans (hgrows id).bound⟩

theorem Processed.grow {last minBound minPacket : Timestamp} (h : Processed last minBound minPacket set)
    (hgrows : ∀ id, Grows (set.streams id) (streams id)) :
    Processed last minBound minPacket { set with streams := streams } := by
  intro hprocess
  cases h hprocess with
  | inl h => exact .inl h
  | inr h => exact .inr ⟨h.1.grow hgrows, h.2⟩

-- What producers do leaves the scheduling thread right.
theorem Phase.grow (h : Phase set) (hordered : ∀ id, (set.streams id).Ordered)
    (hgrows : ∀ id, Grows (set.streams id) (streams id)) : Phase { set with streams := streams } := by
  unfold Phase at h ⊢
  cases hscheduling : set.scheduling with
  | idle =>
      simp only [hscheduling] at h ⊢
      obtain ⟨last, hselected, hprocessed⟩ := h
      exact ⟨last, hselected.grow hgrows, hprocessed.grow hgrows⟩
  | reading unread minBound minPacket =>
      simp only [hscheduling] at h ⊢
      obtain ⟨last, hselected, hprocessed, hseen, hattained⟩ := h
      refine ⟨last, hselected.grow hgrows, hprocessed.grow hgrows,
        fun id hid => (hseen id hid).grow (hordered id) (hgrows id), ?_⟩
      rcases hattained with hdone | ⟨id, packet, hpacket, htimestamp⟩
      · exact .inl hdone
      · obtain ⟨joined, hqueue, _⟩ := (hgrows id).queue
        exact .inr ⟨id, packet, by rw [hqueue]; exact List.mem_append_left _ hpacket, htimestamp⟩
  | filling unfilled inputSet =>
      simp only [hscheduling] at h ⊢
      obtain ⟨hallowed, hlast, hids, hfrom, hpast, hkeyed, hfilled⟩ := h
      refine ⟨hallowed, hlast, hids, fun id hid => ?_, fun id hid => ?_, hkeyed, fun hplain => ?_⟩
      · rw [(hgrows id).selected]
        exact ⟨(hfrom id hid).1, (hfrom id hid).2.grow (hgrows id)⟩
      · rw [(hgrows id).selected]
        exact ⟨(hpast id hid).1, (hpast id hid).2.grow (hgrows id)⟩
      · rcases hfilled hplain with hentry | ⟨id, hid, packet, hpacket, htimestamp⟩
        · exact .inl hentry
        · obtain ⟨joined, hqueue, _⟩ := (hgrows id).queue
          exact .inr ⟨id, hid, packet, by rw [hqueue]; exact List.mem_append_left _ hpacket, htimestamp⟩

theorem Valid.grow (h : Valid set) (hgrows : ∀ id, Grows (set.streams id) (streams id)) :
    Valid { set with streams := streams } where
  ordered := fun id => (hgrows id).ordered
  opened := fun id => (hgrows id).opened
  rejects := fun id packet hpacket => by
    show (streams id).validate packet ≠ none
    rw [(hgrows id).validate]
    exact h.rejects id packet hpacket
  filled := fun id packet hpacket => by
    obtain ⟨joined, hqueue, hjoined⟩ := (hgrows id).queue
    replace hpacket : packet ∈ (streams id).queue := hpacket
    rw [hqueue] at hpacket
    cases List.mem_append.mp hpacket with
    | inl hold => exact h.filled id packet hold
    | inr hnew => exact fun hempty => h.rejects id packet hempty (hjoined packet hnew).2
  shard := fun id hdone => by
    obtain ⟨hqueue, hbound⟩ := h.shard id hdone
    refine ⟨no_packet_joins (hgrows id) hqueue ?_, ?_⟩
    · rw [hbound]
      decide
    · exact le_antisymm (streams id).nextTimestampBound.hmax (hbound.symm.le.trans (hgrows id).bound)
  phase := h.phase.grow h.ordered hgrows

-- A call on one stream leaves the others alone.
theorem Valid.update [DecidableEq κ] (h : Valid set) (id : κ) {stream : InputStreamManager π}
    (hgrows : Grows (set.streams id) stream) :
    Valid { set with streams := Function.update set.streams id stream } := by
  apply h.grow
  intro other
  by_cases hother : other = id
  · rw [hother, Function.update_self]
    exact hgrows
  · rw [Function.update_of_ne hother]
    exact Grows.refl (h.ordered other) (h.opened other)

end Produce

section Schedule

variable {set : SyncSet κ π}

-- What the scheduling thread does between two calls on the streams.
theorem Valid.schedule (h : Valid set) (lastProcessedTs : Timestamp) (scheduling : Scheduling κ π)
    (hphase : Phase { set with lastProcessedTs := lastProcessedTs, scheduling := scheduling }) :
    Valid { set with lastProcessedTs := lastProcessedTs, scheduling := scheduling } :=
  ⟨h.ordered, h.opened, h.rejects, h.filled, h.shard, hphase⟩

theorem seen_over (h : Valid set) {minBound minPacket : Timestamp}
    (hseen : ∀ id, Seen minBound minPacket (set.streams id)) (hbound : .oneOverPostStream ≤ minBound)
    (hpacket : .oneOverPostStream ≤ minPacket) : Over set := by
  have hnone : ∀ id low, .oneOverPostStream ≤ low →
      (∀ packet ∈ (set.streams id).queue, low ≤ packet.timestamp) → (set.streams id).queue = [] := by
    intro id low hlow hall
    apply List.eq_nil_iff_forall_not_mem.mpr
    intro packet hmem
    exact absurd ((hlow.trans (hall packet hmem)).trans ((h.ordered id).allowed packet hmem).2)
      (show ¬Timestamp.oneOverPostStream ≤ .postStream by decide)
  intro id
  rcases hseen id with ⟨hne, hall⟩ | ⟨hlow, hall⟩
  · exact absurd (hnone id minPacket hpacket hall) hne
  · exact ⟨hnone id minBound hbound hall, hbound.trans hlow⟩

theorem allowed_of_lt (timestamp : Timestamp) (hlow : .unstarted < timestamp)
    (hhigh : timestamp < .oneOverPostStream) : timestamp.IsAllowedInStream := by
  simp only [Timestamp.IsAllowedInStream, Timestamp.le_iff, Timestamp.lt_iff, Timestamp.value_unstarted,
    Timestamp.value_oneOverPostStream, Timestamp.value_preStream, Timestamp.value_postStream] at *
  omega

-- The decision keeps the invariant, and the CHECK of FillInputSet holds.
theorem decided_valid (h : Valid set) {minBound minPacket : Timestamp}
    (hscheduling : set.scheduling = .reading [] minBound minPacket) :
    ∃ after, decided minBound minPacket set = some after ∧ Valid after := by
  have hphase := h.phase
  unfold Phase at hphase
  simp only [hscheduling] at hphase
  obtain ⟨last, hselected, hprocessed, hseen, hattained⟩ := hphase
  replace hseen := fun id => hseen id List.not_mem_nil
  unfold decided
  cases hready : readiness set.processTimestamps set.lastProcessedTs minBound minPacket with
  | mk result rest =>
  obtain ⟨timestamp, processed⟩ := rest
  cases result with
  | notReady =>
      have hsame := readiness_notReady hready
      refine ⟨_, rfl, h.schedule _ _ ⟨last, hselected, fun hprocess => ?_⟩⟩
      rw [hsame]
      exact (hprocessed hprocess).imp_right fun hover => ⟨hover.1, by decide, by decide⟩
  | readyForClose =>
      obtain ⟨hpacket, hbound, hmax⟩ := readiness_close hready
      have hover : Over set := seen_over h hseen hbound hpacket
      exact ⟨_, rfl, h.schedule _ _ ⟨last, hselected, fun _ => .inr ⟨hover, by decide, by decide⟩⟩⟩
  | readyForProcess =>
      obtain ⟨hsame, hpacket, hbound, hend, hplain, htimed, hopen⟩ := readiness_process hready
      obtain rfl : timestamp = processed := hsame.symm
      have hlast : last < timestamp ∧ .unstarted < timestamp := by
        cases hprocess : set.processTimestamps with
        | true =>
            have hmax := htimed hprocess
            refine ⟨?_, (le_max_right _ _).trans_lt hmax⟩
            rcases hprocessed hprocess with hle | ⟨_, hover, hover'⟩
            · exact hle.trans_lt hmax
            · exact absurd (le_min hover' hover) hopen
        | false =>
            -- The timestamp is that of a packet which is still in its queue.
            have htimestamp := hplain hprocess
            rcases hattained with hdone | ⟨id, packet, hmem, hequal⟩
            · rw [htimestamp, hdone] at hend
              exact absurd hend (by decide)
            · have hselect := (h.ordered id).selected (h.opened id) packet hmem
              rw [hselected id, hequal, ← htimestamp] at hselect
              have hallowed := ((h.ordered id).allowed packet hmem).1
              rw [hequal, ← htimestamp] at hallowed
              exact ⟨hselect, (show Timestamp.unstarted < .preStream by decide).trans_le hallowed⟩
      have hallowed := allowed_of_lt timestamp hlast.2 hend
      refine ⟨_, if_pos hallowed, h.schedule _ _ ⟨hallowed, rfl, rfl, fun id _ => ⟨?_, ?_⟩,
        fun id hid => absurd (set.hcomplete id) hid, by simp, fun hprocess => .inr ?_⟩⟩
      · exact (hselected id).trans_lt hlast.1
      · exact (hseen id).from (h.ordered id) hpacket hbound
      · have htimestamp := hplain hprocess
        rcases hattained with hdone | ⟨id, packet, hmem, hequal⟩
        · rw [htimestamp, hdone] at hend
          exact absurd hend (by decide)
        · exact ⟨id, set.hcomplete id, packet, hmem, hequal.trans htimestamp.symm⟩

-- A pop takes packets from one stream and leaves the others alone.
theorem Valid.pop [DecidableEq κ] (h : Valid set) (id : κ) {stream : InputStreamManager π}
    {streamIsDone : Bool} {scheduling : Scheduling κ π} (hordered : stream.Ordered)
    (hopened : stream.closed = false) (hvalidate : stream.validate = (set.streams id).validate)
    (hsub : ∀ packet ∈ stream.queue, packet ∈ (set.streams id).queue)
    (hdone : streamIsDone = true → stream.queue = [] ∧ stream.nextTimestampBound = .done)
    (hphase : Phase { set with
      streams := Function.update set.streams id stream
      shardIsDone := Function.update set.shardIsDone id streamIsDone
      scheduling := scheduling }) :
    Valid { set with
      streams := Function.update set.streams id stream
      shardIsDone := Function.update set.shardIsDone id streamIsDone
      scheduling := scheduling } where
  ordered := (Function.forall_update_iff set.streams fun _ stream => stream.Ordered).mpr
    ⟨hordered, fun other _ => h.ordered other⟩
  opened := (Function.forall_update_iff set.streams fun _ stream => stream.closed = false).mpr
    ⟨hopened, fun other _ => h.opened other⟩
  rejects := (Function.forall_update_iff set.streams fun _ stream =>
      ∀ packet, packet.holder = none → stream.validate packet ≠ none).mpr
    ⟨hvalidate ▸ h.rejects id, fun other _ => h.rejects other⟩
  filled := (Function.forall_update_iff set.streams fun _ stream =>
      ∀ packet ∈ stream.queue, packet.holder ≠ none).mpr
    ⟨fun packet hpacket => h.filled id packet (hsub packet hpacket), fun other _ => h.filled other⟩
  shard := by
    intro other hother
    by_cases hequal : other = id
    · simp only [hequal, Function.update_self] at hother ⊢
      exact hdone hother
    · simp only [Function.update_of_ne hequal] at hother ⊢
      exact h.shard other hother
  phase := hphase

-- A turn of FillInputSet passes its CHECKs.
theorem fillStream_valid [DecidableEq κ] (h : Valid set) {id : κ} {unfilled : List κ}
    {inputSet : InputSet κ π} (hscheduling : set.scheduling = .filling (id :: unfilled) inputSet) :
    ∃ after popped, fillStream id unfilled inputSet set = some after ∧ Valid after ∧
      after.scheduling = .filling unfilled
        { inputSet with packets := inputSet.packets ++ [(id, popped)] } ∧
      (∀ other, other ≠ id → after.streams other = set.streams other) ∧
      (after.streams id).nextTimestampBound = (set.streams id).nextTimestampBound ∧
      ((set.streams id).queue = popped :: (after.streams id).queue ∧
          popped.timestamp = inputSet.timestamp ∧ popped.holder ≠ none ∨
        popped.holder = none ∧ (set.streams id).queue = (after.streams id).queue) := by
  have hphase := h.phase
  unfold Phase at hphase
  simp only [hscheduling] at hphase
  obtain ⟨hallowed, hlast, hids, hfrom, hpast, hkeyed, hfilled⟩ := hphase
  have hdistinct := set.hdistinct
  rw [← hids] at hdistinct
  have hnew : id ∉ unfilled := (List.nodup_cons.mp (List.nodup_append.mp hdistinct).2.1).1
  obtain ⟨hselect, hstream⟩ := hfrom id (List.mem_cons_self ..)
  obtain ⟨popped, hpop, hdropped, hpast', hordered, hclosed, hvalidate, hselected, hbound, hdone, hqueue⟩ :=
    hstream.pop (h.ordered id) hselect.le
  have hsub : ∀ packet ∈ popped.stream.queue, packet ∈ (set.streams id).queue := by
    intro packet hpacket
    rcases hqueue with ⟨hqueue, _⟩ | ⟨_, hqueue⟩
    · rw [hqueue]
      exact List.mem_cons_of_mem _ hpacket
    · rwa [hqueue]
  have hshard : ¬(set.shardIsDone id = true ∧ popped.packet.holder ≠ none) := by
    rintro ⟨hshard, hholder⟩
    rcases hqueue with ⟨hqueue, _⟩ | ⟨hnone, _⟩
    · rw [(h.shard id hshard).1] at hqueue
      cases hqueue
    · exact hholder hnone
  refine ⟨{ set with
    streams := Function.update set.streams id popped.stream
    shardIsDone := Function.update set.shardIsDone id popped.streamIsDone
    scheduling := .filling unfilled
      { inputSet with packets := inputSet.packets ++ [(id, popped.packet)] } },
    popped.packet, ?_, h.pop id hordered (hclosed.trans (h.opened id)) hvalidate hsub ?_ ?_, rfl,
    fun other hother => Function.update_of_ne hother _ _,
    by simpa only [Function.update_self] using hbound, ?_⟩
  · unfold fillStream
    rw [hpop]
    simp only [hdropped, ne_eq, not_true, if_false]
    exact if_neg hshard
  · intro hnone
    rw [hdone, isDone, Bool.and_eq_true, decide_eq_true_eq] at hnone
    exact ⟨List.isEmpty_iff.mp hnone.1, hnone.2⟩
  · refine ⟨hallowed, hlast, ?_, fun other hother => ?_, fun other hother => ?_, ?_, fun hplain => ?_⟩
    · rw [← hids]
      simp
    · have hne : other ≠ id := fun heq => hnew (heq ▸ hother)
      simp only [Function.update_of_ne hne]
      exact hfrom other (List.mem_cons_of_mem _ hother)
    · by_cases hequal : other = id
      · simp only [hequal, Function.update_self]
        exact ⟨hselected, hpast'⟩
      · simp only [Function.update_of_ne hequal]
        exact hpast other (by simp [hequal, hother])
    · rw [List.forall_mem_append, List.forall_mem_singleton]
      refine ⟨hkeyed, fun hholder => ?_⟩
      rcases hqueue with ⟨_, htimestamp⟩ | ⟨hnone, _⟩
      · exact htimestamp
      · exact absurd hnone hholder
    · rcases hfilled hplain with ⟨entry, hentry, hholder⟩ | ⟨other, hother, packet, hpacket, htimestamp⟩
      · exact .inl ⟨entry, List.mem_append_left _ hentry, hholder⟩
      by_cases hequal : other = id
      · -- The packet that was promised is the one that was popped.
        subst hequal
        rcases hqueue with ⟨hqueue, _⟩ | ⟨_, hqueue⟩
        · exact .inl ⟨(other, popped.packet), by simp,
            h.filled other popped.packet (hqueue ▸ List.mem_cons_self ..)⟩
        · have hlater := hpast'.1 packet (hqueue ▸ hpacket)
          exact absurd htimestamp hlater.ne'
      · refine .inr ⟨other, (List.mem_cons.mp hother).resolve_left hequal, packet, ?_, htimestamp⟩
        simpa only [Function.update_of_ne hequal] using hpacket
  · simp only [Function.update_self]
    rcases hqueue with ⟨hqueue, htimestamp⟩ | hnone
    · exact .inl ⟨hqueue, htimestamp, h.filled id popped.packet (hqueue ▸ List.mem_cons_self ..)⟩
    · exact .inr hnone

end Schedule

end SyncSet

end SpaceInvaders.Mediapipe

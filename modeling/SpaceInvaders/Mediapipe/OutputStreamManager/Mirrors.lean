import SpaceInvaders.Library.Flow
import SpaceInvaders.Mediapipe.InputStreamManager.Lemmas
import SpaceInvaders.Mediapipe.OutputStreamHandler.Runs
import SpaceInvaders.Mediapipe.OutputStreamManager

namespace SpaceInvaders.Mediapipe

namespace OutputStreamManager

open InputStreamManager

variable {π : Type}

-- TimestampDiff(0)
def sameTime : TimestampDiff := ⟨0, by omega, by omega⟩

-- What a calculator leaves in a shard that sends at most one packet, at the time of its
-- inputs. The bound that the shard was reset to may be an old one.
def Emits (spec : OutputStreamSpec π) (inputTimestamp : Timestamp) (output : OutputStreamShard π) : Prop :=
  ∃ bound, output = .reset bound false ∨ ∃ packet, packet.timestamp = inputTimestamp ∧
    output = ((OutputStreamShard.reset bound false).addPacket spec packet).1

-- What the manager relies on in a mirror.
structure Ready (spec : OutputStreamSpec π) (bound : Timestamp) (mirror : InputStreamManager π) : Prop where
  bound : mirror.nextTimestampBound = bound
  opened : mirror.closed = false
  timed : mirror.enableTimestamps
  takes : ∀ packet, spec.packetType packet = none → mirror.validate packet = none

-- All that is handed on after this place finds its time open.
structure Level (place : Int) (manager : OutputStreamManager π) : Prop where
  opened : manager.closed = false
  offset : manager.spec.offset = some sameTime
  below : ∀ timestamp : Timestamp, timestamp.IsRangeValue → place < invocationPlace timestamp →
    manager.nextTimestampBound ≤ timestamp
  ready : ∀ mirror ∈ manager.mirrors, Ready manager.spec manager.nextTimestampBound mirror

-- The packets that a node takes out of its mirror.
def taken (index : Nat) (event : Event π) (manager : OutputStreamManager π) : List (Packet π) :=
  match event with
  | .handOn _ => []
  | .pop mirror timestamp =>
      if mirror = index then ((manager.mirrors[mirror]?).map (removed timestamp)).getD [] else []

-- The packets that wait in the mirrors.
def queues (manager : OutputStreamManager π) : List (List (Packet π)) := manager.mirrors.map (·.queue)

-- The node and the nodes that read it begin a run.
def started (manager : OutputStreamManager π) : OutputStreamManager π :=
  { manager.prepareForRun with mirrors := manager.mirrors.map InputStreamManager.prepareForRun }

section Send

variable {spec : OutputStreamSpec π} {mirror : InputStreamManager π} {low bound inputTimestamp : Timestamp}

theorem emits_cases {output : OutputStreamShard π} (h : Emits spec inputTimestamp output) :
    output.closed = false ∧
      (output.outputQueue = [] ∧ output.updatedNextTimestampBound = .unset ∨
        output.nextTimestampBound = inputTimestamp.nextAllowedInStream ∧
          output.updatedNextTimestampBound = inputTimestamp.nextAllowedInStream ∧
          (output.outputQueue = [] ∨ ∃ packet, output.outputQueue = [packet] ∧
            packet.timestamp = inputTimestamp ∧ spec.packetType packet = none)) := by
  obtain ⟨bound, rfl | ⟨packet, rfl, rfl⟩⟩ := h
  · exact ⟨rfl, .inl ⟨rfl, rfl⟩⟩
  · unfold OutputStreamShard.addPacket
    rw [if_neg (by simp [OutputStreamShard.reset])]
    split
    · unfold OutputStreamShard.setNextTimestampBound
      split
      · exact ⟨rfl, .inl ⟨rfl, rfl⟩⟩
      · exact ⟨rfl, .inr ⟨rfl, rfl, .inl rfl⟩⟩
    split
    · exact ⟨rfl, .inl ⟨rfl, rfl⟩⟩
    cases htype : spec.packetType packet with
    | some status => exact ⟨rfl, .inl ⟨rfl, rfl⟩⟩
    | none => exact ⟨rfl, .inr ⟨rfl, rfl, .inr ⟨packet, rfl, rfl, htype⟩⟩⟩

-- Behind the last range value the bound is PostStream, where a packet would leave the one after.
theorem inputBound_spec (hrange : inputTimestamp.IsRangeValue) :
    ∃ bound, inputBound (some sameTime) inputTimestamp = some bound ∧ inputTimestamp < bound ∧
      bound ≤ inputTimestamp.nextAllowedInStream := by
  by_cases hmax : inputTimestamp = .max
  · subst hmax
    exact ⟨.postStream, rfl, by decide, by decide⟩
  have hlow : -9223372036854775805 ≤ inputTimestamp.value := hrange.1
  have hhigh : inputTimestamp.value ≤ 9223372036854775804 := hrange.2
  simp only [Timestamp.ext_iff, Timestamp.value_max] at hmax
  have hnext : inputTimestamp.nextAllowedInStream.value = inputTimestamp.value + 1 := by
    rw [Timestamp.next_value, if_neg (by omega), if_neg (by omega)]
  have hnextRange : inputTimestamp.nextAllowedInStream.IsRangeValue := by
    simp only [Timestamp.IsRangeValue, Timestamp.le_iff, hnext, Timestamp.value_min, Timestamp.value_max]
    omega
  refine ⟨inputTimestamp.nextAllowedInStream, ?_, ?_, le_rfl⟩
  · unfold inputBound
    simp only [Timestamp.ext_iff, Timestamp.value_unstarted, Timestamp.value_preStream,
      Timestamp.value_max, Timestamp.value_postStream]
    rw [if_neg (by omega), if_neg (by omega), if_neg hmax, if_neg (by omega),
      Timestamp.add_eq_clamp _ _ hnextRange, show sameTime.value = 0 from rfl, Int.add_zero,
      Timestamp.clamp_of_isRangeValue _ hnextRange]
  · rw [Timestamp.lt_iff, hnext]
    omega

-- The bound lies behind the invocation, and where there is a packet it is the next one.
theorem compute_spec {manager : OutputStreamManager π} {output : OutputStreamShard π}
    (hoffset : manager.spec.offset = some sameTime) (hrange : inputTimestamp.IsRangeValue)
    (hemits : Emits manager.spec inputTimestamp output) :
    ∃ bound, manager.computeOutputTimestampBound output inputTimestamp = some (bound, []) ∧
      (output.outputQueue = [] ∧ bound = .unset ∨
        inputTimestamp < bound ∧ bound ≤ inputTimestamp.nextAllowedInStream ∧
          (output.outputQueue = [] ∨ bound = inputTimestamp.nextAllowedInStream ∧
            ∃ packet, output.outputQueue = [packet] ∧ packet.timestamp = inputTimestamp ∧
              manager.spec.packetType packet = none)) := by
  have hunset : ∀ timestamp : Timestamp, Timestamp.unset ≤ timestamp := fun timestamp => timestamp.hmin
  have hallowed : inputTimestamp.IsAllowedInStream :=
    ⟨(show Timestamp.preStream ≤ .min by decide).trans hrange.1,
      hrange.2.trans (show Timestamp.max ≤ .postStream by decide)⟩
  have hlater := Timestamp.lt_next inputTimestamp hallowed
  obtain ⟨bound, hbound, hlt, hle⟩ := inputBound_spec hrange
  unfold computeOutputTimestampBound
  rw [if_neg (by simp [hallowed]), hoffset, hbound]
  simp only [Option.bind_eq_bind, Option.bind_some, Option.pure_def]
  obtain ⟨_, ⟨hqueue, hupdated⟩ | ⟨hnext, hupdated, hqueue⟩⟩ := emits_cases hemits
  · simp only [hqueue, hupdated, List.isEmpty_nil, if_true]
    split
    · refine ⟨bound, ?_, .inr ⟨hlt, hle, .inl trivial⟩⟩
      rw [max_eq_right (hunset bound), max_eq_left (hunset bound)]
    · exact ⟨.unset, by rw [max_self], .inl ⟨trivial, rfl⟩⟩
  · rw [hnext, hupdated, if_neg (not_lt.mpr hle), max_eq_right (hunset _)]
    rcases hqueue with hqueue | ⟨packet, hqueue, rfl, htype⟩
    · exact ⟨_, by simp [hqueue], .inr ⟨hlater, le_rfl, .inl hqueue⟩⟩
    · refine ⟨packet.timestamp.nextAllowedInStream, ?_,
        .inr ⟨hlater, le_rfl, .inr ⟨rfl, packet, hqueue, rfl, htype⟩⟩⟩
      simp [hqueue, OutputStreamShard.lastAddedPacketTimestamp]

theorem send_bound (h : Ready spec low mirror) (hbound : low ≤ bound) (hset : bound ≠ .unset) :
    (send bound [] mirror).2 = [] ∧ Ready spec bound (send bound [] mirror).1 ∧
      (send bound [] mirror).1.queue = mirror.queue := by
  have hle : ¬bound < mirror.nextTimestampBound := not_lt.mpr (h.bound ▸ hbound)
  simp only [send, List.isEmpty_nil, if_true, List.getLast?_nil, Option.map_none, ne_eq, hset,
    not_false_eq_true, reduceCtorEq, and_self, Option.toList_none, List.nil_append]
  unfold InputStreamManager.setNextTimestampBound
  rw [if_neg (by simp [h.opened]), if_neg (fun hback => hle hback.2)]
  split
  · exact ⟨rfl, ⟨rfl, h.opened, h.timed, h.takes⟩, rfl⟩
  · next hsame =>
      exact ⟨rfl, ⟨le_antisymm (not_lt.mp hle) (not_lt.mp hsame), h.opened, h.timed, h.takes⟩, rfl⟩

theorem send_packet (h : Ready spec low mirror) (packet : Packet π)
    (htype : spec.packetType packet = none) (hrange : packet.timestamp.IsRangeValue)
    (hlow : low ≤ packet.timestamp) :
    (send packet.timestamp.nextAllowedInStream [packet] mirror).2 = [] ∧
      Ready spec packet.timestamp.nextAllowedInStream
        (send packet.timestamp.nextAllowedInStream [packet] mirror).1 ∧
      (send packet.timestamp.nextAllowedInStream [packet] mirror).1.queue = mirror.queue ++ [packet] := by
  have hallowed : packet.timestamp.IsAllowedInStream :=
    ⟨(show Timestamp.preStream ≤ .min by decide).trans hrange.1,
      hrange.2.trans (show Timestamp.max ≤ .postStream by decide)⟩
  have hpost : packet.timestamp ≠ .postStream := fun heq =>
    absurd (heq ▸ hrange.2) (show ¬Timestamp.postStream ≤ .max by decide)
  have hrefuse : mirror.refuse packet = none := (mirror.refuse_eq_none_iff packet h.timed).mpr
    ⟨h.takes packet htype, hallowed, fun hlast => hpost hlast.1, h.bound ▸ hlow⟩
  have hadded : (mirror.addPackets [packet]).stream = mirror.addPacket packet ∧
      (mirror.addPackets [packet]).status = none := by
    unfold InputStreamManager.addPackets
    rw [if_neg (by simp [h.opened])]
    simp [addEach, hrefuse]
  refine ⟨?_, ?_, ?_⟩
  · simp [send, hadded.2]
  all_goals
    simp only [send, List.isEmpty_cons, Bool.false_eq_true, if_false, hadded.1]
    rw [if_neg (by simp)]
  · exact ⟨rfl, h.opened, h.timed, h.takes⟩
  · rfl

end Send

section Step

variable {manager after : OutputStreamManager π} {place : Int}

theorem Level.later {later : Int} (h : Level place manager) (hle : place ≤ later) : Level later manager :=
  ⟨h.opened, h.offset, fun timestamp hrange hplace => h.below timestamp hrange (hle.trans_lt hplace), h.ready⟩

theorem propagated_quiet : manager.propagateUpdatesToMirrors .unset [] = (manager, []) := by
  simp [propagateUpdatesToMirrors, send]

theorem propagated_level (hlevel : Level place manager) {bound : Timestamp} {packets : List (Packet π)}
    (later : Int) (hset : bound ≠ .unset)
    (hsend : ∀ mirror ∈ manager.mirrors, (send bound packets mirror).2 = [] ∧
      Ready manager.spec bound (send bound packets mirror).1 ∧
      (send bound packets mirror).1.queue = mirror.queue ++ packets)
    (hbelow : ∀ timestamp : Timestamp, timestamp.IsRangeValue → later < invocationPlace timestamp →
      bound ≤ timestamp) :
    (manager.propagateUpdatesToMirrors bound packets).2 = [] ∧
      Level later (manager.propagateUpdatesToMirrors bound packets).1 ∧
      (manager.propagateUpdatesToMirrors bound packets).1.queues = manager.queues.map (· ++ packets) := by
  refine ⟨List.flatMap_eq_nil_iff.mpr fun mirror hmirror => (hsend mirror hmirror).1,
    ⟨hlevel.opened, hlevel.offset, ?_, ?_⟩, ?_⟩
  · simp only [propagateUpdatesToMirrors, ne_eq, hset, not_false_eq_true, if_true]
    exact hbelow
  · simp only [propagateUpdatesToMirrors, ne_eq, hset, not_false_eq_true, if_true, List.forall_mem_map]
    exact fun mirror hmirror => (hsend mirror hmirror).2.1
  · simp only [queues, propagateUpdatesToMirrors, List.map_map]
    exact List.map_congr_left fun mirror hmirror => (hsend mirror hmirror).2.2

-- A packet goes to every mirror, and an invocation without one leaves its bound there.
theorem packets_level (hlevel : Level place manager) (inputTimestamp : Timestamp)
    (output : OutputStreamShard π) (hplace : place < invocationPlace inputTimestamp)
    (hrange : inputTimestamp.IsRangeValue) (hemits : Emits manager.spec inputTimestamp output) :
    ∃ after, manager.propagateOutputPackets inputTimestamp output = some (after, []) ∧
      Level (invocationPlace inputTimestamp) after ∧ after.spec = manager.spec ∧
      after.queues = manager.queues.map (· ++ output.outputQueue) := by
  obtain ⟨bound, hcompute, hbound⟩ := compute_spec hlevel.offset hrange hemits
  have hclosed := (emits_cases hemits).1
  have hlow := hlevel.below inputTimestamp hrange hplace
  have hafter : manager.propagateOutputPackets inputTimestamp output =
      some (manager.propagateUpdatesToMirrors bound output.outputQueue) := by
    unfold propagateOutputPackets
    rw [if_neg (by simp [hlevel.opened]), hcompute]
    simp [hclosed]
  rw [hafter]
  rcases hbound with ⟨hqueue, rfl⟩ | ⟨hlt, hle, hpacket⟩
  · rw [hqueue, propagated_quiet]
    exact ⟨manager, rfl, hlevel.later hplace.le, rfl, by simp⟩
  have hset : bound ≠ .unset := fun heq => absurd hlt (not_lt.mpr (heq ▸ inputTimestamp.hmin))
  have hbelow : ∀ timestamp : Timestamp, timestamp.IsRangeValue →
      invocationPlace inputTimestamp < invocationPlace timestamp → bound ≤ timestamp := by
    intro timestamp htimestamp hlater
    have hhigh : timestamp.value ≤ 9223372036854775804 := htimestamp.2
    have hfirst : -9223372036854775805 ≤ inputTimestamp.value := hrange.1
    unfold invocationPlace at hlater
    refine hle.trans ?_
    rw [Timestamp.le_iff, Timestamp.next_value]
    split_ifs <;> omega
  have hsend : ∀ mirror ∈ manager.mirrors, (send bound output.outputQueue mirror).2 = [] ∧
      Ready manager.spec bound (send bound output.outputQueue mirror).1 ∧
      (send bound output.outputQueue mirror).1.queue = mirror.queue ++ output.outputQueue := by
    intro mirror hmirror
    have hready := hlevel.ready mirror hmirror
    rcases hpacket with hqueue | ⟨rfl, packet, hqueue, rfl, htype⟩
    · rw [hqueue, List.append_nil]
      exact send_bound hready (hlow.trans hlt.le) hset
    · rw [hqueue]
      exact send_packet hready packet htype hrange hlow
  obtain ⟨hnone, hlevel', hqueues⟩ :=
    propagated_level hlevel (invocationPlace inputTimestamp) hset hsend hbelow
  exact ⟨_, congrArg some (Prod.ext rfl hnone), hlevel', rfl, hqueues⟩

theorem bound_level (hlevel : Level place manager) (inputBound : Timestamp)
    (hplace : place < boundPlace inputBound) :
    ∃ after, manager.tryPropagateTimestampBound inputBound = some (after, []) ∧
      Level (boundPlace inputBound) after ∧ after.spec = manager.spec ∧
      after.queues = manager.queues := by
  unfold tryPropagateTimestampBound
  by_cases hrange : inputBound.IsRangeValue
  · rw [if_neg (not_not.mpr hrange), hlevel.offset]
    simp only
    rw [if_neg (by simp [hlevel.opened]), Timestamp.add_eq_clamp _ _ hrange,
      show sameTime.value = 0 from rfl, Int.add_zero, Timestamp.clamp_of_isRangeValue _ hrange]
    simp only [Option.bind_eq_bind, Option.bind_some, Option.pure_def]
    split
    · next hless =>
      have hset : inputBound ≠ .unset := fun heq => absurd (heq ▸ hrange.1) (by decide)
      obtain ⟨hnone, hlevel', hqueues⟩ := propagated_level hlevel (boundPlace inputBound) hset
        (fun mirror hmirror => by
          rw [List.append_nil]
          exact send_bound (hlevel.ready mirror hmirror) hless.le hset)
        (fun timestamp _ hlater => by
          unfold boundPlace invocationPlace at hlater
          rw [Timestamp.le_iff]
          omega)
      exact ⟨_, congrArg some (Prod.ext rfl hnone), hlevel', rfl, hqueues.trans (by simp)⟩
    · exact ⟨manager, rfl, hlevel.later hplace.le, rfl, rfl⟩
  · rw [if_pos hrange]
    exact ⟨manager, rfl, hlevel.later hplace.le, rfl, rfl⟩

-- A node that reads a mirror does not move its bound, and leaves the other mirrors alone.
theorem pop_level (hlevel : Level place manager) {mirror : Nat} {timestamp : Timestamp}
    (h : step (.pop mirror timestamp) manager = some after) :
    Level place after ∧ after.spec = manager.spec ∧ after.queues.length = manager.queues.length ∧
      ∀ index packets, manager.queues[index]? = some packets →
        ∃ left, after.queues[index]? = some left ∧
          packets = taken index (.pop mirror timestamp) manager ++ left := by
  obtain ⟨stream, hmirror, h⟩ := Option.bind_eq_some_iff.mp h
  obtain ⟨hbound, h⟩ := Option.ite_none_right_eq_some.mp h
  obtain ⟨popped, hpopped, h⟩ := Option.bind_eq_some_iff.mp h
  cases h
  have hready := hlevel.ready stream (List.mem_of_getElem? hmirror)
  obtain ⟨_, _, hstream, _⟩ := popPacketAtTimestamp_eq_some timestamp stream popped hpopped
  have hkept : Ready manager.spec manager.nextTimestampBound popped.stream := by
    rw [hstream, if_neg (not_le.mpr hbound)]
    exact ⟨hready.bound, hready.opened, hready.timed, hready.takes⟩
  refine ⟨⟨hlevel.opened, hlevel.offset, hlevel.below, fun other hother => ?_⟩, rfl, by simp [queues], ?_⟩
  · rcases List.mem_or_eq_of_mem_set hother with hold | rfl
    · exact hlevel.ready other hold
    · exact hkept
  intro index packets hpackets
  simp only [queues, List.getElem?_map, Option.map_eq_some_iff, List.getElem?_set, taken] at hpackets ⊢
  obtain ⟨found, hfound, rfl⟩ := hpackets
  by_cases hindex : mirror = index
  · subst hindex
    obtain rfl := Option.some.inj (hfound.symm.trans hmirror)
    have hlength := (List.getElem?_eq_some_iff.mp hmirror).1
    refine ⟨popped.stream.queue, by simp [hlength], ?_⟩
    rw [if_pos rfl, hmirror, hstream]
    exact List.takeWhile_append_dropWhile.symm
  · simp [hindex, hfound]

end Step

-- The next item fails no CHECK and meets no error.
theorem handOn_level {manager : OutputStreamManager π} {place : Int} (hlevel : Level place manager)
    (item : Propagated (OutputStreamShard π)) (hplace : place < item.place)
    (hemits : ∀ inputTimestamp output, item = .packets inputTimestamp output →
      inputTimestamp.IsRangeValue ∧ Emits manager.spec inputTimestamp output) :
    ∃ after, manager.handOn item = some (after, []) ∧ Level item.place after ∧ after.spec = manager.spec ∧
      after.queues = manager.queues.map (· ++ sent (.handOn item)) := by
  cases item with
  | packets inputTimestamp output =>
      obtain ⟨hrange, hemit⟩ := hemits inputTimestamp output rfl
      exact packets_level hlevel inputTimestamp output hplace hrange hemit
  | bound inputBound =>
      obtain ⟨after, hafter, hlevel', hspec, hqueues⟩ := bound_level hlevel inputBound hplace
      exact ⟨after, hafter, hlevel', hspec, hqueues.trans (by simp [sent])⟩

-- What one item or one pop does to each queue.
theorem step_level (event : Event π) {manager next : OutputStreamManager π} {place : Int}
    (upcoming : List (Propagated (OutputStreamShard π))) (hlevel : Level place manager)
    (hplace : ∀ item ∈ event.item.toList ++ upcoming, place < item.place)
    (horder : (event.item.toList ++ upcoming).Pairwise (fun a b => a.place < b.place))
    (hemits : ∀ inputTimestamp output, event = .handOn (.packets inputTimestamp output) →
      inputTimestamp.IsRangeValue ∧ Emits manager.spec inputTimestamp output)
    (h : step event manager = some next) :
    errors event manager = [] ∧ next.spec = manager.spec ∧ next.queues.length = manager.queues.length ∧
      (∃ later, Level later next ∧ ∀ item ∈ upcoming, later < item.place) ∧
      ∀ index packets, manager.queues[index]? = some packets →
        ∃ left, next.queues[index]? = some left ∧ packets ++ sent event = taken index event manager ++ left := by
  cases event with
  | handOn item =>
      obtain ⟨hlater, _⟩ := List.pairwise_cons.mp horder
      have hitem := hplace item (List.mem_cons_self ..)
      obtain ⟨found, hfound, hlevel', hspec, hqueues⟩ := handOn_level hlevel item hitem
        (fun inputTimestamp output heq => hemits inputTimestamp output (heq ▸ rfl))
      simp only [step, hfound, Option.map_some, Option.some.injEq] at h
      subst h
      refine ⟨by simp [errors, hfound], hspec, by simp [hqueues], ⟨_, hlevel', hlater⟩,
        fun index packets hpackets => ?_⟩
      exact ⟨packets ++ sent (.handOn item), by simp [hqueues, hpackets], rfl⟩
  | pop mirror timestamp =>
      obtain ⟨hlevel', hspec, hlength, hqueues⟩ := pop_level hlevel h
      refine ⟨rfl, hspec, hlength, ⟨place, hlevel', hplace⟩, fun index packets hpackets => ?_⟩
      rw [show sent (.pop mirror timestamp : Event π) = [] from rfl, List.append_nil]
      exact hqueues index packets hpackets

-- Each item finds its time open, and so will those that come after the run.
theorem run_level (events : List (Event π)) {manager final : OutputStreamManager π} {place : Int}
    (upcoming : List (Propagated (OutputStreamShard π))) (hlevel : Level place manager)
    (hplace : ∀ item ∈ events.filterMap Event.item ++ upcoming, place < item.place)
    (horder : (events.filterMap Event.item ++ upcoming).Pairwise (fun a b => a.place < b.place))
    (hemits : ∀ inputTimestamp output, .handOn (.packets inputTimestamp output) ∈ events →
      inputTimestamp.IsRangeValue ∧ Emits manager.spec inputTimestamp output)
    (hrun : Transition.run step manager events = some final) :
    Transition.log step errors manager events = [] ∧ final.spec = manager.spec ∧
      final.queues.length = manager.queues.length ∧
      (∃ later, Level later final ∧ ∀ item ∈ upcoming, later < item.place) ∧
      ∀ index packets, manager.queues[index]? = some packets →
        ∃ left, final.queues[index]? = some left ∧
          packets ++ events.flatMap sent = Transition.log step (taken index) manager events ++ left := by
  induction events generalizing manager place with
  | nil =>
      cases hrun
      refine ⟨rfl, rfl, rfl, ⟨place, hlevel, hplace⟩, fun index packets hpackets => ⟨packets, hpackets, ?_⟩⟩
      rw [List.flatMap_nil, List.append_nil, Transition.log_nil, List.nil_append]
  | cons event rest ih =>
      rw [Transition.run_cons, Option.bind_eq_some_iff] at hrun
      obtain ⟨next, hnext, hrun⟩ := hrun
      have hitems : (event :: rest).filterMap Event.item ++ upcoming =
          event.item.toList ++ (rest.filterMap Event.item ++ upcoming) := by
        cases event <;> rfl
      rw [hitems] at hplace horder
      obtain ⟨herrors, hspec, hlength, ⟨later, hlevel', hlater⟩, hstep⟩ := step_level event _ hlevel hplace horder
        (fun inputTimestamp output heq => hemits inputTimestamp output (heq ▸ List.mem_cons_self ..)) hnext
      obtain ⟨hrest, hspec', hlength', hfinal, hqueues⟩ := ih hlevel' hlater (List.pairwise_append.mp horder).2.1
        (fun inputTimestamp output hmem =>
          hspec ▸ hemits inputTimestamp output (List.mem_cons_of_mem _ hmem)) hrun
      refine ⟨?_, hspec'.trans hspec, hlength'.trans hlength, hfinal, fun index packets hpackets => ?_⟩
      · rw [Transition.log_cons_of_some _ _ _ hnext, herrors, hrest, List.nil_append]
      · obtain ⟨between, hbetween, hflow⟩ := hstep index packets hpackets
        obtain ⟨left, hleft, hflow'⟩ := hqueues index between hbetween
        refine ⟨left, hleft, ?_⟩
        rw [Transition.log_cons_of_some _ _ _ hnext, List.flatMap_cons, ← List.append_assoc, hflow,
          List.append_assoc, hflow', List.append_assoc]

theorem unset_lt_place (item : Propagated (OutputStreamShard π)) : boundPlace .unset - 1 < item.place := by
  unfold Propagated.place boundPlace invocationPlace
  cases item with
  | packets inputTimestamp outputs =>
      have hmin := inputTimestamp.hmin
      simp only [Timestamp.value_unset]
      omega
  | bound inputBound =>
      have hmin := inputBound.hmin
      simp only [Timestamp.value_unset]
      omega

theorem started_level (manager : OutputStreamManager π) (hoffset : manager.spec.offset = some sameTime)
    (hmirrors : ∀ mirror ∈ manager.mirrors, mirror.enableTimestamps ∧
      ∀ packet, manager.spec.packetType packet = none → mirror.validate packet = none) (place : Int) :
    Level place manager.started := by
  refine ⟨rfl, hoffset, fun timestamp hrange _ =>
    (show Timestamp.preStream ≤ .min by decide).trans hrange.1, ?_⟩
  unfold started
  simp only [List.forall_mem_map]
  exact fun mirror hmirror => ⟨rfl, rfl, (hmirrors mirror hmirror).1, (hmirrors mirror hmirror).2⟩

-- For a calculator that keeps the times of its inputs and sends at most one packet for each of
-- them, what its handler hands on goes through all mirrors without an error, in whatever order
-- its invocations return and whatever the nodes behind take meanwhile. What was taken out of a
-- mirror and what waits in it are the packets that were sent, in order, its bound is the one
-- that the manager has announced, and the next item can be handed on.
theorem mirrors_follow (manager final : OutputStreamManager π)
    (handler : OutputStreamHandler (OutputStreamShard π))
    (calls : List (OutputStreamHandler.Event (OutputStreamShard π))) (events : List (Event π))
    (hoffset : manager.spec.offset = some sameTime)
    (hmirrors : ∀ mirror ∈ manager.mirrors, mirror.enableTimestamps ∧
      ∀ packet, manager.spec.packetType packet = none → mirror.validate packet = none)
    (hemits : ∀ inputTimestamp output, .postProcess inputTimestamp output ∈ calls →
      inputTimestamp.IsRangeValue ∧ Emits manager.spec inputTimestamp output)
    (hcalls : Transition.run OutputStreamHandler.step OutputStreamHandler.prepareForRun calls = some handler)
    (hitems : events.filterMap Event.item <+:
      Transition.log OutputStreamHandler.step OutputStreamHandler.propagated
        OutputStreamHandler.prepareForRun calls)
    (hrun : Transition.run step manager.started events = some final) :
    Transition.log step errors manager.started events = [] ∧
      final.mirrors.length = manager.mirrors.length ∧
      (∀ index mirror, final.mirrors[index]? = some mirror →
        Transition.log step (taken index) manager.started events ++ mirror.queue = events.flatMap sent ∧
          mirror.nextTimestampBound = final.nextTimestampBound) ∧
      ∀ item, events.filterMap Event.item ++ [item] <+:
          Transition.log OutputStreamHandler.step OutputStreamHandler.propagated
            OutputStreamHandler.prepareForRun calls →
        ∃ after, step (.handOn item) final = some after := by
  have hemitted : ∀ inputTimestamp output, .packets inputTimestamp output ∈
      Transition.log OutputStreamHandler.step OutputStreamHandler.propagated
        OutputStreamHandler.prepareForRun calls →
      inputTimestamp.IsRangeValue ∧ Emits manager.spec inputTimestamp output :=
    fun inputTimestamp output hmem =>
      hemits inputTimestamp output (OutputStreamHandler.run_postProcess hcalls hmem)
  obtain ⟨upcoming, hupcoming⟩ := hitems
  have horder := OutputStreamHandler.run_places hcalls
  rw [← hupcoming] at horder hemitted
  obtain ⟨herrors, hspec, hlength, ⟨later, hlevel, hlater⟩, hqueues⟩ := run_level events upcoming
    (started_level manager hoffset hmirrors _) (fun item _ => unset_lt_place item) horder
    (fun inputTimestamp output hmem => hemitted inputTimestamp output
      (List.mem_append_left _ (List.mem_filterMap.mpr ⟨_, hmem, rfl⟩))) hrun
  have hmirror : final.mirrors.length = manager.mirrors.length := by
    simpa [queues, started] using hlength
  refine ⟨herrors, hmirror, fun index mirror hindex => ?_, fun item hitem => ?_⟩
  · have hless : index < manager.mirrors.length := hmirror ▸ (List.getElem?_eq_some_iff.mp hindex).1
    obtain ⟨left, hleft, hflow⟩ := hqueues index [] (by simp [queues, started, prepareForRun, hless,
      InputStreamManager.prepareForRun])
    obtain rfl : mirror.queue = left := by simpa [queues, hindex] using hleft
    exact ⟨hflow.symm, (hlevel.ready mirror (List.mem_of_getElem? hindex)).bound⟩
  · have hnext : item ∈ upcoming := by
      rw [← hupcoming, List.prefix_append_right_inj] at hitem
      exact hitem.subset (List.mem_singleton_self item)
    obtain ⟨after, hafter, _⟩ := handOn_level hlevel item (hlater item hnext)
      (fun inputTimestamp output heq => hspec ▸ hemitted inputTimestamp output
        (List.mem_append_right _ (heq ▸ hnext)))
    exact ⟨after, by rw [step, hafter, Option.map_some]⟩

-- Two nodes read the stream.
def twoMirrors : OutputStreamManager Unit :=
  { spec := { name := "out", packetType := fun _ => none, offset := some sameTime }
    nextTimestampBound := .unset
    closed := false
    mirrors := [.initialized "a" fun _ => none, .initialized "b" fun _ => none] }

-- An invocation with a packet, in a shard that was reset before the run.
def onePacket (timestamp : Timestamp) : OutputStreamShard Unit :=
  ((OutputStreamShard.reset .preStream false).addPacket twoMirrors.spec ⟨some (), timestamp⟩).1

-- The later one of two invocations returns first.
def laterFirst : List (OutputStreamHandler.Event (OutputStreamShard Unit)) :=
  [.prepareCalculatorContext .min, .prepareCalculatorContext .max, .postProcess .max (onePacket .max),
    .postProcess .min (onePacket .min), .propagateOutputPackets, .recycleCalculatorContext, .lock,
    .propagateOutputPackets]

-- Both invocations are handed on, and one node pops between them.
def poppedBetween : List (Event Unit) :=
  [.handOn (.packets .min (onePacket .min)), .pop 0 .min, .handOn (.packets .max (onePacket .max))]

theorem mirrors_follow_outOfOrder :
    ∃ final, Transition.run step twoMirrors.started poppedBetween = some final ∧
      final.mirrors.map (·.queue.map Packet.timestamp) = [[.max], [.min, .max]] ∧
      ∀ index mirror, final.mirrors[index]? = some mirror →
        Transition.log step (taken index) twoMirrors.started poppedBetween ++ mirror.queue =
            [⟨some (), .min⟩, ⟨some (), .max⟩] ∧
          mirror.nextTimestampBound = final.nextTimestampBound := by
  obtain ⟨final, hfinal, hqueues⟩ := Option.map_eq_some_iff.mp
    (show (Transition.run step twoMirrors.started poppedBetween).map
      (fun final => final.mirrors.map (·.queue.map Packet.timestamp)) = some [[.max], [.min, .max]]
      by decide +kernel)
  obtain ⟨handler, hcalls⟩ := Option.isSome_iff_exists.mp
    (show (Transition.run OutputStreamHandler.step OutputStreamHandler.prepareForRun laterFirst).isSome
      by decide +kernel)
  have hemits : ∀ inputTimestamp output, .postProcess inputTimestamp output ∈ laterFirst →
      inputTimestamp.IsRangeValue ∧ Emits twoMirrors.spec inputTimestamp output := by
    simp only [laterFirst, List.mem_cons, List.not_mem_nil, OutputStreamHandler.Event.postProcess.injEq,
      reduceCtorEq, false_or, or_false]
    rintro _ _ (⟨rfl, rfl⟩ | ⟨rfl, rfl⟩)
    · exact ⟨by decide, .preStream, .inr ⟨_, rfl, rfl⟩⟩
    · exact ⟨by decide, .preStream, .inr ⟨_, rfl, rfl⟩⟩
  have hfollow := mirrors_follow twoMirrors final handler laterFirst poppedBetween rfl
    (by simp [twoMirrors, InputStreamManager.initialized, InputStreamManager.prepareForRun]) hemits hcalls
    (by decide +kernel) hfinal
  exact ⟨final, hfinal, hqueues, hfollow.2.2.1⟩

end OutputStreamManager

end SpaceInvaders.Mediapipe

import Mathlib.Data.List.TakeWhile
import SpaceInvaders.Mediapipe.InputStreamManager

namespace SpaceInvaders.Mediapipe

namespace InputStreamManager

variable {π : Type}

theorem refuse_eq_none_iff (stream : InputStreamManager π) (packet : Packet π)
    (htimed : stream.enableTimestamps) :
    stream.refuse packet = none ↔
      stream.validate packet = none ∧ packet.timestamp.IsAllowedInStream ∧
        ¬(packet.timestamp = .postStream ∧ 0 < stream.numPacketsAdded) ∧
        stream.nextTimestampBound ≤ packet.timestamp := by
  unfold refuse
  cases hvalidate : stream.validate packet with
  | some status => simp
  | none =>
      simp only [htimed, if_true, true_and]
      split
      · next hallowed => simp [hallowed]
      split
      · next hpost => simp [hpost]
      split
      · next hbound => simp [not_le.mpr hbound]
      · next hallowed hpost hbound =>
        exact iff_of_true rfl ⟨not_not.mp hallowed, hpost, not_lt.mp hbound⟩

-- The loop adds what is accepted, and has a status if and only if that is not all.
theorem addEach_fst (stream : InputStreamManager π) (container : List (Packet π)) :
    (stream.addEach container).1 = (stream.accepted container).foldl addPacket stream := by
  induction container generalizing stream with
  | nil => rfl
  | cons packet rest ih =>
      unfold addEach accepted
      cases stream.refuse packet with
      | some status => rfl
      | none => exact ih (stream.addPacket packet)

theorem addEach_snd_eq_none_iff (stream : InputStreamManager π) (container : List (Packet π)) :
    (stream.addEach container).2 = none ↔ stream.accepted container = container := by
  induction container generalizing stream with
  | nil => simp [addEach, accepted]
  | cons packet rest ih =>
      unfold addEach accepted
      cases stream.refuse packet with
      | some status => simp
      | none => simpa using ih (stream.addPacket packet)

section Foldl

variable (packets : List (Packet π)) (stream : InputStreamManager π)

-- What adding packets does to a stream as a whole.
theorem foldl_addPacket :
    packets.foldl addPacket stream = { stream with
      queue := stream.queue ++ packets
      numPacketsAdded := stream.numPacketsAdded + packets.length
      nextTimestampBound :=
        (packets.getLast?.map fun packet => packet.timestamp.nextAllowedInStream).getD
          stream.nextTimestampBound } := by
  induction packets generalizing stream with
  | nil => simp
  | cons packet rest ih =>
      rw [List.foldl_cons, ih, List.getLast?_cons]
      cases h : rest.getLast? <;> simp [addPacket, Nat.add_assoc, Nat.add_comm 1]

@[simp] theorem foldl_addPacket_queue :
    (packets.foldl addPacket stream).queue = stream.queue ++ packets := by
  rw [foldl_addPacket]

@[simp] theorem foldl_addPacket_numPacketsAdded :
    (packets.foldl addPacket stream).numPacketsAdded = stream.numPacketsAdded + packets.length := by
  rw [foldl_addPacket]

@[simp] theorem foldl_addPacket_lastSelectTimestamp :
    (packets.foldl addPacket stream).lastSelectTimestamp = stream.lastSelectTimestamp := by
  rw [foldl_addPacket]

@[simp] theorem foldl_addPacket_enableTimestamps :
    (packets.foldl addPacket stream).enableTimestamps = stream.enableTimestamps := by
  rw [foldl_addPacket]

@[simp] theorem foldl_addPacket_closed :
    (packets.foldl addPacket stream).closed = stream.closed := by
  rw [foldl_addPacket]

@[simp] theorem foldl_addPacket_maxQueueSize :
    (packets.foldl addPacket stream).maxQueueSize = stream.maxQueueSize := by
  rw [foldl_addPacket]

end Foldl

-- A closed stream accepts nothing.
def gained (container : List (Packet π)) (stream : InputStreamManager π) : List (Packet π) :=
  if stream.closed then [] else stream.accepted container

theorem addPackets_stream (container : List (Packet π)) (stream : InputStreamManager π) :
    (addPackets container stream).stream = (stream.gained container).foldl addPacket stream := by
  unfold addPackets gained
  split
  · rfl
  · rw [← addEach_fst]
    cases h : stream.addEach container with
    | mk after status => cases status <;> rfl

-- A call without an error takes all packets, and notifies if they are the first ones.
theorem addPackets_of_status (container : List (Packet π)) (stream : InputStreamManager π)
    (hopen : stream.closed = false) (hstatus : (addPackets container stream).status = none) :
    stream.accepted container = container ∧
      (addPackets container stream).notify = (stream.queue.isEmpty && !container.isEmpty) := by
  rw [← addEach_snd_eq_none_iff]
  revert hstatus
  unfold addPackets
  rw [if_neg (by simp [hopen])]
  cases stream.addEach container with
  | mk after status => cases status <;> simp

theorem popLoop_eq (timestamp : Timestamp) (queue : List (Packet π)) (current : Packet π)
    (numPacketsDropped : Int) :
    popLoop timestamp queue current numPacketsDropped =
      (queue.dropWhile (·.timestamp ≤ timestamp),
        (queue.takeWhile (·.timestamp ≤ timestamp)).getLastD current,
        numPacketsDropped + (queue.takeWhile (·.timestamp ≤ timestamp)).length) := by
  induction queue generalizing current numPacketsDropped with
  | nil => simp [popLoop]
  | cons packet rest ih =>
      unfold popLoop
      by_cases h : packet.timestamp ≤ timestamp
      · rw [if_pos h, ih, List.dropWhile_cons_of_pos (by simpa using h),
          List.takeWhile_cons_of_pos (by simpa using h), List.getLastD_cons, List.length_cons]
        simp only [Prod.mk.injEq, true_and]
        omega
      · rw [if_neg h, List.dropWhile_cons_of_neg (by simpa using h),
          List.takeWhile_cons_of_neg (by simpa using h)]
        simp

-- What is taken from the queue when time advances to the timestamp.
def removed (timestamp : Timestamp) (stream : InputStreamManager π) : List (Packet π) :=
  stream.queue.takeWhile (·.timestamp ≤ timestamp)

-- Everything that a pop does to a stream that it does not fail on.
theorem popPacketAtTimestamp_eq_some (timestamp : Timestamp) (stream : InputStreamManager π)
    (popped : Popped π) (h : stream.popPacketAtTimestamp timestamp = some popped) :
    stream.enableTimestamps ∧ stream.lastSelectTimestamp ≤ timestamp ∧
      popped.stream = { stream with
        lastSelectTimestamp := timestamp
        nextTimestampBound :=
          if stream.nextTimestampBound ≤ timestamp then timestamp.nextAllowedInStream
          else stream.nextTimestampBound
        queue := stream.queue.dropWhile (·.timestamp ≤ timestamp) } ∧
      popped.packet =
        (let current := (stream.removed timestamp).getLastD .empty
        if current.timestamp ≠ timestamp then
          Packet.empty.at popped.stream.minTimestampOrBound.previousAllowedInStream
        else current) ∧
      popped.numPacketsDropped =
        (if ((stream.removed timestamp).getLastD .empty).timestamp ≠ timestamp then
          ((stream.removed timestamp).length : Int)
        else (stream.removed timestamp).length - 1) ∧
      popped.streamIsDone = popped.stream.isDone := by
  unfold popPacketAtTimestamp at h
  by_cases htimed : stream.enableTimestamps
  · by_cases hselect : stream.lastSelectTimestamp ≤ timestamp
    · rw [if_neg (not_not.mpr htimed), if_neg (not_not.mpr hselect), popLoop_eq] at h
      cases h
      refine ⟨htimed, hselect, rfl, rfl, ?_, rfl⟩
      by_cases hmatch : ((stream.removed timestamp).getLastD .empty).timestamp = timestamp
      · rw [if_neg (not_not.mpr hmatch)]
        refine (if_neg (not_not.mpr hmatch)).trans ?_
        simp only [removed]
        omega
      · rw [if_pos hmatch]
        refine (if_pos hmatch).trans ?_
        simp only [removed]
        omega
    · simp [htimed, hselect] at h
  · simp [htimed] at h

theorem popPacketAtTimestamp_isSome (timestamp : Timestamp) (stream : InputStreamManager π)
    (htimed : stream.enableTimestamps) (hselect : stream.lastSelectTimestamp ≤ timestamp) :
    ∃ popped, stream.popPacketAtTimestamp timestamp = some popped := by
  unfold popPacketAtTimestamp
  rw [if_neg (not_not.mpr htimed), if_neg (not_not.mpr hselect)]
  exact ⟨_, rfl⟩

end InputStreamManager

end SpaceInvaders.Mediapipe

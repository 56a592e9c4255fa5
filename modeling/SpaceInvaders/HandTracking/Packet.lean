import Mathlib.Data.UInt
import SpaceInvaders.Library.Tagged

namespace SpaceInvaders

-- mediapipe::NormalizedLandmark, whose fields are optional.
structure NormalizedLandmark (α : Type) where
  x : Option α
  y : Option α
  z : Option α
  deriving DecidableEq, Repr

-- mediapipe::NormalizedLandmarkList
abbrev NormalizedLandmarkList (α : Type) := List (NormalizedLandmark α)

-- mediapipe::Packet by what it holds: nothing, something that is no vector of
-- messages, or a vector of landmark lists.
inductive Packet (α : Type) where
  | empty
  | other
  | landmarkLists (lists : List (NormalizedLandmarkList α))
  deriving DecidableEq, Repr

-- What the program takes from the protobuf runtime.
structure Protobuf (α : Type) where
  byteSizeLong : NormalizedLandmarkList α → Nat
  serializeToArray : NormalizedLandmarkList α → Int → List UInt8
  parseFromArray : List UInt8 → Int → NormalizedLandmarkList α

-- Parsing what was serialised gives the message back.
def Protobuf.RoundTrips {α : Type} (protobuf : Protobuf α) : Prop :=
  ∀ message, protobuf.parseFromArray
    (protobuf.serializeToArray message (protobuf.byteSizeLong message)) (protobuf.byteSizeLong message) =
      message

namespace LibMP

variable {α : Type}

-- The uses of a pointer that are undefined behaviour.
inductive Fault where
  | nullMessage
  | indexOutOfRange
  deriving DecidableEq, Repr

-- The queue is that of the poller which init adds for the output stream, oldest first.
def getOutputQueueSize (queue : List (Packet α)) : Int := queue.length

-- The null pointer is none. The packet leaves the queue.
def getOutputPacket : List (Packet α) → Option (Packet α) × List (Packet α)
  | [] => (none, [])
  | packet :: rest => (some packet, rest)

def packetIsEmpty : Packet α → Bool
  | .empty => true
  | _ => false

-- Packet::GetVectorOfProtoMessageLitePtrs, none for a status that is not ok.
def getVectorOfProtoMessageLitePtrs : Packet α → Option (List (NormalizedLandmarkList α))
  | .landmarkLists lists => some lists
  | _ => none

-- The null pointer is an answer, the element of a vector that does not have it is not.
def getPacketProtoMsgAt (packet : Packet α) (idx : Nat) :
    Except Fault (Option (NormalizedLandmarkList α)) :=
  match getVectorOfProtoMessageLitePtrs packet with
  | none => .ok none
  | some messages =>
      match messages[idx]? with
      | some message => .ok (some message)
      | none => .error .indexOutOfRange

def getProtoMsgByteSize (protobuf : Protobuf α) : Option (NormalizedLandmarkList α) → Except Fault Nat
  | some message => .ok (protobuf.byteSizeLong message)
  | none => .error .nullMessage

def writeProtoMsgData (protobuf : Protobuf α) (size : Int) :
    Option (NormalizedLandmarkList α) → Except Fault (List UInt8)
  | some message => .ok (protobuf.serializeToArray message size)
  | none => .error .nullMessage

end LibMP

namespace HandTracker

open LibMP

variable {α : Type} [Zero α]

-- An accessor answers with the default of an unset field.
def coordinates (landmark : NormalizedLandmark α) : α × α × α :=
  (landmark.x.getD 0, landmark.y.getD 0, landmark.z.getD 0)

-- The landmarks, and the queue that the call leaves.
def parseLandmarksFromPacket (protobuf : Protobuf α) (queue : List (Packet α)) :
    Except Fault (List (α × α × α) × List (Packet α)) := do
  let (landmarkPacket, queue) :=
    if getOutputQueueSize queue > 0 then getOutputPacket queue else (none, queue)
  match landmarkPacket with
  | none => return ([], queue)
  | some packet =>
      if packetIsEmpty packet then
        return ([], queue)
      else
        let packetProtobufMessage ← getPacketProtoMsgAt packet 0
        let packetProtobufMessageSize ← getProtoMsgByteSize protobuf packetProtobufMessage
        let protobufData ← writeProtoMsgData protobuf packetProtobufMessageSize packetProtobufMessage
        let landmarkList := protobuf.parseFromArray protobufData packetProtobufMessageSize
        return (landmarkList.map coordinates, queue)

-- What a call is to answer: the first list of the packet at the head, if there is one.
def firstLandmarks (queue : List (Packet α)) : List (α × α × α) :=
  match queue.head? with
  | some (.landmarkLists (first :: _)) => first.map coordinates
  | _ => []

-- The call returns the landmarks and takes the packet from the queue.
def ParsesHead (protobuf : Protobuf α) (queue : List (Packet α)) : Prop :=
  parseLandmarksFromPacket protobuf queue = .ok (firstLandmarks queue, queue.tail)

-- What the call does with each shape of packet.
theorem parse_cons (protobuf : Protobuf α) (packet : Packet α) (rest : List (Packet α)) :
    parseLandmarksFromPacket protobuf (packet :: rest) =
      match packet with
      | .empty => .ok ([], rest)
      | .other => .error .nullMessage
      | .landmarkLists [] => .error .indexOutOfRange
      | .landmarkLists (first :: _) =>
          .ok ((protobuf.parseFromArray
            (protobuf.serializeToArray first (protobuf.byteSizeLong first))
            (protobuf.byteSizeLong first)).map coordinates, rest) := by
  have hsize : getOutputQueueSize (packet :: rest) > 0 := Int.natCast_pos.mpr (Nat.succ_pos _)
  rw [parseLandmarksFromPacket, if_pos hsize]
  cases packet with
  | empty => rfl
  | other => rfl
  | landmarkLists lists =>
      cases lists with
      | nil => rfl
      | cons first others => rfl

-- The call parses the head of the queue if and only if that is not a packet of
-- another type nor a vector without a list.
theorem parsesHead_iff (protobuf : Protobuf α) (hround : protobuf.RoundTrips)
    (queue : List (Packet α)) :
    ParsesHead protobuf queue ↔
      ∀ packet ∈ queue.head?, packet ≠ .other ∧ packet ≠ .landmarkLists [] := by
  cases queue with
  | nil =>
      have hparses : ParsesHead protobuf ([] : List (Packet α)) := rfl
      simp [hparses]
  | cons packet rest =>
      simp only [ParsesHead, parse_cons, List.head?_cons, Option.mem_some_iff, forall_eq']
      cases packet with
      | empty => simp [firstLandmarks]
      | other => simp
      | landmarkLists lists =>
          cases lists with
          | nil => simp
          | cons first others => simp [firstLandmarks, hround first]

-- A float as its bits, in the byte order of the protobuf wire.
def writeFixed32 (bits : UInt32) : List UInt8 :=
  [UInt8.ofNat bits.toNat, UInt8.ofNat (bits.toNat / 256), UInt8.ofNat (bits.toNat / 65536),
    UInt8.ofNat (bits.toNat / 16777216)]

def writeField (key : UInt8) : Option UInt32 → List UInt8
  | some bits => key :: writeFixed32 bits
  | none => []

-- A field that is not there is unset.
def readField (key : UInt8) : List UInt8 → Option UInt32 × List UInt8
  | found :: b₀ :: b₁ :: b₂ :: b₃ :: rest =>
      if found = key then
        (some (UInt32.ofNat
          (b₀.toNat + 256 * b₁.toNat + 65536 * b₂.toNat + 16777216 * b₃.toNat)), rest)
      else
        (none, found :: b₀ :: b₁ :: b₂ :: b₃ :: rest)
  | bytes => (none, bytes)

-- The keys of the fields x, y and z of NormalizedLandmark.
def writeLandmark (landmark : NormalizedLandmark UInt32) : List UInt8 :=
  writeField 0x0D landmark.x ++ writeField 0x15 landmark.y ++ writeField 0x1D landmark.z

def readLandmark (bytes : List UInt8) : NormalizedLandmark UInt32 :=
  let (x, bytes) := readField 0x0D bytes
  let (y, bytes) := readField 0x15 bytes
  let (z, _) := readField 0x1D bytes
  ⟨x, y, z⟩

-- The wire format of a landmark list, as far as its landmarks have no other fields.
def wire : Protobuf UInt32 where
  byteSizeLong message := (Tagged.encode 0x0A writeLandmark message).length
  serializeToArray message size := (Tagged.encode 0x0A writeLandmark message).take size.toNat
  parseFromArray bytes size := Tagged.decode 0x0A readLandmark size.toNat (bytes.take size.toNat)

theorem readField_writeField_some (key : UInt8) (bits : UInt32) (rest : List UInt8) :
    readField key (writeField key (some bits) ++ rest) = (some bits, rest) := by
  have hbits : bits.toNat < 2 ^ 32 := bits.toNat_lt
  have hsplit : bits.toNat % 2 ^ 8 + 256 * (bits.toNat / 256 % 2 ^ 8) +
      65536 * (bits.toNat / 65536 % 2 ^ 8) + 16777216 * (bits.toNat / 16777216 % 2 ^ 8) =
        bits.toNat := by omega
  simp only [writeField, writeFixed32, readField, List.cons_append, List.nil_append, if_true,
    UInt8.toNat_ofNat', hsplit, UInt32.ofNat_toNat]

theorem readField_other (key found : UInt8) (hkey : found ≠ key) (bytes : List UInt8) :
    readField key (found :: bytes) = (none, found :: bytes) := by
  match bytes with
  | b₀ :: b₁ :: b₂ :: b₃ :: rest => rw [readField, if_neg hkey]
  | [] => rfl
  | [_] => rfl
  | [_, _] => rfl
  | [_, _, _] => rfl

-- A field is told from a missing one by the key of what follows.
theorem readField_writeField (key : UInt8) (field : Option UInt32) (rest : List UInt8)
    (hrest : ∀ found ∈ rest.head?, found ≠ key) :
    readField key (writeField key field ++ rest) = (field, rest) := by
  cases field with
  | some bits => exact readField_writeField_some key bits rest
  | none =>
      cases rest with
      | nil => rfl
      | cons found bytes => exact readField_other key found (hrest found rfl) bytes

theorem head_writeField (key found : UInt8) (field : Option UInt32) (rest : List UInt8)
    (hfound : found ∈ (writeField key field ++ rest).head?) : found = key ∨ found ∈ rest.head? := by
  cases field with
  | some bits => exact Or.inl (Option.mem_some_iff.mp hfound).symm
  | none => exact Or.inr hfound

theorem readLandmark_writeLandmark (landmark : NormalizedLandmark UInt32) :
    readLandmark (writeLandmark landmark) = landmark := by
  obtain ⟨x, y, z⟩ := landmark
  have hz : readField 0x1D (writeField 0x1D z ++ []) = (z, []) :=
    readField_writeField 0x1D z [] (by simp)
  have hy : readField 0x15 (writeField 0x15 y ++ (writeField 0x1D z ++ [])) =
      (y, writeField 0x1D z ++ []) := by
    apply readField_writeField
    intro found hfound
    obtain rfl | hfound := head_writeField _ _ _ _ hfound
    · decide
    · simp at hfound
  have hx : readField 0x0D (writeField 0x0D x ++ (writeField 0x15 y ++ (writeField 0x1D z ++ []))) =
      (x, writeField 0x15 y ++ (writeField 0x1D z ++ [])) := by
    apply readField_writeField
    intro found hfound
    obtain rfl | hfound := head_writeField _ _ _ _ hfound
    · decide
    obtain rfl | hfound := head_writeField _ _ _ _ hfound
    · decide
    · simp at hfound
  have hwrite : writeLandmark ⟨x, y, z⟩ =
      writeField 0x0D x ++ (writeField 0x15 y ++ (writeField 0x1D z ++ [])) := by
    simp only [writeLandmark, List.append_assoc, List.append_nil]
  rw [hwrite, readLandmark, hx]
  dsimp only
  rw [hy]
  dsimp only
  rw [hz]

theorem length_writeLandmark (landmark : NormalizedLandmark UInt32) :
    (writeLandmark landmark).length ≤ 15 := by
  have hfield : ∀ key field, (writeField key field).length ≤ 5 := by
    intro key field
    cases field with
    | none => exact Nat.zero_le 5
    | some bits => exact Nat.le_refl 5
  have hx := hfield 0x0D landmark.x
  have hy := hfield 0x15 landmark.y
  have hz := hfield 0x1D landmark.z
  simp only [writeLandmark, List.length_append]
  omega

theorem wire_roundTrips : wire.RoundTrips := by
  intro message
  have htake : (Tagged.encode 0x0A writeLandmark message).take
      (Tagged.encode 0x0A writeLandmark message).length =
        Tagged.encode 0x0A writeLandmark message := List.take_length
  have hshort : ∀ landmark, (writeLandmark landmark).length < 256 := fun landmark =>
    Nat.lt_of_le_of_lt (length_writeLandmark landmark) (by decide)
  simp only [wire, Int.toNat_natCast, htake]
  exact Tagged.decode_encode 0x0A writeLandmark readLandmark readLandmark_writeLandmark hshort
    message _ (Tagged.length_le_encode 0x0A writeLandmark message)

-- One hand of two points, the second without a depth, and an empty packet behind it. The
-- bits are those of a half and of one.
theorem parsesHead_iff_hand :
    ParsesHead wire
      [.landmarkLists
        [[⟨some 0x3F000000, some 0x3F800000, some 0⟩, ⟨some 0, some 0x3F000000, none⟩]], .empty] :=
  (parsesHead_iff wire wire_roundTrips _).mpr (by simp)

-- A packet of another type, and a vector without a list.
theorem packet_without_list_faults :
    wire.RoundTrips ∧ ¬ ParsesHead wire [.other] ∧ ¬ ParsesHead wire [.landmarkLists []] := by
  refine ⟨wire_roundTrips, ?_, ?_⟩
  · simp only [ParsesHead, parse_cons]
    simp
  · simp only [ParsesHead, parse_cons]
    simp

end HandTracker

end SpaceInvaders

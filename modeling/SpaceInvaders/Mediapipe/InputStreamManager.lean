import SpaceInvaders.Mediapipe.Timestamp

namespace SpaceInvaders.Mediapipe

-- mediapipe::Packet. A packet without a holder is empty.
@[ext] structure Packet (π : Type) where
  holder : Option π
  timestamp : Timestamp
  deriving DecidableEq

-- Packet() and Packet::At
def Packet.empty {π : Type} : Packet π := { holder := none, timestamp := .unset }

def Packet.at {π : Type} (timestamp : Timestamp) (packet : Packet π) : Packet π :=
  { packet with timestamp := timestamp }

-- absl::StatusCode, less kOk.
inductive StatusCode where
  | cancelled | unknown | invalidArgument | deadlineExceeded | notFound | alreadyExists
  | permissionDenied | resourceExhausted | failedPrecondition | aborted | outOfRange
  | unimplemented | internal | unavailable | dataLoss | unauthenticated
  deriving DecidableEq, Repr

-- An absl::Status that is not ok.
structure Status where
  code : StatusCode
  message : String
  deriving DecidableEq, Repr

-- Packet::ValidateAsType. The payload of a Packet π has the type.
def Packet.validateAsType {π : Type} (typeName : String) (packet : Packet π) : Option Status :=
  if packet.holder.isNone then
    some { code := .internal, message :=
      "Expected a Packet of type: " ++ typeName ++ ", but received an empty Packet." }
  else none

-- tool::AddStatusPrefix
def addStatusPrefix (text : String) (status : Status) : Status :=
  { status with message := text ++ status.message }

-- What a timestamp writes to a message.
def Timestamp.text (timestamp : Timestamp) : String := timestamp.debugString.getD ""

structure InputStreamManager (π : Type) where
  name : String
  -- PacketType::Validate, none for the status that is ok.
  validate : Packet π → Option Status
  queue : List (Packet π)
  numPacketsAdded : Nat
  nextTimestampBound : Timestamp
  lastSelectTimestamp : Timestamp
  closed : Bool
  enableTimestamps : Bool
  maxQueueSize : Int
  lastReportedStreamFull : Bool

namespace InputStreamManager

variable {π : Type}

def prepareForRun (stream : InputStreamManager π) : InputStreamManager π :=
  { stream with
    queue := []
    lastReportedStreamFull := false
    numPacketsAdded := 0
    nextTimestampBound := .preStream
    lastSelectTimestamp := .unstarted
    closed := false }

def initialized (name : String) (validate : Packet π → Option Status) : InputStreamManager π :=
  prepareForRun
    { name := name, validate := validate, queue := [], numPacketsAdded := 0,
      nextTimestampBound := .unset, lastSelectTimestamp := .unset, closed := false,
      enableTimestamps := true, maxQueueSize := -1, lastReportedStreamFull := false }

def isEmpty (stream : InputStreamManager π) : Bool := stream.queue.isEmpty

-- An int that is compared with the size of a queue becomes a size_t.
def sizeT (value : Int) : Nat := (value % 18446744073709551616).toNat

def isFull (stream : InputStreamManager π) : Bool :=
  stream.maxQueueSize ≠ -1 ∧ sizeT stream.maxQueueSize ≤ stream.queue.length

def minTimestampOrBound (stream : InputStreamManager π) : Timestamp :=
  match stream.queue with
  | [] => stream.nextTimestampBound
  | packet :: _ => packet.timestamp

def isDone (stream : InputStreamManager π) : Bool :=
  stream.queue.isEmpty && stream.nextTimestampBound = .done

-- What the loop of AddOrMovePacketsInternal says against a packet.
def refuse (stream : InputStreamManager π) (packet : Packet π) : Option Status :=
  match stream.validate packet with
  | some result =>
      some (addStatusPrefix ("Packet type mismatch on a calculator receiving from stream \"" ++
        stream.name ++ "\": ") result)
  | none =>
      if ¬packet.timestamp.IsAllowedInStream then
        some { code := .invalidArgument, message := "In stream \"" ++ stream.name ++
          "\", timestamp not specified or set to illegal value: " ++ packet.timestamp.text }
      else if stream.enableTimestamps then
        if packet.timestamp = .postStream ∧ 0 < stream.numPacketsAdded then
          some { code := .invalidArgument, message := "In stream \"" ++ stream.name ++
            "\", a packet at Timestamp::PostStream() must be the only Packet in an InputStream." }
        else if packet.timestamp < stream.nextTimestampBound then
          some { code := .invalidArgument, message :=
            "Packet timestamp mismatch on a calculator receiving from stream \"" ++ stream.name ++
            "\". Current minimum expected timestamp is " ++ stream.nextTimestampBound.text ++
            " but received " ++ packet.timestamp.text ++
            ". Are you using a custom InputStreamHandler? Note that some InputStreamHandlers allow " ++
            "timestamps that are not strictly monotonically increasing. See for example the " ++
            "ImmediateInputStreamHandler class comment." }
        else none
      else none

def addPacket (stream : InputStreamManager π) (packet : Packet π) : InputStreamManager π :=
  { stream with
    nextTimestampBound := packet.timestamp.nextAllowedInStream
    numPacketsAdded := stream.numPacketsAdded + 1
    queue := stream.queue ++ [packet] }

-- A packet that is refused ends the loop. Those before it stay in the queue.
def addEach (stream : InputStreamManager π) : List (Packet π) → InputStreamManager π × Option Status
  | [] => (stream, none)
  | packet :: rest =>
      match stream.refuse packet with
      | some status => (stream, some status)
      | none => (stream.addPacket packet).addEach rest

-- The packets that enter the queue.
def accepted (stream : InputStreamManager π) : List (Packet π) → List (Packet π)
  | [] => []
  | packet :: rest =>
      match stream.refuse packet with
      | some _ => []
      | none => packet :: (stream.addPacket packet).accepted rest

-- What a call reports beside the stream that it leaves: its status, whether to
-- notify the consumer, and whether the queue became full.
structure Added (π : Type) where
  stream : InputStreamManager π
  status : Option Status
  notify : Bool
  becameFull : Bool

def addPackets (container : List (Packet π)) (stream : InputStreamManager π) : Added π :=
  if stream.closed then
    { stream := stream, status := none, notify := false, becameFull := false }
  else
    match stream.addEach container with
    | (after, some status) =>
        { stream := after, status := some status, notify := false, becameFull := false }
    | (after, none) =>
        { stream := after
          status := none
          notify := stream.queue.isEmpty && !container.isEmpty
          becameFull := !stream.isFull && after.isFull }

def setNextTimestampBound (bound : Timestamp) (stream : InputStreamManager π) : Added π :=
  if stream.closed then
    { stream := stream, status := none, notify := false, becameFull := false }
  else if stream.enableTimestamps ∧ bound < stream.nextTimestampBound then
    { stream := stream
      status := some { code := .unknown, message :=
        "SetNextTimestampBound must be called with a timestamp greater than or equal to the " ++
        "current bound. In stream \"" ++ stream.name ++ "\". Current minimum expected timestamp is " ++
        stream.nextTimestampBound.text ++ " but received " ++ bound.text }
      notify := false
      becameFull := false }
  else if stream.nextTimestampBound < bound then
    { stream := { stream with nextTimestampBound := bound }
      status := none
      notify := stream.queue.isEmpty
      becameFull := false }
  else
    { stream := stream, status := none, notify := false, becameFull := false }

def close (stream : InputStreamManager π) : InputStreamManager π :=
  if stream.closed then stream
  else { stream with
    nextTimestampBound := .done
    lastSelectTimestamp := .done
    closed := true }

-- The loop of PopPacketAtTimestamp: what it leaves in the queue, the last packet
-- it took, and the count, which begins at -1.
def popLoop (timestamp : Timestamp) :
    List (Packet π) → Packet π → Int → List (Packet π) × Packet π × Int
  | [], current, numPacketsDropped => ([], current, numPacketsDropped)
  | packet :: rest, current, numPacketsDropped =>
      if packet.timestamp ≤ timestamp then
        popLoop timestamp rest packet (numPacketsDropped + 1)
      else
        (packet :: rest, current, numPacketsDropped)

structure Popped (π : Type) where
  stream : InputStreamManager π
  packet : Packet π
  numPacketsDropped : Int
  streamIsDone : Bool
  becameNotFull : Bool

-- None where a CHECK fails.
def popPacketAtTimestamp (timestamp : Timestamp) (stream : InputStreamManager π) :
    Option (Popped π) :=
  if ¬stream.enableTimestamps then none
  else if ¬stream.lastSelectTimestamp ≤ timestamp then none
  else
    let bound :=
      if stream.nextTimestampBound ≤ timestamp then timestamp.nextAllowedInStream
      else stream.nextTimestampBound
    let (queue, current, numPacketsDropped) := popLoop timestamp stream.queue .empty (-1)
    let after := { stream with
      lastSelectTimestamp := timestamp
      nextTimestampBound := bound
      queue := queue }
    some
      { stream := after
        packet :=
          if current.timestamp ≠ timestamp then
            Packet.empty.at after.minTimestampOrBound.previousAllowedInStream
          else current
        numPacketsDropped :=
          if current.timestamp ≠ timestamp then numPacketsDropped + 1 else numPacketsDropped
        streamIsDone := after.isDone
        becameNotFull := stream.isFull && decide (queue.length < sizeT stream.maxQueueSize) }

def popQueueHead (stream : InputStreamManager π) : Option (Popped π) :=
  if stream.enableTimestamps then none
  else
    let after := { stream with queue := stream.queue.tail }
    some
      { stream := after
        packet := stream.queue.headD .empty
        numPacketsDropped := 0
        streamIsDone := after.isDone
        becameNotFull := stream.isFull && decide (after.queue.length < sizeT stream.maxQueueSize) }

-- The new size, and whether the queue became full or not full.
def setMaxQueueSize (maxQueueSize : Int) (stream : InputStreamManager π) :
    InputStreamManager π × Bool × Bool :=
  let after := { stream with maxQueueSize := maxQueueSize }
  (after, !stream.isFull && after.isFull, stream.isFull && !after.isFull)

def erasePacketsEarlierThan (timestamp : Timestamp) (stream : InputStreamManager π) :
    InputStreamManager π × Bool :=
  let after := { stream with queue := stream.queue.dropWhile (·.timestamp < timestamp) }
  (after, stream.isFull && decide (after.queue.length < sizeT stream.maxQueueSize))

end InputStreamManager

end SpaceInvaders.Mediapipe

import SpaceInvaders.Mediapipe.InputStreamManager
import SpaceInvaders.Mediapipe.OutputStreamHandler

namespace SpaceInvaders.Mediapipe

structure OutputStreamSpec (π : Type) where
  name : String
  -- PacketType::Validate, none for the status that is ok.
  packetType : Packet π → Option Status
  -- None where no offset is enabled.
  offset : Option TimestampDiff

-- What one invocation of the calculator sends to one output stream.
structure OutputStreamShard (π : Type) where
  outputQueue : List (Packet π)
  nextTimestampBound : Timestamp
  updatedNextTimestampBound : Timestamp
  closed : Bool
  deriving DecidableEq

namespace OutputStreamShard

variable {π : Type}

-- The shard that a call leaves, and what it tells the error callback.
def setNextTimestampBound (spec : OutputStreamSpec π) (bound : Timestamp) (shard : OutputStreamShard π) :
    OutputStreamShard π × Option Status :=
  if ¬bound.IsAllowedInStream ∧ bound ≠ .oneOverPostStream then
    (shard, some { code := .invalidArgument, message := "In stream \"" ++ spec.name ++
      "\", timestamp bound set to illegal value: " ++ bound.text })
  else
    ({ shard with nextTimestampBound := bound, updatedNextTimestampBound := bound }, none)

def addPacket (spec : OutputStreamSpec π) (packet : Packet π) (shard : OutputStreamShard π) :
    OutputStreamShard π × Option Status :=
  if shard.closed then
    (shard, some { code := .failedPrecondition, message :=
      "Packet sent to closed stream \"" ++ spec.name ++ "\"." })
  else if packet.holder.isNone then
    shard.setNextTimestampBound spec packet.timestamp.nextAllowedInStream
  else if ¬packet.timestamp.IsAllowedInStream then
    (shard, some { code := .invalidArgument, message := "In stream \"" ++ spec.name ++
      "\", timestamp not specified or set to illegal value: " ++ packet.timestamp.text })
  else
    match spec.packetType packet with
    | some result =>
        (shard, some (addStatusPrefix ("Packet type mismatch on calculator outputting to stream \"" ++
          spec.name ++ "\": ") result))
    | none =>
        ({ shard with
            outputQueue := shard.outputQueue ++ [packet]
            nextTimestampBound := packet.timestamp.nextAllowedInStream
            updatedNextTimestampBound := packet.timestamp.nextAllowedInStream }, none)

def lastAddedPacketTimestamp (shard : OutputStreamShard π) : Timestamp :=
  (shard.outputQueue.getLast?.map Packet.timestamp).getD .unset

def reset (nextTimestampBound : Timestamp) (close : Bool) : OutputStreamShard π :=
  { outputQueue := []
    nextTimestampBound := nextTimestampBound
    updatedNextTimestampBound := .unset
    closed := close }

end OutputStreamShard

-- The mirrors are the streams of the nodes that read this one.
structure OutputStreamManager (π : Type) where
  spec : OutputStreamSpec π
  nextTimestampBound : Timestamp
  closed : Bool
  mirrors : List (InputStreamManager π)

namespace OutputStreamManager

open InputStreamManager

variable {π : Type}

def prepareForRun (manager : OutputStreamManager π) : OutputStreamManager π :=
  { manager with nextTimestampBound := .preStream, closed := false }

-- None where a CHECK of the arithmetic fails.
def inputBound (offset : Option TimestampDiff) (inputTimestamp : Timestamp) : Option Timestamp :=
  match offset with
  | none => some .unset
  | some offset =>
      if inputTimestamp = .unstarted then some .unset
      else if inputTimestamp = .preStream then some .min
      else if inputTimestamp = .max then
        if 0 ≤ offset.value then some .postStream
        else (inputTimestamp.add offset).map Timestamp.nextAllowedInStream
      else if inputTimestamp = .postStream then some .oneOverPostStream
      else inputTimestamp.nextAllowedInStream.add offset

-- The bound, Unset for none, and what is told to the error callback.
def computeOutputTimestampBound (shard : OutputStreamShard π) (inputTimestamp : Timestamp)
    (manager : OutputStreamManager π) : Option (Timestamp × List Status) :=
  if inputTimestamp ≠ .unstarted ∧ ¬inputTimestamp.IsAllowedInStream then
    some (.unset, [{ code := .failedPrecondition, message :=
      "Invalid input timestamp to compute the output timestamp bound. Stream: \"" ++ manager.spec.name ++
      "\", Timestamp: " ++ inputTimestamp.text ++ "." }])
  else do
    let inputBound ← inputBound manager.spec.offset inputTimestamp
    let newBound := if shard.nextTimestampBound < inputBound then max .unset inputBound else .unset
    let newBound := max newBound shard.updatedNextTimestampBound
    if shard.outputQueue.isEmpty then
      return (newBound, [])
    else
      return (max newBound shard.lastAddedPacketTimestamp.nextAllowedInStream, [])

-- What a mirror becomes, and the errors of its calls. The last packet tells the bound that
-- follows it.
def send (bound : Timestamp) (packets : List (Packet π)) (mirror : InputStreamManager π) :
    InputStreamManager π × List Status :=
  let (stream, status) :=
    if packets.isEmpty then (mirror, none)
    else ((mirror.addPackets packets).stream, (mirror.addPackets packets).status)
  if bound ≠ .unset ∧ packets.getLast?.map (·.timestamp.nextAllowedInStream) ≠ some bound then
    ((stream.setNextTimestampBound bound).stream,
      status.toList ++ (stream.setNextTimestampBound bound).status.toList)
  else (stream, status.toList)

def propagateUpdatesToMirrors (bound : Timestamp) (packets : List (Packet π))
    (manager : OutputStreamManager π) : OutputStreamManager π × List Status :=
  ({ manager with
      nextTimestampBound := if bound ≠ .unset then bound else manager.nextTimestampBound
      mirrors := manager.mirrors.map fun mirror => (send bound packets mirror).1 },
    manager.mirrors.flatMap fun mirror => (send bound packets mirror).2)

def close (manager : OutputStreamManager π) : OutputStreamManager π × List Status :=
  if manager.closed then (manager, [])
  else
    ({ manager with
        closed := true
        nextTimestampBound := .done
        mirrors := manager.mirrors.map fun mirror => (mirror.setNextTimestampBound .done).stream },
      manager.mirrors.flatMap fun mirror => (mirror.setNextTimestampBound .done).status.toList)

-- The turns of OutputStreamHandler::PropagateOutputPackets and TryPropagateTimestampBound for
-- one stream, with all that is told to the error callbacks.
def propagateOutputPackets (inputTimestamp : Timestamp) (output : OutputStreamShard π)
    (manager : OutputStreamManager π) : Option (OutputStreamManager π × List Status) :=
  if manager.closed then some (manager, [])
  else do
    let (bound, errors) ← manager.computeOutputTimestampBound output inputTimestamp
    let (sent, mirrorErrors) := manager.propagateUpdatesToMirrors bound output.outputQueue
    if output.closed then
      return (sent.close.1, errors ++ mirrorErrors ++ sent.close.2)
    else
      return (sent, errors ++ mirrorErrors)

def tryPropagateTimestampBound (inputBound : Timestamp) (manager : OutputStreamManager π) :
    Option (OutputStreamManager π × List Status) :=
  if ¬inputBound.IsRangeValue then some (manager, [])
  else
    match manager.spec.offset with
    | none => some (manager, [])
    | some offset =>
        if manager.closed then some (manager, [])
        else do
          let bound ← inputBound.add offset
          if manager.nextTimestampBound < bound then
            return manager.propagateUpdatesToMirrors bound []
          else
            return (manager, [])

-- What the propagation thread hands on, and the pops of the nodes that read the mirrors.
inductive Event (π : Type) where
  | handOn (item : Propagated (OutputStreamShard π))
  | pop (mirror : Nat) (timestamp : Timestamp)

def handOn (item : Propagated (OutputStreamShard π)) (manager : OutputStreamManager π) :
    Option (OutputStreamManager π × List Status) :=
  match item with
  | .packets inputTimestamp output => manager.propagateOutputPackets inputTimestamp output
  | .bound inputBound => manager.tryPropagateTimestampBound inputBound

-- FillInputSet pops a timestamp that is below the bound.
def step (event : Event π) (manager : OutputStreamManager π) : Option (OutputStreamManager π) :=
  match event with
  | .handOn item => (manager.handOn item).map Prod.fst
  | .pop mirror timestamp => do
      let stream ← manager.mirrors[mirror]?
      if timestamp < stream.nextTimestampBound then
        let popped ← stream.popPacketAtTimestamp timestamp
        return { manager with mirrors := manager.mirrors.set mirror popped.stream }
      else none

def errors (event : Event π) (manager : OutputStreamManager π) : List Status :=
  match event with
  | .handOn item => ((manager.handOn item).map Prod.snd).getD []
  | .pop _ _ => []

def Event.item : Event π → Option (Propagated (OutputStreamShard π))
  | .handOn item => some item
  | .pop _ _ => none

-- The packets of an item.
def sent (event : Event π) : List (Packet π) :=
  match event with
  | .handOn (.packets _ output) => output.outputQueue
  | _ => []

end OutputStreamManager

end SpaceInvaders.Mediapipe

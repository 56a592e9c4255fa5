import SpaceInvaders.Mediapipe.InputStreamManager.Runs

namespace SpaceInvaders.Mediapipe

inductive NodeReadiness where
  | notReady
  | readyForProcess
  | readyForClose
  deriving DecidableEq, Repr

-- An input set: one packet, perhaps empty, for each stream.
structure InputSet (κ π : Type) where
  timestamp : Timestamp
  packets : List (κ × Packet π)
  deriving DecidableEq

-- Where the thread that schedules the node is: between two calls, in the loop of
-- GetReadiness, or in the loop of FillInputSet.
inductive Scheduling (κ π : Type) where
  | idle
  | reading (unread : List κ) (minBound minPacket : Timestamp)
  | filling (unfilled : List κ) (inputSet : InputSet κ π)

-- The handler of a node that is no source and whose streams are one sync set. A stream has a mutex of its
-- own, so a producer may call it between any two steps of the scheduling thread.
structure SyncSet (κ π : Type) where
  streamIds : List κ
  hsome : streamIds ≠ []
  hdistinct : streamIds.Nodup
  hcomplete : ∀ id, id ∈ streamIds
  streams : κ → InputStreamManager π
  processTimestamps : Bool
  lastProcessedTs : Timestamp
  shardIsDone : κ → Bool
  scheduling : Scheduling κ π

namespace SyncSet

variable {κ π : Type} [DecidableEq κ]

def prepareForRun (set : SyncSet κ π) : SyncSet κ π :=
  { set with
    streams := fun id => (set.streams id).prepareForRun
    lastProcessedTs := .unset
    shardIsDone := fun _ => false
    scheduling := .idle }

-- What one turn of the loop of GetReadiness makes of the two minima.
def readStream (stream : InputStreamManager π) (minBound minPacket : Timestamp) :
    Timestamp × Timestamp :=
  if stream.isEmpty then (min minBound stream.minTimestampOrBound, minPacket)
  else (minBound, min minPacket stream.minTimestampOrBound)

def settled (minBound minPacket : Timestamp) : Timestamp :=
  if minPacket = .postStream ∧ minPacket < minBound then minPacket
  else minBound.previousAllowedInStream

def inputTimestamp (minBound minPacket : Timestamp) : Timestamp :=
  min minPacket (settled minBound minPacket)

-- The readiness, the timestamp that goes with it and the last processed timestamp.
def readiness (processTimestamps : Bool) (lastProcessedTs minBound minPacket : Timestamp) :
    NodeReadiness × Timestamp × Timestamp :=
  if .oneOverPostStream ≤ min minPacket minBound then
    (.readyForClose, .done, Timestamp.done.previousAllowedInStream)
  else if processTimestamps = false then
    if minPacket < minBound then
      (.readyForProcess, min minPacket minBound, min minPacket minBound)
    else (.notReady, min minPacket minBound, lastProcessedTs)
  else if max lastProcessedTs .unstarted < inputTimestamp minBound minPacket then
    (.readyForProcess, inputTimestamp minBound minPacket, inputTimestamp minBound minPacket)
  else (.notReady, min minPacket minBound, lastProcessedTs)

inductive Event (κ π : Type) where
  | addPackets (id : κ) (container : List (Packet π))
  | setNextTimestampBound (id : κ) (bound : Timestamp)
  | getReadiness
  | read
  | decide
  | fill
  | process

-- The end of GetReadiness. A node that is ready goes on to FillInputSet, which CHECKs
-- the timestamp.
def decided (minBound minPacket : Timestamp) (set : SyncSet κ π) : Option (SyncSet κ π) :=
  match readiness set.processTimestamps set.lastProcessedTs minBound minPacket with
  | (.readyForProcess, timestamp, lastProcessedTs) =>
      if timestamp.IsAllowedInStream then
        some { set with
          lastProcessedTs := lastProcessedTs
          scheduling := .filling set.streamIds { timestamp := timestamp, packets := [] } }
      else none
  | (_, _, lastProcessedTs) =>
      some { set with lastProcessedTs := lastProcessedTs, scheduling := .idle }

-- One turn of the loop of FillInputSet, none where a CHECK fails.
def fillStream (id : κ) (unfilled : List κ) (inputSet : InputSet κ π) (set : SyncSet κ π) :
    Option (SyncSet κ π) :=
  match (set.streams id).popPacketAtTimestamp inputSet.timestamp with
  | some popped =>
      if popped.numPacketsDropped ≠ 0 then none
      else if set.shardIsDone id ∧ popped.packet.holder ≠ none then none
      else
        some { set with
          streams := Function.update set.streams id popped.stream
          shardIsDone := Function.update set.shardIsDone id popped.streamIsDone
          scheduling := .filling unfilled
            { inputSet with packets := inputSet.packets ++ [(id, popped.packet)] } }
  | none => none

-- None where the step is not one that can be taken, or where a CHECK fails.
def step : Event κ π → SyncSet κ π → Option (SyncSet κ π)
  | .addPackets id container, set =>
      some { set with
        streams := Function.update set.streams id ((set.streams id).addPackets container).stream }
  | .setNextTimestampBound id bound, set =>
      some { set with
        streams := Function.update set.streams id ((set.streams id).setNextTimestampBound bound).stream }
  | .getReadiness, set =>
      match set.scheduling with
      | .idle => some { set with scheduling := .reading set.streamIds .done .done }
      | _ => none
  | .read, set =>
      match set.scheduling with
      | .reading (id :: unread) minBound minPacket =>
          some { set with
            scheduling := .reading unread (readStream (set.streams id) minBound minPacket).1
              (readStream (set.streams id) minBound minPacket).2 }
      | _ => none
  | .decide, set =>
      match set.scheduling with
      | .reading [] minBound minPacket => decided minBound minPacket set
      | _ => none
  | .fill, set =>
      match set.scheduling with
      | .filling (id :: unfilled) inputSet => fillStream id unfilled inputSet set
      | _ => none
  | .process, set =>
      match set.scheduling with
      | .filling [] _ => some { set with scheduling := .idle }
      | _ => none

-- The input sets that the calculator gets.
def delivered : Event κ π → SyncSet κ π → List (InputSet κ π)
  | .process, set =>
      match set.scheduling with
      | .filling [] inputSet => [inputSet]
      | _ => []
  | _, _ => []

-- The packets of one stream in an input set.
def row (id : κ) (inputSet : InputSet κ π) : List (Packet π) :=
  (inputSet.packets.filter fun entry => entry.1 = id && entry.2.holder.isSome).map Prod.snd

-- The packets that enter one stream.
def gain (id : κ) : Event κ π → SyncSet κ π → List (Packet π)
  | .addPackets other container, set => if other = id then (set.streams id).gained container else []
  | _, _ => []

end SyncSet

end SpaceInvaders.Mediapipe

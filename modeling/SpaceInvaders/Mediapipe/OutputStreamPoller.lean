import SpaceInvaders.Mediapipe.InputStreamManager.Runs

namespace SpaceInvaders.Mediapipe

-- Where the caller of Next is. It holds mutex_ in locked and peeked, and
-- reads the stream once while it does.
inductive Consumer where
  | idle
  | locked
  | peeked (minTimestamp : Timestamp) (emptyQueue : Bool)
  | asleep
  | woken
  | unlocked (minTimestamp : Timestamp) (emptyQueue : Bool) (timestampBoundChanged : Bool)
  deriving DecidableEq

-- A notification is pending from the return of the call on the stream, which has
-- a mutex of its own, until Notify or NotifyError has mutex_.
structure OutputStreamPoller (π : Type) where
  stream : InputStreamManager π
  processTimestampBounds : Bool
  graphHasError : Bool
  outputTimestamp : Timestamp
  consumer : Consumer
  pendingNotifications : Nat
  pendingErrors : Nat

-- What a call of Next comes to: false, a packet, or true without a packet.
inductive Answer (π : Type) where
  | finished
  | packet (packet : Packet π)
  | untouched
  deriving DecidableEq

namespace OutputStreamPoller

variable {π : Type}

inductive Event (π : Type) where
  | addPackets (container : List (Packet π))
  | setNextTimestampBound (bound : Timestamp)
  | recordError
  | notify
  | notifyError
  | next
  | peek
  | decide
  | wake
  | finish

def initialized (name : String) (validate : Packet π → Option Status) (processTimestampBounds : Bool) :
    OutputStreamPoller π :=
  { stream := .initialized name validate
    processTimestampBounds := processTimestampBounds
    graphHasError := false
    outputTimestamp := .min
    consumer := .idle
    pendingNotifications := 0
    pendingErrors := 0 }

-- The output timestamp of an earlier run is kept.
def prepareForRun (poller : OutputStreamPoller π) : OutputStreamPoller π :=
  { poller with stream := poller.stream.prepareForRun, graphHasError := false }

def mutexIsFree (poller : OutputStreamPoller π) : Bool :=
  match poller.consumer with
  | .locked => false
  | .peeked _ _ => false
  | _ => true

-- InputStreamHandler passes an error on to the graph, which tells every poller of it.
def produce (added : InputStreamManager.Added π) (poller : OutputStreamPoller π) : OutputStreamPoller π :=
  { poller with
    stream := added.stream
    pendingErrors := if added.status = none then poller.pendingErrors else poller.pendingErrors + 1
    pendingNotifications :=
      if added.notify then poller.pendingNotifications + 1 else poller.pendingNotifications }

-- Signal wakes the caller if it waits, and is lost if it does not.
def signal (poller : OutputStreamPoller π) : OutputStreamPoller π :=
  { poller with consumer := if poller.consumer = .asleep then .woken else poller.consumer }

def boundChanged (minTimestamp : Timestamp) (emptyQueue : Bool) (poller : OutputStreamPoller π) : Bool :=
  emptyQueue && (poller.processTimestampBounds &&
    decide (poller.outputTimestamp < minTimestamp.previousAllowedInStream))

-- From the test of the loop to the end of the critical section.
def decided (minTimestamp : Timestamp) (emptyQueue : Bool) (poller : OutputStreamPoller π) :
    OutputStreamPoller π :=
  let timestampBoundChanged := poller.boundChanged minTimestamp emptyQueue
  if poller.graphHasError || !emptyQueue || timestampBoundChanged || minTimestamp = .done then
    if poller.graphHasError && emptyQueue then
      { poller with consumer := .idle }
    else
      { poller with
        outputTimestamp := if emptyQueue then minTimestamp.previousAllowedInStream else minTimestamp
        consumer :=
          if minTimestamp = .done then .idle
          else .unlocked minTimestamp emptyQueue timestampBoundChanged }
  else
    { poller with consumer := .asleep }

-- None where the step is not one that can be taken, or where a CHECK of Next fails.
def step : Event π → OutputStreamPoller π → Option (OutputStreamPoller π)
  | .addPackets container, poller => some (poller.produce (poller.stream.addPackets container))
  | .setNextTimestampBound bound, poller =>
      some (poller.produce (poller.stream.setNextTimestampBound bound))
  | .recordError, poller => some { poller with pendingErrors := poller.pendingErrors + 1 }
  | .notify, poller =>
      if 0 < poller.pendingNotifications ∧ poller.mutexIsFree then
        some ({ poller with pendingNotifications := poller.pendingNotifications - 1 }).signal
      else none
  | .notifyError, poller =>
      if 0 < poller.pendingErrors ∧ poller.mutexIsFree then
        some ({ poller with pendingErrors := poller.pendingErrors - 1, graphHasError := true }).signal
      else none
  | .next, poller =>
      if poller.consumer = .idle then some { poller with consumer := .locked } else none
  | .peek, poller =>
      if poller.consumer = .locked then
        some { poller with
          consumer := .peeked poller.stream.minTimestampOrBound poller.stream.isEmpty }
      else none
  | .decide, poller =>
      match poller.consumer with
      | .peeked minTimestamp emptyQueue => some (poller.decided minTimestamp emptyQueue)
      | _ => none
  -- A waiting caller may also wake without a signal.
  | .wake, poller =>
      if poller.consumer = .woken ∨ poller.consumer = .asleep then
        some { poller with consumer := .locked }
      else none
  | .finish, poller =>
      match poller.consumer with
      | .unlocked _ true _ => some { poller with consumer := .idle }
      | .unlocked minTimestamp false _ =>
          match poller.stream.popPacketAtTimestamp minTimestamp with
          | some popped =>
              if popped.numPacketsDropped = 0 then
                some { poller with stream := popped.stream, consumer := .idle }
              else none
          | none => none
      | _ => none

-- The answer that a step gives to the caller, if it ends the call.
def answer : Event π → OutputStreamPoller π → List (Answer π)
  | .decide, poller =>
      match poller.consumer with
      | .peeked minTimestamp emptyQueue =>
          if (poller.decided minTimestamp emptyQueue).consumer = .idle then [.finished] else []
      | _ => []
  | .finish, poller =>
      match poller.consumer with
      | .unlocked minTimestamp true timestampBoundChanged =>
          if timestampBoundChanged then [.packet (Packet.empty.at minTimestamp.previousAllowedInStream)]
          else [.untouched]
      | .unlocked minTimestamp false _ =>
          match poller.stream.popPacketAtTimestamp minTimestamp with
          | some popped => [.packet popped.packet]
          | none => []
      | _ => []
  | _, _ => []

-- The packets that came from the queue among the answers.
def returned : Event π → OutputStreamPoller π → List (Packet π)
  | .finish, poller =>
      match poller.consumer with
      | .unlocked minTimestamp false _ =>
          match poller.stream.popPacketAtTimestamp minTimestamp with
          | some popped => [popped.packet]
          | none => []
      | _ => []
  | _, _ => []

-- The packets that a step puts into the queue.
def gain : Event π → OutputStreamPoller π → List (Packet π)
  | .addPackets container, poller => poller.stream.gained container
  | _, _ => []

-- The calls on the stream that a step makes.
def calls : Event π → OutputStreamPoller π → List (InputStreamManager.Call π)
  | .addPackets container, _ => [.addPackets container]
  | .setNextTimestampBound bound, _ => [.setNextTimestampBound bound]
  | .finish, poller =>
      match poller.consumer with
      | .unlocked minTimestamp false _ => [.popPacketAtTimestamp minTimestamp]
      | _ => []
  | _, _ => []

-- There is something for the caller to return with.
def HasReason (poller : OutputStreamPoller π) : Prop :=
  poller.graphHasError ∨ poller.stream.queue ≠ [] ∨ poller.stream.nextTimestampBound = .done ∨
    (poller.processTimestampBounds ∧
      poller.outputTimestamp < poller.stream.nextTimestampBound.previousAllowedInStream)

def HasPending (poller : OutputStreamPoller π) : Prop :=
  0 < poller.pendingNotifications ∨ 0 < poller.pendingErrors

end OutputStreamPoller

end SpaceInvaders.Mediapipe

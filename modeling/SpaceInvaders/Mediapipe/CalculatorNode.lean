import SpaceInvaders.Mediapipe.OutputStreamHandler.Transitions
import SpaceInvaders.Mediapipe.SyncSet.Progress

namespace SpaceInvaders.Mediapipe

inductive SchedulingState where
  | idle
  | scheduling
  | schedulingPending
  deriving DecidableEq, Repr

-- Where the thread is that runs SchedulingLoop: before it takes the first allowance, in
-- ScheduleInvocations with what is left of it, before UpdateTaskTimestampBound, or before
-- the lock at the end of the loop.
inductive SchedulingThread where
  | absent
  | entering
  | scheduling (allowance : Nat)
  | updating (inputBound : Timestamp)
  | leaving
  deriving DecidableEq

-- An open node that is no source and runs its calculator in parallel, with the threads that
-- call it.
structure CalculatorNode (κ π ω : Type) where
  inputs : SyncSet κ π
  outputs : OutputStreamHandler ω
  schedulingState : SchedulingState
  schedulingThread : SchedulingThread
  currentInFlight : Nat
  maxInFlight : Nat
  -- The invocations that the scheduler has been given and whose calculators have not returned.
  scheduled : List (InputSet κ π)
  -- The threads between PostProcess and EndScheduling.
  ending : Nat
  -- The threads between a change of a stream and the notification.
  notifying : Nat
  -- The flag that the scheduler shares. Any node of the graph may set it.
  hasError : Bool

namespace CalculatorNode

variable {κ π ω : Type}

-- NodeOpened is about to check whether packets came before.
def opened (inputs : SyncSet κ π) (maxInFlight : Nat) : CalculatorNode κ π ω :=
  { inputs := inputs.prepareForRun
    outputs := .prepareForRun
    schedulingState := .idle
    schedulingThread := .absent
    currentInFlight := 0
    maxInFlight := maxInFlight
    scheduled := []
    ending := 0
    notifying := 1
    hasError := false }

inductive Event (κ π : Type) where
  | addPackets (id : κ) (container : List (Packet π))
  | setNextTimestampBound (id : κ) (bound : Timestamp)
  | notify
  | schedule
  | postProcess (inputTimestamp : Timestamp)
  | endScheduling
  | propagate
  | setHasError

def checkIfBecameReady (node : CalculatorNode κ π ω) : CalculatorNode κ π ω :=
  if node.schedulingState = .idle ∧ node.currentInFlight < node.maxInFlight then
    { node with schedulingState := .scheduling, schedulingThread := .entering }
  else if node.schedulingState = .scheduling then { node with schedulingState := .schedulingPending }
  else node

-- None where the CHECK of the counter fails.
def endScheduling (node : CalculatorNode κ π ω) : Option (CalculatorNode κ π ω) :=
  if node.currentInFlight = 0 then none
  else
    match node.schedulingState with
    | .scheduling =>
        some { node with
          currentInFlight := node.currentInFlight - 1
          schedulingState := .schedulingPending }
    | .schedulingPending => some { node with currentInFlight := node.currentInFlight - 1 }
    | .idle =>
        some { node with
          currentInFlight := node.currentInFlight - 1
          schedulingState := .scheduling
          schedulingThread := .entering }

-- What ScheduleInvocations does next with the input streams.
def readinessCall (inputs : SyncSet κ π) (allowance : Nat) : List (SyncSet.Event κ π) :=
  match inputs.scheduling with
  | .idle => if allowance = 0 then [] else [.getReadiness]
  | .reading (_ :: _) _ _ => [.read]
  | .reading [] _ _ => [.decide]
  | .filling (_ :: _) _ => [.fill]
  | .filling [] _ => [.process]

def inputCalls (node : CalculatorNode κ π ω) : Event κ π → List (SyncSet.Event κ π)
  | .addPackets id container => [.addPackets id container]
  | .setNextTimestampBound id bound => [.setNextTimestampBound id bound]
  | .schedule =>
      match node.schedulingThread with
      | .scheduling allowance => readinessCall node.inputs allowance
      | _ => []
  | _ => []

-- The readiness that GetReadiness comes to, with its timestamp.
def decision (inputs : SyncSet κ π) : Option (NodeReadiness × Timestamp) :=
  match inputs.scheduling with
  | .reading [] minBound minPacket =>
      some ((SyncSet.readiness inputs.processTimestamps inputs.lastProcessedTs minBound minPacket).1,
        (SyncSet.readiness inputs.processTimestamps inputs.lastProcessedTs minBound minPacket).2.1)
  | _ => none

variable [DecidableEq κ]

-- A calculator makes its outputs from its input set.
def outputCalls (process : Timestamp × (κ → List (Packet π)) → ω) (node : CalculatorNode κ π ω) :
    Event κ π → List (OutputStreamHandler.Event ω)
  | .schedule =>
      match node.schedulingThread with
      | .scheduling _ =>
          match decision node.inputs with
          | some (.readyForProcess, timestamp) => [.prepareCalculatorContext timestamp]
          | _ => []
      | .updating inputBound => [.updateTaskTimestampBound inputBound]
      | _ => []
  | .postProcess inputTimestamp =>
      match node.scheduled.find? (·.timestamp = inputTimestamp) with
      | some inputSet => [.postProcess inputTimestamp (process (SyncSet.view inputSet))]
      | none => []
  | .propagate => node.outputs.turn.toList
  | _ => []

-- A turn of ScheduleInvocations. The invocation of Close is left out: a node that is ready
-- for it is left as it is. After an error AddNode drops the invocation, whose context stays
-- prepared. TryToBeginScheduling may not fail.
def scheduleInvocations (allowance : Nat) (node : CalculatorNode κ π ω) : Option (CalculatorNode κ π ω) :=
  match node.inputs.scheduling with
  | .idle => if allowance = 0 then some { node with schedulingThread := .leaving } else some node
  | .reading [] _ _ =>
      match decision node.inputs with
      | some (.notReady, inputBound) =>
          some { node with
            schedulingThread := if inputBound = .unset then .leaving else .updating inputBound }
      | some (.readyForClose, _) => some { node with schedulingThread := .leaving }
      | _ => some node
  | .filling [] inputSet =>
      if node.hasError then some { node with schedulingThread := .scheduling (allowance - 1) }
      else if node.currentInFlight < node.maxInFlight then
        some { node with
          currentInFlight := node.currentInFlight + 1
          scheduled := node.scheduled ++ [inputSet]
          schedulingThread := .scheduling (allowance - 1) }
      else none
  | _ => some node

def schedulingLoop (node : CalculatorNode κ π ω) : Option (CalculatorNode κ π ω) :=
  match node.schedulingThread with
  | .absent => none
  | .entering =>
      some { node with schedulingThread := .scheduling (node.maxInFlight - node.currentInFlight) }
  | .scheduling allowance => scheduleInvocations allowance node
  | .updating _ => some { node with schedulingThread := .leaving }
  | .leaving =>
      if node.schedulingState = .schedulingPending ∧ node.currentInFlight < node.maxInFlight then
        some { node with
          schedulingState := .scheduling
          schedulingThread := .scheduling (node.maxInFlight - node.currentInFlight) }
      else some { node with schedulingState := .idle, schedulingThread := .absent }

-- What a change of a stream leaves behind it.
def changed (added : InputStreamManager.Added π) (node : CalculatorNode κ π ω) : CalculatorNode κ π ω :=
  { node with
    notifying := if added.notify then node.notifying + 1 else node.notifying
    hasError := node.hasError || added.status.isSome }

-- The node's own fields, none where the step is not one that can be taken.
def advance : Event κ π → CalculatorNode κ π ω → Option (CalculatorNode κ π ω)
  | .addPackets id container, node => some (changed ((node.inputs.streams id).addPackets container) node)
  | .setNextTimestampBound id bound, node =>
      some (changed ((node.inputs.streams id).setNextTimestampBound bound) node)
  | .notify, node =>
      if node.notifying = 0 then none
      else some (checkIfBecameReady { node with notifying := node.notifying - 1 })
  | .schedule, node => schedulingLoop node
  | .postProcess inputTimestamp, node =>
      if node.scheduled.any (·.timestamp = inputTimestamp) then
        some { node with
          scheduled := node.scheduled.filter (·.timestamp ≠ inputTimestamp)
          ending := node.ending + 1 }
      else none
  | .endScheduling, node =>
      if node.ending = 0 then none else endScheduling { node with ending := node.ending - 1 }
  | .propagate, node => if node.outputs.thread = .absent then none else some node
  | .setHasError, node => some { node with hasError := true }

def step (process : Timestamp × (κ → List (Packet π)) → ω) (event : Event κ π)
    (node : CalculatorNode κ π ω) : Option (CalculatorNode κ π ω) :=
  match Transition.run SyncSet.step node.inputs (node.inputCalls event),
    Transition.run OutputStreamHandler.step node.outputs (node.outputCalls process event),
    advance event node with
  | some inputs, some outputs, some after => some { after with inputs := inputs, outputs := outputs }
  | _, _, _ => none

-- The input sets that the scheduler is given for the calculators.
def delivered (event : Event κ π) (node : CalculatorNode κ π ω) : List (InputSet κ π) :=
  (node.inputCalls event).flatMap fun call => SyncSet.delivered call node.inputs

-- The packets that enter one stream.
def gain (id : κ) (event : Event κ π) (node : CalculatorNode κ π ω) : List (Packet π) :=
  (node.inputCalls event).flatMap fun call => SyncSet.gain id call node.inputs

-- The outputs that are handed on, each with its time.
def handedOn (process : Timestamp × (κ → List (Packet π)) → ω) (event : Event κ π)
    (node : CalculatorNode κ π ω) : List (Timestamp × ω) :=
  (node.outputCalls process event).flatMap fun call =>
    (OutputStreamHandler.propagated call node.outputs).filterMap Propagated.timed

end CalculatorNode

end SpaceInvaders.Mediapipe

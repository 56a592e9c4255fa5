import Mathlib.Data.List.Sort
import SpaceInvaders.Mediapipe.Timestamp

namespace SpaceInvaders.Mediapipe

inductive PropagationState where
  | idle
  | propagatingPackets
  | propagatingBound
  | propagationPending
  deriving DecidableEq, Repr

-- A CalculatorContext that is active. It has outputs once the calculator has returned.
structure CalculatorContext (ω : Type) where
  inputTimestamp : Timestamp
  outputs : Option ω
  deriving DecidableEq

-- Where the propagation thread is when it does not hold timestamp_mutex_: before or after
-- PropagateOutputPackets, waiting for the mutex after RecycleCalculatorContext, or before
-- or after TryPropagateTimestampBound.
inductive PropagationThread where
  | absent
  | propagating (contextTimestamp : Timestamp)
  | recycling (contextTimestamp : Timestamp)
  | locking (contextTimestamp : Timestamp)
  | bounding (boundToPropagate : Timestamp)
  | relocking (boundToPropagate : Timestamp)
  deriving DecidableEq

-- InOrderOutputStreamHandler of a calculator that runs in parallel, with the active contexts
-- of its CalculatorContextManager. A std::map is a list with ascending keys, a std::set an
-- ascending list.
structure OutputStreamHandler (ω : Type) where
  activeContexts : List (CalculatorContext ω)
  completedInputTimestamps : List Timestamp
  taskTimestampBound : Timestamp
  propagationState : PropagationState
  thread : PropagationThread
  -- Where in the order of time the scheduling thread has come with its calls.
  reached : Int
  deriving DecidableEq

-- The order of time: the bound of a timestamp stands before the invocation at it.
def boundPlace (bound : Timestamp) : Int := 2 * bound.value

def invocationPlace (inputTimestamp : Timestamp) : Int := 2 * inputTimestamp.value + 1

-- What the propagation thread hands on, out of the mutex.
inductive Propagated (ω : Type) where
  | packets (inputTimestamp : Timestamp) (outputs : ω)
  | bound (inputBound : Timestamp)
  deriving DecidableEq

def Propagated.place {ω : Type} : Propagated ω → Int
  | .packets inputTimestamp _ => invocationPlace inputTimestamp
  | .bound inputBound => boundPlace inputBound

-- The outputs among it, each with its time.
def Propagated.timed {ω : Type} : Propagated ω → Option (Timestamp × ω)
  | .packets inputTimestamp outputs => some (inputTimestamp, outputs)
  | .bound _ => none

namespace OutputStreamHandler

variable {ω : Type}

def prepareForRun : OutputStreamHandler ω :=
  { activeContexts := []
    completedInputTimestamps := []
    taskTimestampBound := .unset
    propagationState := .idle
    thread := .absent
    reached := boundPlace .unset }

-- From here the thread goes around the loop of PropagationLoop and gives the mutex free.
def propagatingPackets (contextTimestamp : Timestamp) (handler : OutputStreamHandler ω) :
    OutputStreamHandler ω :=
  { handler with propagationState := .propagatingPackets, thread := .propagating contextTimestamp }

def propagatingBound (handler : OutputStreamHandler ω) : OutputStreamHandler ω :=
  { handler with propagationState := .propagatingBound, thread := .bounding handler.taskTimestampBound }

def idle (handler : OutputStreamHandler ω) : OutputStreamHandler ω :=
  { handler with propagationState := .idle, thread := .absent }

-- PropagationLoop up to where it first gives the mutex free, none where a CHECK fails.
def propagationLoop (handler : OutputStreamHandler ω) : Option (OutputStreamHandler ω) :=
  if handler.propagationState ≠ .idle then none
  else
    match handler.activeContexts, handler.completedInputTimestamps with
    | [], _ => some handler.propagatingBound
    | _ :: _, [] => some handler
    | context :: _, completedTimestamp :: _ =>
        if context.inputTimestamp = completedTimestamp then
          some (handler.propagatingPackets context.inputTimestamp)
        else if context.inputTimestamp < completedTimestamp then some handler
        else none

-- What a thread does that has changed the handler under the mutex.
def notePropagation (handler : OutputStreamHandler ω) : Option (OutputStreamHandler ω) :=
  match handler.propagationState with
  | .propagatingBound => some { handler with propagationState := .propagationPending }
  | .idle => handler.propagationLoop
  | _ => some handler

def updateTaskTimestampBound (timestamp : Timestamp) (handler : OutputStreamHandler ω) :
    Option (OutputStreamHandler ω) :=
  if handler.taskTimestampBound = timestamp then some handler
  else if ¬handler.taskTimestampBound < timestamp then none
  else notePropagation { handler with taskTimestampBound := timestamp }

def insertTimestamp (timestamp : Timestamp) (timestamps : List Timestamp) : List Timestamp :=
  if timestamp ∈ timestamps then timestamps else timestamps.orderedInsert (· ≤ ·) timestamp

def postProcess (inputTimestamp : Timestamp) (handler : OutputStreamHandler ω) :
    Option (OutputStreamHandler ω) :=
  notePropagation { handler with
    completedInputTimestamps := insertTimestamp inputTimestamp handler.completedInputTimestamps }

-- The rest of PropagatePackets. What erases from an empty set or asks for the front of an empty
-- map is none.
def afterPackets (contextTimestamp : Timestamp) (handler : OutputStreamHandler ω) :
    Option (OutputStreamHandler ω) :=
  match handler.completedInputTimestamps, handler.activeContexts with
  | [], _ => none
  | [_], [] =>
      if handler.taskTimestampBound ≤ contextTimestamp.nextAllowedInStream then
        some (idle { handler with completedInputTimestamps := [] })
      else some (propagatingBound { handler with completedInputTimestamps := [] })
  | _ :: _ :: _, [] => none
  | _ :: completed, context :: _ =>
      if completed.head? = some context.inputTimestamp then
        some (propagatingPackets context.inputTimestamp
          { handler with completedInputTimestamps := completed })
      else some (idle { handler with completedInputTimestamps := completed })

-- The rest of PropagationBound.
def afterBound (boundToPropagate : Timestamp) (handler : OutputStreamHandler ω) :
    Option (OutputStreamHandler ω) :=
  if handler.propagationState = .propagatingBound then some handler.idle
  else if handler.propagationState ≠ .propagationPending then none
  else
    match handler.activeContexts with
    | [] => if boundToPropagate < handler.taskTimestampBound then some handler.propagatingBound else none
    | context :: _ =>
        if handler.completedInputTimestamps.head? = some context.inputTimestamp then
          some (handler.propagatingPackets context.inputTimestamp)
        else some handler.idle

-- PrepareCalculatorContext. Two invocations with one timestamp fail a CHECK.
def prepareCalculatorContext (inputTimestamp : Timestamp) (handler : OutputStreamHandler ω) :
    Option (OutputStreamHandler ω) :=
  if inputTimestamp ∈ handler.activeContexts.map CalculatorContext.inputTimestamp then none
  else
    some { handler with
      activeContexts := handler.activeContexts.orderedInsert
        (fun a b => a.inputTimestamp ≤ b.inputTimestamp)
        { inputTimestamp := inputTimestamp, outputs := none } }

-- The context of a timestamp, when its calculator has not returned.
def runs (inputTimestamp : Timestamp) (handler : OutputStreamHandler ω) : Bool :=
  handler.activeContexts.any fun context =>
    context.inputTimestamp = inputTimestamp && context.outputs.isNone

def finish (inputTimestamp : Timestamp) (outputs : ω) (handler : OutputStreamHandler ω) :
    OutputStreamHandler ω :=
  { handler with
    activeContexts := handler.activeContexts.map fun context =>
      if context.inputTimestamp = inputTimestamp then { context with outputs := some outputs }
      else context }

def frontOutputs (contextTimestamp : Timestamp) (handler : OutputStreamHandler ω) : Option ω :=
  match handler.activeContexts with
  | [] => none
  | context :: _ => if context.inputTimestamp = contextTimestamp then context.outputs else none

inductive Event (ω : Type) where
  | prepareCalculatorContext (inputTimestamp : Timestamp)
  | updateTaskTimestampBound (timestamp : Timestamp)
  | postProcess (inputTimestamp : Timestamp) (outputs : ω)
  | propagateOutputPackets
  | recycleCalculatorContext
  | lock
  | tryPropagateTimestampBound
  | relock

-- None where the step is not one that can be taken, or where a CHECK fails. The scheduling
-- thread calls in the order of time, and a calculator runs once in each context.
def step : Event ω → OutputStreamHandler ω → Option (OutputStreamHandler ω)
  | .prepareCalculatorContext inputTimestamp, handler =>
      if inputTimestamp.IsAllowedInStream ∧ handler.reached ≤ invocationPlace inputTimestamp then
        prepareCalculatorContext inputTimestamp
          { handler with reached := invocationPlace inputTimestamp + 1 }
      else none
  | .updateTaskTimestampBound timestamp, handler =>
      if handler.reached ≤ boundPlace timestamp then
        updateTaskTimestampBound timestamp { handler with reached := boundPlace timestamp }
      else none
  | .postProcess inputTimestamp outputs, handler =>
      if handler.runs inputTimestamp then postProcess inputTimestamp (handler.finish inputTimestamp outputs)
      else none
  | .propagateOutputPackets, handler =>
      match handler.thread with
      | .propagating contextTimestamp => some { handler with thread := .recycling contextTimestamp }
      | _ => none
  | .recycleCalculatorContext, handler =>
      match handler.thread with
      | .recycling contextTimestamp =>
          some { handler with
            activeContexts := handler.activeContexts.tail
            thread := .locking contextTimestamp }
      | _ => none
  | .lock, handler =>
      match handler.thread with
      | .locking contextTimestamp => handler.afterPackets contextTimestamp
      | _ => none
  | .tryPropagateTimestampBound, handler =>
      match handler.thread with
      | .bounding boundToPropagate => some { handler with thread := .relocking boundToPropagate }
      | _ => none
  | .relock, handler =>
      match handler.thread with
      | .relocking boundToPropagate => handler.afterBound boundToPropagate
      | _ => none

def prepared : Event ω → OutputStreamHandler ω → List Timestamp
  | .prepareCalculatorContext inputTimestamp, _ => [inputTimestamp]
  | _, _ => []

def propagated : Event ω → OutputStreamHandler ω → List (Propagated ω)
  | .propagateOutputPackets, handler =>
      match handler.thread with
      | .propagating contextTimestamp =>
          (handler.frontOutputs contextTimestamp).toList.map (Propagated.packets contextTimestamp)
      | _ => []
  | .tryPropagateTimestampBound, handler =>
      match handler.thread with
      | .bounding boundToPropagate => [.bound boundToPropagate]
      | _ => []
  | _, _ => []

end OutputStreamHandler

end SpaceInvaders.Mediapipe

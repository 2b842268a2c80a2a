import Fips.Lib.Heap
import Fips.Lib.Run
import Fips.Node.PeerState

/-!
# `node/FipsNode.ts`: starting and stopping a node

`start`, `stop` and `setBlockedPeerPubkeys` run as coroutines that share two task slots, a chain of policy
updates and a few flags. Each of their stretches between two suspension points is a step, and whatever is
awaited settles in any order, the order of the microtask queue among them. What a peer or a session loses
with the node is left to the models of those.
-/

namespace Fips

abbrev StartTaskId := Nat
abbrev StopTaskId := Nat
abbrev UpdateId := Nat
abbrev StartCallId := Nat
abbrev StopCallId := Nat
abbrev TransportIdx := Nat

/-- Where a `startTransports` is: the `start` of a transport it awaits, or the `stop` that undoes one. -/
inductive StartStage
  | starting (i : TransportIdx)
  | undoing (rest : List TransportIdx) (closed : Bool)
  | settled (ok : Bool)
deriving DecidableEq

/-- How a start has settled. -/
def StartStage.result : StartStage → Option Bool
  | .settled ok => some ok
  | _ => none

structure StartTask where
  generation : Nat
  stage : StartStage
deriving DecidableEq

instance : Inhabited StartTask := ⟨0, .settled true⟩

/-- Where a `stopTransports` is: its departures, the `stop` of a transport, the discovery tasks, or the last tasks it
awaits, of which it knows the start that was under way. -/
inductive StopStage
  | departing
  | stopping (i : TransportIdx) (failed : Bool)
  | draining (failed : Bool)
  | finishing (start : Option StartTaskId) (failed : Bool)
  | settled (failed : Bool)
deriving DecidableEq

/-- Whether a stop that has settled has failed to stop a transport. -/
def StopStage.result : StopStage → Option Bool
  | .settled failed => some failed
  | _ => none

instance : Inhabited StopStage := ⟨.settled false⟩

inductive UpdateStage
  | awaitingPrevious (previous : Option UpdateId)
  | awaitingStop (stop : StopTaskId)
  | awaitingStart (start : StartTaskId)
  /-- The update has run; its `finally` has not. -/
  | ran (ok : Bool)
  | settled (ok : Bool)
deriving DecidableEq

instance : Inhabited UpdateStage := ⟨.settled true⟩

inductive StartCallStage
  | awaitingStop (stop : Option StopTaskId)
  | awaitingUpdate (update : Option UpdateId)
  | awaitingStart (start : StartTaskId)
  | settled (ok : Bool)
deriving DecidableEq

instance : Inhabited StartCallStage := ⟨.settled true⟩

inductive StopCallStage
  | awaitingStop (stop : StopTaskId)
  | awaitingUpdate (update : Option UpdateId)
  | settled
deriving DecidableEq

instance : Inhabited StopCallStage := ⟨.settled⟩

/-- A call of a transport. -/
inductive TransportCall
  | start (i : TransportIdx)
  | stop (i : TransportIdx)
deriving DecidableEq

/-- A start that has succeeded. -/
structure NodeRun where
  generation : Nat
  startupEpoch : BitVec 64
deriving DecidableEq

structure NodeLifecycle where
  desiredRunning : Bool
  started : Bool
  hasStarted : Bool
  needsTransportCleanup : Bool
  admission : PeerAdmission
  admissionUpdating : Bool
  /-- The last update; before the first there is a resolved promise. -/
  admissionUpdate : Option UpdateId
  discoveryGeneration : Nat
  startupEpoch : BitVec 64
  heartbeatTimer : Bool
  startTask : Option StartTaskId
  stopTask : Option StopTaskId
  startTasks : Heap StartTask
  stopTasks : Heap StopStage
  updates : Heap UpdateStage
  startCalls : Heap StartCallStage
  stopCalls : Heap StopCallStage
  calls : List TransportCall
  runs : List NodeRun

namespace NodeLifecycle

/-- A new node; its startup epoch is random. -/
def new (startupEpoch : BitVec 64) (admission : PeerAdmission) : NodeLifecycle where
  desiredRunning := false
  started := false
  hasStarted := false
  needsTransportCleanup := false
  admission := admission
  admissionUpdating := false
  admissionUpdate := none
  discoveryGeneration := 0
  startupEpoch := startupEpoch
  heartbeatTimer := false
  startTask := none
  stopTask := none
  startTasks := .empty
  stopTasks := .empty
  updates := .empty
  startCalls := .empty
  stopCalls := .empty
  calls := []
  runs := []

variable (transports : Nat) (s : NodeLifecycle)

/-! ### Promises -/

def startResult (r : StartTaskId) : Option Bool := (s.startTasks.get r).stage.result

def stopResult (r : StopTaskId) : Option Bool := (s.stopTasks.get r).result

/-- The result of the last update, which is there from the beginning. -/
def updateResult (u : Option UpdateId) : Option Bool :=
  match u with
  | none => some true
  | some u =>
    match s.updates.get u with
    | .settled ok => some ok
    | _ => none

/-! ### Starts -/

def setStartStage (r : StartTaskId) (stage : StartStage) : NodeLifecycle :=
  { s with startTasks := s.startTasks.modify r fun t => { t with stage := stage } }

/-- The end of a start that has succeeded. -/
def startSucceeds (r : StartTaskId) : NodeLifecycle :=
  let s : NodeLifecycle := { s with
    started := true
    hasStarted := true
    heartbeatTimer := true
    runs := s.runs ++ [⟨(s.startTasks.get r).generation, s.startupEpoch⟩] }
  s.setStartStage r (.settled true)

/-- The loop of a start comes to transport `i`. -/
def startFrom (r : StartTaskId) (i : TransportIdx) : NodeLifecycle :=
  if i < transports then
    let s : NodeLifecycle := { s with calls := s.calls ++ [.start i] }
    s.setStartStage r (.starting i)
  else s.startSucceeds r

/-- The loop of the `catch`, over the transports that are still to be stopped. -/
def undoFrom (r : StartTaskId) (rest : List TransportIdx) (closed : Bool) : NodeLifecycle :=
  match rest with
  | [] =>
    let s : NodeLifecycle := { s with needsTransportCleanup := !closed }
    s.setStartStage r (.settled false)
  | i :: _ =>
    let s : NodeLifecycle := { s with calls := s.calls ++ [.stop i] }
    s.setStartStage r (.undoing rest closed)

/-- `startTransports`, up to where it first waits. -/
def startTransports : NodeLifecycle :=
  if s.started then { s with startTasks := s.startTasks.alloc ⟨s.discoveryGeneration, .settled true⟩ }
  else
    let generation := s.discoveryGeneration + 1
    let r := s.startTasks.next
    let s : NodeLifecycle := { s with
      startupEpoch := if s.hasStarted then s.startupEpoch + 1 else s.startupEpoch
      needsTransportCleanup := true
      discoveryGeneration := generation
      startTasks := s.startTasks.alloc ⟨generation, .starting 0⟩ }
    s.startFrom transports r 0

/-- `startNode`; the task is `startTask` after it. -/
def startNode : NodeLifecycle :=
  if s.startTask.isSome then s else { startTransports transports s with startTask := some s.startTasks.next }

/-- The `start` of a transport has settled. -/
def transportStarted (r : StartTaskId) (ok : Bool) : NodeLifecycle :=
  match (s.startTasks.get r).stage with
  | .starting i =>
    if ok && (s.startTasks.get r).generation = s.discoveryGeneration && s.desiredRunning then
      s.startFrom transports r (i + 1)
    else
      let s : NodeLifecycle := { s with discoveryGeneration := s.discoveryGeneration + 1 }
      s.undoFrom r (List.range (i + 1)).reverse true
  | _ => s

/-- The `stop` of a transport in the `catch` has settled. -/
def transportUndone (r : StartTaskId) (ok : Bool) : NodeLifecycle :=
  match (s.startTasks.get r).stage with
  | .undoing (_ :: rest) closed => s.undoFrom r rest (closed && ok)
  | _ => s

/-- The `finally` of `startNode`. -/
def startCleared (r : StartTaskId) : NodeLifecycle :=
  if (s.startResult r).isSome ∧ s.startTask = some r then { s with startTask := none } else s

/-! ### Stops -/

def setStopStage (r : StopTaskId) (stage : StopStage) : NodeLifecycle :=
  { s with stopTasks := s.stopTasks.modify r fun _ => stage }

/-- The loop of a stop comes to transport `i`. -/
def stopFrom (r : StopTaskId) (i : TransportIdx) (failed : Bool) : NodeLifecycle :=
  if i < transports then
    let s : NodeLifecycle := { s with calls := s.calls ++ [.stop i] }
    s.setStopStage r (.stopping i failed)
  else s.setStopStage r (.draining failed)

/-- `stopTransports`, up to where it first waits; `departs` says that a peer must be told. -/
def stopTransports (departs : Bool) : NodeLifecycle :=
  if !s.needsTransportCleanup && !s.started && s.startTask.isNone then
    { s with stopTasks := s.stopTasks.alloc (.settled false) }
  else
    let r := s.stopTasks.next
    let s : NodeLifecycle := { s with
      started := false
      heartbeatTimer := false
      discoveryGeneration := s.discoveryGeneration + 1
      stopTasks := s.stopTasks.alloc .departing }
    if departs then s else s.stopFrom transports r 0 false

/-- `stopNode`; the task is `stopTask` after it. -/
def stopNode (departs : Bool) : NodeLifecycle :=
  if s.stopTask.isSome then s else { stopTransports transports s departs with stopTask := some s.stopTasks.next }

/-- The departures have been sent, or have taken too long. -/
def departed (r : StopTaskId) : NodeLifecycle :=
  match s.stopTasks.get r with
  | .departing => s.stopFrom transports r 0 false
  | _ => s

/-- The `stop` of a transport has settled. -/
def transportStopped (r : StopTaskId) (ok : Bool) : NodeLifecycle :=
  match s.stopTasks.get r with
  | .stopping i failed => s.stopFrom transports r (i + 1) (failed || !ok)
  | _ => s

/-- The discovery tasks have settled. -/
def drained (r : StopTaskId) : NodeLifecycle :=
  match s.stopTasks.get r with
  | .draining failed => s.setStopStage r (.finishing s.startTask failed)
  | _ => s

/-- The last tasks have settled, among them the start that was under way. -/
def stopFinished (r : StopTaskId) : NodeLifecycle :=
  match s.stopTasks.get r with
  | .finishing start failed =>
    if (start.map s.startResult).any Option.isNone then s
    else
      let s : NodeLifecycle := { s with needsTransportCleanup := failed }
      s.setStopStage r (.settled failed)
  | _ => s

/-- The `finally` of `stopNode`. -/
def stopCleared (r : StopTaskId) : NodeLifecycle :=
  if (s.stopResult r).isSome ∧ s.stopTask = some r then { s with stopTask := none } else s

/-! ### Callers -/

def setStartCall (c : StartCallId) (stage : StartCallStage) : NodeLifecycle :=
  { s with startCalls := s.startCalls.modify c fun _ => stage }

def setStopCall (c : StopCallId) (stage : StopCallStage) : NodeLifecycle :=
  { s with stopCalls := s.stopCalls.modify c fun _ => stage }

def setUpdate (u : UpdateId) (stage : UpdateStage) : NodeLifecycle :=
  { s with updates := s.updates.modify u fun _ => stage }

def start : NodeLifecycle :=
  { s with desiredRunning := true, startCalls := s.startCalls.alloc (.awaitingStop s.stopTask) }

/-- The last part of `start`. -/
def startDesired (c : StartCallId) : NodeLifecycle :=
  if s.desiredRunning then
    let s := startNode transports s
    s.setStartCall c (.awaitingStart (s.startTask.getD 0))
  else s.setStartCall c (.settled true)

/-- `start` goes on. -/
def startCall (c : StartCallId) : NodeLifecycle :=
  match s.startCalls.get c with
  | .awaitingStop stop =>
    if (stop.map s.stopResult).any Option.isNone then s
    else if s.admissionUpdating then s.setStartCall c (.awaitingUpdate s.admissionUpdate)
    else s.startDesired transports c
  | .awaitingUpdate update =>
    match s.updateResult update with
    | none => s
    | some false => s.setStartCall c (.settled false)
    | some true => s.startDesired transports c
  | .awaitingStart r =>
    match s.startResult r with
    | none => s
    | some ok => s.setStartCall c (.settled ok)
  | .settled _ => s

def stop (departs : Bool) : NodeLifecycle :=
  let s := stopNode transports { s with desiredRunning := false } departs
  { s with stopCalls := s.stopCalls.alloc (.awaitingStop (s.stopTask.getD 0)) }

/-- `stop` goes on. -/
def stopCall (c : StopCallId) : NodeLifecycle :=
  match s.stopCalls.get c with
  | .awaitingStop r => if (s.stopResult r).isNone then s else s.setStopCall c (.awaitingUpdate s.admissionUpdate)
  | .awaitingUpdate update => if (s.updateResult update).isNone then s else s.setStopCall c .settled
  | .settled => s

/-- `setBlockedPeerPubkeys`, which throws for a key that it cannot read. -/
def setBlockedPeerPubkeys (keys : List Bytes) : NodeLifecycle :=
  match PeerAdmission.new keys with
  | .error _ => s
  | .ok next =>
    if s.admission.equals next then s
    else { s with
      admission := next
      admissionUpdating := true
      discoveryGeneration := s.discoveryGeneration + 1
      updates := s.updates.alloc (.awaitingPrevious s.admissionUpdate)
      admissionUpdate := some s.updates.next }

/-- An update goes on. -/
def update (u : UpdateId) (departs : Bool) : NodeLifecycle :=
  match s.updates.get u with
  | .awaitingPrevious previous =>
    if (s.updateResult previous).isNone then s
    else
      let s := s.stopNode transports departs
      s.setUpdate u (.awaitingStop (s.stopTask.getD 0))
  | .awaitingStop r =>
    match s.stopResult r with
    | none => s
    | some true => s.setUpdate u (.ran false)
    | some false =>
      if s.desiredRunning then
        let s := startNode transports s
        s.setUpdate u (.awaitingStart (s.startTask.getD 0))
      else s.setUpdate u (.ran true)
  | .awaitingStart r =>
    match s.startResult r with
    | none => s
    | some ok => s.setUpdate u (.ran ok)
  | .ran ok =>
    let s := if s.admissionUpdate = some u then { s with admissionUpdating := false } else s
    s.setUpdate u (.settled ok)
  | .settled _ => s

/-! ### Steps -/

inductive Action
  | start
  | stop (departs : Bool)
  | setBlockedPeerPubkeys (keys : List Bytes)
  | startCall (c : StartCallId)
  | stopCall (c : StopCallId)
  | update (u : UpdateId) (departs : Bool)
  | transportStarted (r : StartTaskId) (ok : Bool)
  | transportUndone (r : StartTaskId) (ok : Bool)
  | startCleared (r : StartTaskId)
  | departed (r : StopTaskId)
  | transportStopped (r : StopTaskId) (ok : Bool)
  | drained (r : StopTaskId)
  | stopFinished (r : StopTaskId)
  | stopCleared (r : StopTaskId)
deriving DecidableEq

def step (a : Action) : NodeLifecycle :=
  match a with
  | .start => s.start
  | .stop departs => s.stop transports departs
  | .setBlockedPeerPubkeys keys => s.setBlockedPeerPubkeys keys
  | .startCall c => s.startCall transports c
  | .stopCall c => s.stopCall c
  | .update u departs => s.update transports u departs
  | .transportStarted r ok => s.transportStarted transports r ok
  | .transportUndone r ok => s.transportUndone r ok
  | .startCleared r => s.startCleared r
  | .departed r => s.departed transports r
  | .transportStopped r ok => s.transportStopped transports r ok
  | .drained r => s.drained r
  | .stopFinished r => s.stopFinished r
  | .stopCleared r => s.stopCleared r

end NodeLifecycle

end Fips

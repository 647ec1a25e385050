import ZipGateway.Udp.Commands

/-!
# The inclusion controller

`CC_InclusionController.c` has two roles. The gateway that includes a node hands the rest of the inclusion
over to the SUC, with a function that is called when this is done, and may be asked to do the S0 step
itself. The gateway that is the SUC is asked to include or replace a node as a proxy, and may ask for the
S0 step. Both roles share the state, a timer and the field for the other controller.

The data of an event of `handler_fsm` are an untyped pointer, which `STATE_PERFORM_S0_INCLUSION` reads as
a number. Network management is kept as far as it takes part: whether it is idle, and the operation it
runs for a proxy request.
-/

namespace ZipGateway.InclusionController

open Udp (Scheme)

def commandClassInclusionController : UInt8 := 0x74
def inclusionControllerInitiate : UInt8 := 0x01
def inclusionControllerComplete : UInt8 := 0x02

def stepIdProxyInclusion : UInt8 := 0x01
def stepIdS0Inclusion : UInt8 := 0x02
def stepIdProxyReplace : UInt8 := 0x03

def stepOk : UInt8 := 0x01
def stepFailed : UInt8 := 0x03
def stepNotSupported : UInt8 := 0x04

def addNodeStatusDone : UInt8 := 6
def zwFailedNodeReplaceDone : UInt8 := 4

def nodeFlagSecurity0 : UInt8 := 0x01
def nodeFlagKnownBad : UInt8 := 0x02

/-- A function passed as `complete_func`; `text` is what is read if it is taken for a number. -/
structure Callback where
  id : Nat
  text : UInt8
deriving DecidableEq, Repr

inductive FsmState where
  | idle
  | waitForSucAccept
  | waitForAdd
  | waitS0Inclusion
  | performS0Inclusion
deriving DecidableEq, Repr

/-- What network management does, as seen from here: nothing, something of its own, waiting for the node
information of a proxy request, or carrying that request out. -/
inductive Nm where
  | idle
  | other
  | proxyInclusionWaitNif (isReplace : Bool)
  | proxy (isReplace : Bool)
deriving DecidableEq, Repr

inductive Step where
  | s0
  | proxy
deriving DecidableEq, Repr

/-- The log: the functions that were passed and are called, what is sent, and what only an observer sees:
who asked for which step, that network management started on it, and how the step ended. -/
inductive Out where
  | accepted (call : Callback)
  | called (call : Callback) (status : UInt8)
  | refused (call : Callback)
  | sent (dest : NodeId) (frame : Bytes)
  | asked (asker : NodeId) (step : Step)
  | proxyStarted
  | ended (step : Step) (ok : Bool)
  | advanced (sender peer : NodeId)
deriving DecidableEq, Repr

/-- `handler_state`; `peer` is `inclusion_conrtoller` and `suc_node` in one place, `sending` and `s0Running`
say which callbacks are owed, `crashed` is a use of the null pointer. -/
structure State where
  state : FsmState
  timer : Bool
  completeFunc : Option Callback
  nodeId : NodeId
  peer : NodeId
  isReplace : Bool
  sending : Nat
  s0Running : Bool
  nm : Nm
  crashed : Bool
  log : List Out
deriving DecidableEq

def State.init : State where
  state := .idle
  timer := false
  completeFunc := none
  nodeId := 0
  peer := 0
  isReplace := false
  sending := 0
  s0Running := false
  nm := .idle
  crashed := false
  log := []

/-- What the rest of the gateway answers during an event: whether `ZW_SendDataAppl` takes a frame, which
node is the SUC, whether the gateway has S0, and whether `security_add_begin` begins. -/
structure Env where
  sends : Bool
  suc : NodeId
  security0 : Bool
  begins : Bool
deriving DecidableEq, Repr

/-- `handler_events_t` with its data; the sender is for the log. -/
inductive FsmEvent where
  | requestSucInclusion (call : Option Callback)
  | sucStarted
  | initiate (sender : NodeId) (frame : Bytes)
  | complete (sender : NodeId) (frame : Bytes)
  | txDone (ok : Bool)
  | timeout
  | addNodeDone (status : UInt8)
  | s0Inclusion (call : Callback)
  | s0InclusionDone (status : UInt8)
deriving DecidableEq, Repr

/-- The low byte of `*((int*)event_data)`. -/
def FsmEvent.number : FsmEvent → Option UInt8
  | requestSucInclusion call => call.map Callback.text
  | sucStarted | txDone _ | timeout => none
  | initiate _ frame | complete _ frame => some (frame.getD 0 0)
  | addNodeDone status | s0InclusionDone status => some status
  | s0Inclusion call => some call.text

namespace State

variable (s : State)

def put (x : Out) : State :=
  { s with log := s.log ++ [x] }

def crash : State :=
  { s with crashed := true }

/-- `handler_state.complete_func(status)`. -/
def callComplete (status : UInt8) : State :=
  match s.completeFunc with
  | some call => s.put (.called call status)
  | none => s.crash

def ctimerSet : State :=
  { s with timer := true }

def sendDataAppl (dest : NodeId) (frame : Bytes) : State :=
  { s.put (.sent dest frame) with sending := s.sending + 1 }

def startProxy (isReplace : Bool) : State :=
  if s.nm = .idle then { s.put .proxyStarted with nm := .proxyInclusionWaitNif isReplace } else s

end State

def initiateFrame (nodeId : NodeId) (stepId : UInt8) : Bytes :=
  [commandClassInclusionController, inclusionControllerInitiate, nodeId.toUInt8, stepId]

def completeFrame (stepId status : UInt8) : Bytes :=
  [commandClassInclusionController, inclusionControllerComplete, stepId, status]

section Fsm

variable (s : State) (env : Env)

def sucAcceptTxDone (ok : Bool) : State :=
  if ok then s.ctimerSet else { s with state := .idle }.callComplete 0

/-- `STATE_PERFORM_S0_INCLUSION`: the event is not looked at, only its data. -/
def performS0 (number : Option UInt8) : State :=
  match number with
  | none => s.crash
  | some status =>
    let t := { s with state := .waitForSucAccept }
    if env.sends then t.sendDataAppl s.peer (completeFrame stepIdS0Inclusion status)
    else sucAcceptTxDone t false

def s0InclusionDone (status : UInt8) (ok : Bool) : State :=
  performS0 (s.put (.ended .s0 ok)) env (some status)

def handlerFsmIdle : FsmEvent → State
  | .requestSucInclusion call =>
    let t := { s with state := .waitForSucAccept, completeFunc := call, peer := env.suc }
    let t := match call with
      | some call => t.put (.accepted call)
      | none => t
    let stepId := if s.isReplace then stepIdProxyReplace else stepIdProxyInclusion
    if env.sends then t.sendDataAppl env.suc (initiateFrame s.nodeId stepId)
    else sucAcceptTxDone t false
  | .initiate sender frame =>
    let t := { s with nodeId := (frame.getD 2 0).toUInt16 }
    let stepId := frame.getD 3 0
    if stepId = stepIdProxyInclusion then
      ({ t with state := .waitForAdd }.put (.asked sender .proxy)).startProxy false
    else if stepId = stepIdProxyReplace then
      ({ t with state := .waitForAdd }.put (.asked sender .proxy)).startProxy true
    else t
  | _ => s

def handlerFsmWaitForSucAccept : FsmEvent → State
  | .txDone ok => sucAcceptTxDone s ok
  | .complete _ frame =>
    let stepId := frame.getD 2 0
    if stepId = stepIdProxyInclusion ∨ stepId = stepIdProxyReplace then
      { s with state := .idle }.callComplete 1
    else s
  | .timeout => { s with state := .idle }.callComplete 0
  | .initiate sender frame =>
    if frame.getD 3 0 = stepIdS0Inclusion then
      let t := { s with state := .performS0Inclusion }.put (.asked sender .s0)
      if env.security0 then { t with s0Running := s.s0Running || env.begins }
      else s0InclusionDone t env stepNotSupported false
    else s
  | _ => s

def handlerFsmWaitForAdd : FsmEvent → State
  | .addNodeDone status =>
    { s.put (.sent s.peer (completeFrame stepIdProxyInclusion status)) with state := .idle }
  | .s0Inclusion call =>
    let t := { s with completeFunc := some call }.put (.accepted call)
    -- a frame that is not taken ends in `send_done`, which this state does not look at
    let t := if env.sends then t.sendDataAppl s.peer (initiateFrame s.nodeId stepIdS0Inclusion) else t
    { t with state := .waitS0Inclusion }.ctimerSet
  | _ => s

def handlerFsmWaitS0Inclusion : FsmEvent → State
  | .timeout => { s with state := .waitForAdd }.callComplete 0
  | .complete _ frame =>
    if frame.getD 2 0 = stepIdS0Inclusion then
      { s with state := .waitForAdd }.callComplete (frame.getD 3 0)
    else s
  | _ => s

def handlerFsm (ev : FsmEvent) : State :=
  match s.state with
  | .idle => handlerFsmIdle s env ev
  | .waitForSucAccept => handlerFsmWaitForSucAccept s env ev
  | .performS0Inclusion => performS0 s env ev.number
  | .waitForAdd => handlerFsmWaitForAdd s env ev
  | .waitS0Inclusion => handlerFsmWaitS0Inclusion s ev

end Fsm

def highestScheme (schemeMask : UInt8) : Scheme :=
  if schemeMask &&& 0x40 ≠ 0 then .scheme2Access
  else if schemeMask &&& 0x20 ≠ 0 then .scheme2Authenticated
  else if schemeMask &&& 0x10 ≠ 0 then .scheme2Unauthenticated
  else if schemeMask &&& nodeFlagSecurity0 ≠ 0 then .scheme0
  else .noScheme

structure Sender where
  id : NodeId
  flags : UInt8
  probeCompleted : Bool
  isNodeBad : Bool
  isController : Bool
deriving DecidableEq, Repr

def Sender.isAllowed (sender : Sender) (scheme : Scheme) : Bool :=
  scheme.compare (highestScheme sender.flags) && sender.probeCompleted && !sender.isNodeBad && sender.isController

/-- A frame is passed to the state machine; the log says so if anything changes. -/
def State.receive (s : State) (env : Env) (sender : NodeId) (ev : FsmEvent) : State :=
  let t := handlerFsm s env ev
  if t = s then t else t.put (.advanced sender s.peer)

def State.inclusionControllerHandler (s : State) (env : Env) (sender : Sender) (scheme : Scheme)
    (frame : Bytes) : State :=
  if !sender.isAllowed scheme then s
  else if frame.getD 1 0 = inclusionControllerInitiate then
    let t := if s.state = .idle then { s with peer := sender.id } else s
    t.receive env sender.id (.initiate sender.id frame)
  else if frame.getD 1 0 = inclusionControllerComplete then
    s.receive env sender.id (.complete sender.id frame)
  else s

def State.requestHandover (s : State) (env : Env) (nodeId : NodeId) (isReplace : Bool)
    (call : Option Callback) : State :=
  match call with
  | some call =>
    if s.state ≠ .idle then s.put (.refused call)
    else handlerFsm { s with nodeId := nodeId, isReplace := isReplace } env (.requestSucInclusion call)
  | none => handlerFsm { s with nodeId := nodeId, isReplace := isReplace } env (.requestSucInclusion none)

def secureLearnFlags (schemeMask : Int) : UInt8 :=
  if 0 < schemeMask then nodeFlagSecurity0 else if schemeMask < 0 then nodeFlagKnownBad else 0

def nodeAddStatus (buf : Bytes) : UInt8 :=
  buf.getD 3 0

def proxySucceeded (isReplace : Bool) (buf : Bytes) : Bool :=
  buf.getD 3 0 = if isReplace then zwFailedNodeReplaceDone else addNodeStatusDone

inductive Event where
  | requestHandover (env : Env) (nodeId : NodeId) (isReplace : Bool) (call : Option Callback)
  | youDoIt (env : Env) (call : Callback)
  | started (env : Env)
  | frame (env : Env) (sender : Sender) (scheme : Scheme) (bytes : Bytes)
  | txDone (env : Env) (ok : Bool)
  | timeout (env : Env)
  | s0Done (env : Env) (schemeMask : Int)
  | nmBegins
  | nmEnds
  | nmNodeInfo
  | nmNifTimeout (env : Env)
  | nmSendReply (env : Env) (buf : Bytes)
deriving DecidableEq, Repr

def State.sendReport (s : State) (env : Env) (ok : Bool) (status : UInt8) : State :=
  handlerFsm (s.put (.ended .proxy ok)) env (.addNodeDone status)

def State.react (s : State) : Event → State
  | .requestHandover env nodeId isReplace call => s.requestHandover env nodeId isReplace call
  | .youDoIt env call => handlerFsm s env (.s0Inclusion call)
  | .started env => handlerFsm s env .sucStarted
  | .frame env sender scheme bytes => s.inclusionControllerHandler env sender scheme bytes
  | .txDone env ok =>
    if s.sending = 0 then s else handlerFsm { s with sending := s.sending - 1 } env (.txDone ok)
  | .timeout env => if s.timer then handlerFsm { s with timer := false } env .timeout else s
  | .s0Done env schemeMask =>
    if s.s0Running then
      handlerFsm ({ s with s0Running := false }.put (.ended .s0 (0 < schemeMask))) env
        (.s0InclusionDone (secureLearnFlags schemeMask))
    else s
  | .nmBegins => if s.nm = .idle then { s with nm := .other } else s
  | .nmEnds =>
    match s.nm with
    | .other | .proxy _ => { s with nm := .idle }
    | _ => s
  | .nmNodeInfo =>
    match s.nm with
    | .proxyInclusionWaitNif isReplace => { s with nm := .proxy isReplace }
    | _ => s
  | .nmNifTimeout env =>
    match s.nm with
    | .proxyInclusionWaitNif _ => { s with nm := .idle }.sendReport env false stepFailed
    | _ => s
  | .nmSendReply env buf =>
    match s.nm with
    | .proxy isReplace =>
      s.sendReport env (proxySucceeded isReplace buf)
        (if nodeAddStatus buf = addNodeStatusDone then stepOk else stepFailed)
    | _ => s

def step (s : State) (e : Event) : State :=
  if s.crashed then s else s.react e

def run (events : List Event) : State :=
  Machine.run step .init events

end ZipGateway.InclusionController

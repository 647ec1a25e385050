import ZipGateway.Mailbox.Entries

/-!
# The state machine of the mailbox

`mb_state_transition` calls itself, and `ClassicZIPNode_input` may call it before it returns. The
recursion that is left when the internal events are followed goes along `mb_list`: each frame that
is completed at once leads to the next entry.
-/

namespace ZipGateway.Mailbox

/-- The events of `mb_state_transition` that come from outside; the internal `MB_EVENT_TRANSITION`
is part of the functions below. -/
inductive MbEvent where
  | sendDone
  | wakeup
  | pop
  | popLast
  | timeout
  | pingReq
  | timeToPing
  | frameSentToNode
deriving DecidableEq, Repr

def toIdle (s : State) : State :=
  { s with fsm := .idle }.record .queueUpdated

def mbSendNoMoreInformation (w : World) (s : State) : State :=
  if s.broadcastWun then
    toIdle { s with broadcastWun := false, txStatus := transmitCompleteOk }
  else if w.sendDataAppl then
    (s.owe .noMoreInfo).record (.noMoreInformation s.node)
  else
    toIdle { s with txStatus := transmitCompleteFail }

def mbSendProxyStatus (s : State) : State :=
  if s.session.rport ≠ 0 then s.record (.proxyStatus (s.txStatus == transmitCompleteOk)) else s

def enterSendNoMoreInfo (w : World) (s : State) : State :=
  mbSendNoMoreInformation w (mbSendProxyStatus { s with fsm := .sendNoMoreInfo })

section Sending

def entryDone (s : State) (b : Block) (next : Option Block) : State :=
  let s := { s with lastEntry := next }
  if s.txStatus = transmitCompleteOk then mbFreeEntry s b else s

def sendNext (w : World) : List Block → State → State
  | [], s =>
    let s := { s with lastEntry := none }
    if s.sendNoMore then enterSendNoMoreInfo w s
    else { s with fsm := .sendNoMoreInfoDelayed, noMoreTimer := true }.record .queueUpdated
  | b :: rest, s =>
    if mbGetDnode w (s.mem b).data = s.node then
      let message := (s.mem b).message
      let s :=
        { s with
          lastEntry := some b
          sendNoMore := s.sendNoMore && !isMoreInfoSet (s.mem b).data }
      match w.classic b with
      | .refused => enterSendNoMoreInfo w s
      | .pending => (s.owe (.classic (some message))).record (.transmitted (some message))
      | .completed status =>
        let s := (s.record (.transmitted (some message))).record (.result (some message) status)
        sendNext w rest (entryDone { s with txStatus := status } b rest.head?)
    else sendNext w rest s

def enterSending (w : World) (s : State) : State :=
  sendNext w s.list { s with fsm := .sending }

/-- `MB_STATE_SENDING`; any other event goes on to the search below. -/
def sending (w : World) (s : State) : MbEvent → State
  | .sendDone =>
    match s.lastEntry with
    | none => sendNext w [] s
    | some b =>
      let rest := (entriesFrom s (some b)).tail
      sendNext w rest (entryDone s b rest.head?)
  | _ => sendNext w (entriesFrom s s.lastEntry) s

end Sending

section Pings

def pingNext (w : World) : List Block → State → State
  | [], s => toIdle { s with lastEntry := none }
  | b :: rest, s =>
    if (s.mem b).waitingEnabled then
      let s := { s with lastEntry := some b }
      if isUnspecified (s.mem b).proxy then
        if w.sendPing b then s.owe .ping
        else
          pingNext w rest { s with
              txStatus := transmitCompleteFail
              mem := Function.update s.mem b { s.mem b with waitingEnabled := false } }
      else sendMbProxyQueueCommand s mailboxPing b
    else pingNext w rest s

def pingZipclients (w : World) (s : State) : MbEvent → State
  | .sendDone =>
    match s.lastEntry with
    | none => s
    | some b =>
      let rest := (entriesFrom s (some b)).tail
      let waitingEnabled := s.txStatus == transmitCompleteOk
      pingNext w rest { s with mem := Function.update s.mem b { s.mem b with waitingEnabled } }
  | _ => s

end Pings

section Proxies

def proxyEntries (s : State) : List Block :=
  s.list.filter fun b => (s.mem b).proxy == s.session.ripaddr && s.handle == (s.mem b).handle

def popToProxy (w : World) (s : State) : State :=
  match proxyEntries s with
  | [] => toIdle { s with lastEntry := none }
  | b :: more =>
    let last := !isMoreInfoSet w.uipBuf && more.isEmpty
    let s := { s with lastEntry := some b }.record (.popped (s.mem b).message)
    sendMbProxyQueueCommand s (if last then mailboxPopLastBit ||| mailboxPop else mailboxPop) b

def sendingThroughProxy (w : World) (s : State) : MbEvent → State
  | .timeout => toIdle s
  | .sendDone =>
    popToProxy w <|
      if s.txStatus = transmitCompleteOk then (s.lastEntry.map (mbFreeEntry s)).getD s else s
  | _ => s

def sendingFromProxy (s : State) : MbEvent → State
  | .sendDone => toIdle (mbSendProxyStatus s)
  | _ => s

/-- `MB_STATE_SENDING_LAST_FORM_PROXY`. -/
def sendingLastFromProxy (w : World) (s : State) : MbEvent → State
  | .sendDone => enterSendNoMoreInfo w s
  | _ => s

/-- `ClassicZIPNode_input` with a frame from a proxy; `done` is what the result leads to. -/
def sendFromProxy (w : World) (s : State) (done : State → State) : State :=
  match w.classicPop with
  | .refused => done { s with txStatus := transmitCompleteFail }
  | .pending => (s.owe (.classic none)).record (.transmitted none)
  | .completed status =>
    done ({ s with txStatus := status }.record (.transmitted none) |>.record (.result none status))

end Proxies

def offTime (w : World) (node : NodeId) : Bool :=
  let interval : Int := w.wakeUpInterval node
  let awake : Int := w.clockSeconds - w.lastAwake node
  decide ((interval - awake).natAbs > w.wakeUpInterval node / 8)

def idle (w : World) (s : State) : MbEvent → State
  | .timeToPing => pingNext w s.list { s with fsm := .pingZipclients }
  | .pingReq =>
    if w.sendPingReq then { s with fsm := .sendingPing }.owe .ping
    else { s with fsm := .sendingPing, txStatus := transmitCompleteFail }
  | .wakeup =>
    if s.node = 0 then
      popToProxy w { s with lastEntry := s.list.head?, fsm := .sendingThroughProxy }
    else if w.nodeKnown s.node then
      if w.nodeFailing s.node || offTime w s.node then
        if w.sendRequest then { s with fsm := .probeWakeupInterval }.owe .probe
        else enterSending w s
      else enterSending w s
    else mbSendNoMoreInformation w { s with fsm := .sendNoMoreInfo }
  | .pop => sendFromProxy w { s with fsm := .sendingFromProxy } fun s => sendingFromProxy s .sendDone
  | .popLast =>
    sendFromProxy w { s with fsm := .sendingLastFromProxy } fun s =>
      sendingLastFromProxy w s .sendDone
  | _ => s

def mbStateTransition (w : World) (s : State) (event : MbEvent) : State :=
  match s.fsm with
  | .idle => idle w s event
  | .probeWakeupInterval => if event = .sendDone then enterSending w s else s
  | .pingZipclients => pingZipclients w s event
  | .sendingThroughProxy => sendingThroughProxy w s event
  | .sending => sending w s event
  | .sendNoMoreInfoDelayed =>
    if event = .timeout then
      if w.nodeInProbe s.node then { s with noMoreTimer := true }
      else mbSendNoMoreInformation w { s with fsm := .sendNoMoreInfo }
    else if event = .frameSentToNode then { s with noMoreTimer := true }
    else s
  | .sendNoMoreInfo => if event = .sendDone then toIdle s else s
  | .sendingFromProxy => sendingFromProxy s event
  | .sendingLastFromProxy => sendingLastFromProxy w s event
  | .sendingPing => toIdle (mbSendProxyStatus s)

section Events

def mbIsBusy (s : State) : Bool :=
  match s.fsm with
  | .idle | .sendingPing | .pingZipclients | .sendNoMoreInfoDelayed => false
  | _ => true

inductive Command where
  | wakeupNotification (handle : UInt8)
  | configurationGet
  | configurationSet (properties1 : UInt8)
  | nodeFailing (nodeIp : Bytes)
  | queue (param1 handle : UInt8) (entry : Bytes)
deriving DecidableEq, Repr

def recordProxyResult (s : State) (status : UInt8) : State :=
  if s.fsm = .sendingThroughProxy then
    s.record (.result (s.lastEntry.map fun b => (s.mem b).message) status)
  else s

/-- `MAILBOX_QUEUE`. -/
def handleQueue (w : World) (s : State) (c : Conn) (param1 handle : UInt8) (entry : Bytes) : State :=
  let mode := param1 &&& 0x7
  if mode = mailboxAck then
    let s := recordProxyResult s transmitCompleteOk
    mbStateTransition w { s with txStatus := transmitCompleteOk } .sendDone
  else if mode = mailboxNak then
    let s := recordProxyResult s transmitCompleteFail
    mbStateTransition w { s with txStatus := transmitCompleteFail } .sendDone
  else if mode = mailboxQueueFull then s.record .queueFull
  else if mode = mailboxPing then mbStateTransition w { s with session := c, handle } .pingReq
  else if mode = mailboxPush then mbPostUipbuf w s entry (some c.ripaddr) handle
  else if mode = mailboxPop then
    if s.fsm ≠ .idle then s
    else
      let s := { s with node := mbGetDnode w entry, handle, session := c, sendNoMore := true }
      mbStateTransition w s (if param1 &&& mailboxPopLastBit ≠ 0 then .popLast else .pop)
  else s

def mbCommandHandler (w : World) (s : State) (c : Conn) : Command → State
  | .wakeupNotification handle =>
    mbStateTransition w { s with node := 0, handle, session := c, broadcastWun := false } .wakeup
  | .configurationGet => s
  | .configurationSet properties1 => { s with confMode := properties1 &&& 7 }
  | .nodeFailing nodeIp => mbFailingNotifyByip w s nodeIp
  | .queue param1 handle entry => handleQueue w s c param1 handle entry

def mbWakeupEvent (w : World) (s : State) (node : NodeId) (isBroadcast : Bool) : State :=
  if w.networkManagementIdle && s.confMode == enableMailboxService && !w.probeInProgress && s.fsm == .idle then
    mbStateTransition w { s with node, sendNoMore := true, broadcastWun := isBroadcast } .wakeup
  else s

def callback (w : World) (s : State) (p : Pending) (status : UInt8) : State :=
  match p with
  | .classic message =>
    mbStateTransition w ({ s with txStatus := status }.record (.result message status)) .sendDone
  | .noMoreInfo => mbStateTransition w { s with txStatus := status } .sendDone
  | .probe => mbStateTransition w s .sendDone
  | .ping => mbStateTransition w { s with txStatus := status } .sendDone

def sendWaitingTimeout (s : State) (b : Block) : State :=
  if (s.mem b).waitingEnabled then
    if isUnspecified (s.mem b).proxy then s.record (.waiting (s.mem b).message)
    else sendMbProxyQueueCommand s mailboxWaiting b
  else s

inductive Event where
  | post (buf : Bytes)
  | wakeup (node : NodeId) (isBroadcast : Bool)
  | command (c : Conn) (cmd : Command)
  | callback (i : Nat) (status : UInt8)
  | failing (node : NodeId)
  | pingTimer
  | noMoreTimer
  | waitingTimer (b : Block)
  | transmissionOk (node : NodeId)
  | abort
  | sleepLater (node : NodeId)
deriving DecidableEq, Repr

/-- One event; a callback comes if it is owed, a timer fires if it runs. -/
def step (s : State) : World × Event → State
  | (w, .post buf) => mbPostUipbuf w s buf none 0
  | (w, .wakeup node isBroadcast) => mbWakeupEvent w s node isBroadcast
  | (w, .command c cmd) => mbCommandHandler w s c cmd
  | (w, .callback i status) =>
    match s.pending[i]? with
    | none => s
    | some p => callback w { s with pending := s.pending.eraseIdx i } p status
  | (w, .failing node) => mbPurgeMessages w s node
  | (w, .pingTimer) => mbStateTransition w s .timeToPing
  | (w, .noMoreTimer) =>
    if s.noMoreTimer then mbStateTransition w { s with noMoreTimer := false } .timeout else s
  | (_, .waitingTimer b) => if b ∈ s.list then sendWaitingTimeout s b else s
  | (w, .transmissionOk node) =>
    if s.node = node then mbStateTransition w s .frameSentToNode else s
  | (_, .abort) => if mbIsBusy s then { s with fsm := .idle } else s
  | (_, .sleepLater node) =>
    if s.fsm = .idle then { s with noMoreTimer := true, fsm := .sendNoMoreInfoDelayed, node } else s

end Events

section Sample

/-- A world in which every node is known and has no wake up interval, and all that is sent is
accepted; the node id is the last byte of the address. -/
def sampleWorld (clockSeconds : Nat) : World :=
  { nodeOfIp := fun ip => (ip.getD 15 0).toUInt16
    ipOfNode := fun node => List.replicate 15 0 ++ [node.toUInt8]
    extLen := 0
    clockSeconds
    nodeKnown := fun _ => true
    nodeFailing := fun _ => false
    wakeUpInterval := fun _ => 0
    lastAwake := fun _ => 0
    nodeInProbe := fun _ => false
    probeInProgress := false
    networkManagementIdle := true
    uipBuf := []
    classic := fun _ => .pending
    classicPop := .pending
    sendDataAppl := true
    sendRequest := true
    sendPing := fun _ => true
    sendPingReq := true }

def sampleEvent (clockSeconds : Nat) (event : Event) : World × Event :=
  (sampleWorld clockSeconds, event)

def messageSent : List (World × Event) :=
  [sampleEvent 0 (.post (basicGetPacket 21 1)), sampleEvent 1000 (.wakeup 21 false),
    sampleEvent 1001 (.callback 0 transmitCompleteOk)]

end Sample

end ZipGateway.Mailbox

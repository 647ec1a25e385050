import ZipGateway.Packet

/-!
# Network management commands for sleeping nodes

`CC_NetworkManagement_queue.c` keeps the commands for nodes that are asleep in a list of blocks from a
pool of ten. A node is probed when a command for it is queued; when it is awake, its first command is
passed to network management, and the next one when network management is done.

Network management may call back into the queue before it returns, so an event comes with the events that
happen inside the call it makes. The probe is given the address of a parameter of `check_if_awake`. What
is at that address after the function has returned comes with the event as well.
-/

namespace ZipGateway.NmQueue

abbrev Block := Fin 10

structure Conn where
  ripaddr : IpAddr
  rport : UInt16
deriving DecidableEq, Repr

/-- `nm_queue_element_t`, numbered by acceptance; `timer` says whether `nak_waiting` runs. -/
structure Element where
  number : Nat
  destinationNode : NodeId
  conn : Conn
  cmd : Bytes
  timer : Bool
deriving DecidableEq, Repr

def Element.blank : Element where
  number := 0
  destinationNode := 0
  conn := ⟨0, 0⟩
  cmd := []
  timer := false

inductive Response where
  | ack
  | nak
  | waiting
deriving DecidableEq, Repr

/-- The log: what is sent, what is passed to network management and what it answers; `misused` is the use of a
free block. -/
inductive Out where
  | accepted (number : Nat) (node : NodeId)
  | udpAck (number : Nat) (conn : Conn) (status : Response)
  | passed (number : Nat)
  | answered (number : Nat) (node : NodeId) (busy : Bool)
  | probeSent (node : NodeId)
  | woken (probed node : NodeId)
  | done
  | mailboxWakeup (node : NodeId)
  | misused (e : Block)
deriving DecidableEq, Repr

structure State where
  used : Block → Bool
  elements : Block → Element
  queue : List Block
  currentExecutingNode : NodeId
  probes : List NodeId
  accepted : Nat
  log : List Out

def State.init : State where
  used _ := false
  elements _ := .blank
  queue := []
  currentExecutingNode := 0
  probes := []
  accepted := 0
  log := []

/-- What becomes of the probe when it is sent: it is refused, it is under way, or it is over before
`check_if_awake` returns. -/
inductive Air where
  | refused
  | sent
  | ended (status : UInt8)
deriving DecidableEq, Repr

/-- What happens, with what happens during a call of network management and whether its answer is
`COMMAND_BUSY`. A command comes with what the mailbox knows of its node, the end of a probe with what is at
its address. -/
inductive Event where
  | command (conn : Conn) (cmd : Bytes) (active : NodeId) (isMailbox : Bool) (air : Air)
      (nested : List Event) (busy : Bool)
  | wakeup (node : NodeId) (nested : List Event) (busy : Bool)
  | probed (k : Nat) (status : UInt8) (slot : NodeId) (nested : List Event) (busy : Bool)
  | nmDone (nested : List Event) (busy : Bool)
  | purgeNode (node : NodeId)
  | purgeAll
  | timeout (e : Block)

section Frames

def commandClassNetworkManagementProxy : UInt8 := 0x52
def commandClassNetworkManagementBasic : UInt8 := 0x4D
def commandClassNetworkManagementInclusion : UInt8 := 0x34
def nodeInfoCachedGet : UInt8 := 0x03
def nodeInformationSend : UInt8 := 0x05
def nodeNeighborUpdateRequest : UInt8 := 0x0B
def returnRouteAssign : UInt8 := 0x0D
def returnRouteDelete : UInt8 := 0x0F

def getTargetNode (cmd : Bytes) : NodeId :=
  let byte (i : Nat) := cmd.getD i 0
  if byte 0 = commandClassNetworkManagementProxy ∧ byte 1 = nodeInfoCachedGet then
    if byte 3 &&& 0x0F = 0 then
      if byte 4 = 0xFF then (byte 5).toUInt16 <<< 8 ||| (byte 6).toUInt16 else (byte 4).toUInt16
    else 0
  else if byte 0 = commandClassNetworkManagementBasic ∧ byte 1 = nodeInformationSend then
    (byte 4).toUInt16
  else if byte 0 = commandClassNetworkManagementInclusion ∧
      (byte 1 = nodeNeighborUpdateRequest ∨ byte 1 = returnRouteAssign ∨ byte 1 = returnRouteDelete) then
    (byte 3).toUInt16
  else 0

end Frames

namespace State

variable (s : State)

def put (x : Out) : State :=
  { s with log := s.log ++ [x] }

def membAlloc : Option Block :=
  (List.finRange 10).find? fun e => !s.used e

def queueCommand (conn : Conn) (node : NodeId) (cmd : Bytes) : State :=
  match s.membAlloc with
  | none => s
  | some e =>
    { s with
      used := Function.update s.used e true
      elements := Function.update s.elements e ⟨s.accepted, node, conn, cmd, true⟩
      queue := s.queue.erase e ++ [e]
      accepted := s.accepted + 1
      log := s.log ++ [.accepted s.accepted node, .udpAck s.accepted conn .waiting] }

def findElement (node : NodeId) : Option Block :=
  s.queue.find? fun e => (s.elements e).destinationNode = node

def removeElement (e : Block) (status : Response) : State :=
  let uses := if s.used e then [] else [.misused e]
  { s with
    used := Function.update s.used e false
    elements := Function.update s.elements e { s.elements e with timer := false }
    queue := s.queue.erase e
    log := s.log ++ uses ++ [.udpAck (s.elements e).number (s.elements e).conn status] }

def removeWhile (find : State → Option Block) : Nat → State → State
  | 0, s => s
  | n + 1, s =>
    match find s with
    | some e => removeWhile find n (s.removeElement e .nak)
    | none => s

def queuePurgeAll : State :=
  removeWhile (fun s => s.queue.head?) s.queue.length s

def queuePurgeNode (node : NodeId) : State :=
  removeWhile (fun s => s.findElement node) s.queue.length s

def nakWaitingTimeout (e : Block) : State :=
  if (s.elements e).timer then s.put (.udpAck (s.elements e).number (s.elements e).conn .waiting) else s

section Calls

variable (call : State → State) (busy : Bool)

def queueWakeupEvent (node : NodeId) : State × Bool :=
  match s.findElement node with
  | none => (s, false)
  | some e =>
    if s.currentExecutingNode = 0 ∨ s.currentExecutingNode = node then
      let number := (s.elements e).number
      let t := (call (s.put (.passed number))).put (.answered number node busy)
      if busy then (t, false)
      else ({ t with currentExecutingNode := node }.removeElement e .ack, true)
    else (s, false)

def checkIfAwakeCb (status : UInt8) (probed node : NodeId) : State :=
  if status = transmitCompleteOk then ((s.put (.woken probed node)).queueWakeupEvent call busy node).1
  else s

def checkIfAwake (node : NodeId) : Air → State
  | .refused => s.checkIfAwakeCb call busy transmitCompleteFail node node
  | .sent => { s.put (.probeSent node) with probes := s.probes ++ [node] }
  | .ended status => (s.put (.probeSent node)).checkIfAwakeCb call busy status node node

def queueIfTargetIsMailbox (conn : Conn) (cmd : Bytes) (active : NodeId) (isMailbox : Bool) (air : Air) : State :=
  let node := getTargetNode cmd
  if node ≠ 0 ∧ active ≠ node ∧ isMailbox then
    (s.checkIfAwake call busy node air).queueCommand conn node cmd
  else s

def queueNmDoneEvent : State :=
  let t := s.put .done
  if t.currentExecutingNode ≠ 0 then
    let r := t.queueWakeupEvent call busy t.currentExecutingNode
    if r.2 then r.1
    else { r.1 with currentExecutingNode := 0 }.put (.mailboxWakeup t.currentExecutingNode)
  else t

end Calls

end State

mutual

def step (s : State) : Event → State
  | .command conn cmd active isMailbox air nested busy =>
    s.queueIfTargetIsMailbox (fun t => steps t nested) busy conn cmd active isMailbox air
  | .wakeup node nested busy => (s.queueWakeupEvent (fun t => steps t nested) busy node).1
  | .probed k status slot nested busy =>
    match s.probes[k]? with
    | some node =>
      { s with probes := s.probes.eraseIdx k }.checkIfAwakeCb (fun t => steps t nested) busy status
        node slot
    | none => s
  | .nmDone nested busy => s.queueNmDoneEvent (fun t => steps t nested) busy
  | .purgeNode node => s.queuePurgeNode node
  | .purgeAll => s.queuePurgeAll
  | .timeout e => s.nakWaitingTimeout e

def steps (s : State) : List Event → State
  | [] => s
  | e :: es => steps (step s e) es

end

def run (events : List Event) : State :=
  Machine.run step .init events

end ZipGateway.NmQueue

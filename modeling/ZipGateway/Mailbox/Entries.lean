import ZipGateway.Packet

/-!
# The entries of the mailbox

`Mailbox.c` keeps the packets for sleeping nodes in `mb_list`, whose elements are blocks of the pool
`mb_memb`. The state machine holds a pointer to one of them, `last_entry`. A block keeps its contents
when it is freed; `list_remove` clears its `next`.

Each entry carries the number of the message it was posted with, and the log tells what happened to
the messages. Neither is in the code.
-/

namespace ZipGateway.Mailbox

def maxMailboxEntries : Nat := 2000

def uipProtoIcmp6 : UInt8 := 58
def icmp6EchoRequest : UInt8 := 128
def zipPacketFlags1MoreInformation : UInt8 := 0x20

def disableMailbox : UInt8 := 0
def enableMailboxService : UInt8 := 1
def enableMailboxProxyForwarding : UInt8 := 2

def commandClassMailbox : UInt8 := 0x69
def mailboxQueue : UInt8 := 0x04

def mailboxPush : UInt8 := 0
def mailboxPop : UInt8 := 1
def mailboxWaiting : UInt8 := 2
def mailboxPing : UInt8 := 3
def mailboxAck : UInt8 := 4
def mailboxNak : UInt8 := 5
def mailboxQueueFull : UInt8 := 6

def mailboxPopLastBit : UInt8 := 0x8

abbrev Block := Nat

/-- `mailbox_t`. -/
structure Entry where
  data : Bytes
  handle : UInt8
  proxy : Bytes
  waitingEnabled : Bool
  queuedTime : Nat
  message : Nat
deriving DecidableEq, Repr

inductive Fsm where
  | idle
  | probeWakeupInterval
  | sending
  | sendingThroughProxy
  | sendingFromProxy
  | sendingLastFromProxy
  | sendNoMoreInfo
  | sendNoMoreInfoDelayed
  | sendingPing
  | pingZipclients
deriving DecidableEq, Repr

/-- A callback that is owed: for a frame given to `ClassicZIPNode_input`, with its message if it is
one of the mailbox, for Wake Up No More Information, for the wake up interval and for a ping. -/
inductive Pending where
  | classic (message : Option Nat)
  | noMoreInfo
  | probe
  | ping
deriving DecidableEq, Repr

inductive Action where
  | accepted (message : Nat)
  | transmitted (message : Option Nat)
  | popped (message : Nat)
  | result (message : Option Nat) (status : UInt8)
  | purged (message : Nat) (zip viaProxy nacked : Bool)
  | noMoreInformation (node : NodeId)
  | proxyStatus (ok : Bool)
  | queueFull
  | waiting (message : Nat)
  | queueUpdated
deriving DecidableEq, Repr

structure Conn where
  ripaddr : Bytes
  rport : UInt16
deriving DecidableEq, Repr

structure State where
  mem : Block → Entry
  list : List Block
  count : Block → Bool
  confMode : UInt8
  fsm : Fsm
  node : NodeId
  session : Conn
  handle : UInt8
  sendNoMore : Bool
  txStatus : UInt8
  lastEntry : Option Block
  broadcastWun : Bool
  noMoreTimer : Bool
  pending : List Pending
  nextMessage : Nat
  log : List Action

/-- What the mailbox reads of the rest of the gateway in one step, and how the layers below take
what it gives them. -/
structure World where
  nodeOfIp : Bytes → NodeId
  ipOfNode : NodeId → Bytes
  extLen : Nat
  clockSeconds : Nat
  nodeKnown : NodeId → Bool
  nodeFailing : NodeId → Bool
  wakeUpInterval : NodeId → Nat
  lastAwake : NodeId → Nat
  nodeInProbe : NodeId → Bool
  probeInProgress : Bool
  networkManagementIdle : Bool
  uipBuf : Bytes
  classic : Block → Answer
  classicPop : Answer
  sendDataAppl : Bool
  sendRequest : Bool
  sendPing : Block → Bool
  sendPingReq : Bool

def State.record (s : State) (a : Action) : State :=
  { s with log := a :: s.log }

def State.owe (s : State) (p : Pending) : State :=
  { s with pending := s.pending ++ [p] }

def init (confMode : UInt8) : State :=
  { mem := fun _ =>
      { data := [], handle := 0, proxy := [], waitingEnabled := false, queuedTime := 0, message := 0 }
    list := []
    count := fun _ => false
    confMode
    fsm := .idle
    node := 0
    session := { ripaddr := List.replicate 16 0, rport := 0 }
    handle := 0
    sendNoMore := false
    txStatus := 0
    lastEntry := none
    broadcastWun := false
    noMoreTimer := false
    pending := []
    nextMessage := 0
    log := [] }

section Pool

def membAlloc (s : State) : Option Block :=
  (List.range maxMailboxEntries).find? fun b => !s.count b

def membFreeCount (s : State) : Nat :=
  ((List.range maxMailboxEntries).filter fun b => !s.count b).length

def mbFreeEntry (s : State) (b : Block) : State :=
  { s with
    list := s.list.erase b
    count := Function.update s.count b false }

def entriesFrom (s : State) : Option Block → List Block
  | none => []
  | some b => if b ∈ s.list then s.list.dropWhile (· ≠ b) else [b]

end Pool

section Messages

def isUnspecified (ip : Bytes) : Bool :=
  ip.all (· == 0)

def isMoreInfoSet (buf : Bytes) : Bool :=
  buf.getD (uipIpudphLen + 3) 0 &&& zipPacketFlags1MoreInformation ≠ 0

def mbGetDnode (w : World) (ipPkt : Bytes) : NodeId :=
  w.nodeOfIp (destIpAddr ipPkt)

def sendMbProxyQueueCommand (s : State) (command : UInt8) (b : Block) : State :=
  match membAlloc s with
  | none => s
  | some m =>
    let data := [commandClassMailbox, mailboxQueue, command, (s.mem m).handle] ++ (s.mem b).data
    { s with mem := Function.update s.mem m { s.mem m with data } }

/-- An entry `mb_failing_notify_byip` frees. -/
def outlived (w : World) (s : State) (ip : Bytes) (b : Block) : Bool :=
  destIpAddr (s.mem b).data == ip && decide ((s.mem b).queuedTime + 11 * 60 < w.clockSeconds)

def purge (w : World) (s : State) (b : Block) : State :=
  let zip := isZipPkt w.extLen (s.mem b).data
  let viaProxy := !isUnspecified (s.mem b).proxy
  mbFreeEntry (s.record (.purged (s.mem b).message zip viaProxy (zip && !viaProxy))) b

def mbFailingNotifyByip (w : World) (s : State) (ip : Bytes) : State :=
  s.list.foldl (fun s b => if outlived w s ip b then purge w s b else s) s

def mbPurgeMessages (w : World) (s : State) (node : NodeId) : State :=
  if s.confMode = enableMailboxProxyForwarding then s
  else mbFailingNotifyByip w s (w.ipOfNode node)

def forwardToProxy (w : World) (s : State) (buf : Bytes) (waiting : Bool) : State :=
  match membAlloc s with
  | none => s
  | some m =>
    let node := (w.nodeOfIp (destIpAddr buf)).toUInt8
    let data := [commandClassMailbox, mailboxQueue, 0, node] ++ buf
    { s with mem := Function.update s.mem m { s.mem m with data, waitingEnabled := waiting } }

def postedEntry (w : World) (s : State) (m : Block) (buf : Bytes) (waiting : Bool)
    (proxy : Option Bytes) (handle : UInt8) : Entry :=
  { data := buf
    handle := if proxy.isSome then handle else (s.mem m).handle
    proxy := proxy.getD (List.replicate 16 0)
    waitingEnabled := waiting
    queuedTime := w.clockSeconds
    message := s.nextMessage }

/-- `list_add` at the end of `mb_post_uipbuf`. -/
def addEntry (s : State) (m : Block) : State :=
  { s with
    list := s.list.erase m ++ [m]
    nextMessage := s.nextMessage + 1 }.record (.accepted s.nextMessage)

def fillEntry (w : World) (s : State) (m : Block) (buf : Bytes) (waiting : Bool)
    (proxy : Option Bytes) (handle : UInt8) : State :=
  { s with
    mem := Function.update s.mem m (postedEntry w s m buf waiting proxy handle)
    count := Function.update s.count m true }

def mbPostUipbuf (w : World) (s : State) (buf : Bytes) (proxy : Option Bytes) (handle : UInt8) :
    State :=
  if buf.getD 6 0 = uipProtoIcmp6 ∧ buf.getD (uipIphLen + w.extLen) 0 ≠ icmp6EchoRequest then s
  else if buf.length < uipIpudphLen then s
  else if s.confMode = disableMailbox then s
  else
    let waiting := isZipPkt w.extLen buf
    if s.confMode = enableMailboxProxyForwarding then forwardToProxy w s buf waiting
    else
      match membAlloc s with
      | none => if proxy.isNone then s.record .queueFull else s
      | some m =>
        let s := fillEntry w s m buf waiting proxy handle
        if proxy.isSome ∧ membFreeCount s = 1 then
          mbFreeEntry (sendMbProxyQueueCommand s mailboxQueueFull m) m
        else
          let dnode := w.nodeOfIp (destIpAddr buf)
          let s := addEntry s m
          if w.nodeFailing dnode then mbPurgeMessages w s dnode else s

end Messages

end ZipGateway.Mailbox

import ZipGateway.Packet

/-!
# The node queue

`node_queue.c` holds the IP packets for Z-Wave nodes in two queues of `uip-packetqueue.c`: one for
first attempts and one for the long attempts that follow. One packet at a time is given to
`ClassicZIPNode_input`, and `queue_send_done` hears what became of it. Which packet that is the code
does not remember: it is the head of the queue `queue_state` names. Every queued packet has a
lifetime timer of its own, which takes it out of its queue.

The packets carry a history the code does not have: the number of the arrival, the circumstances of
it, and what happened each time the packet was queued again.
-/

namespace ZipGateway.NodeQueue

def maxNumQueuedPackets : Nat := 64

def commandZipKeepAlive : UInt8 := 0x03

abbrev NodeMode := UInt16

def modeFrequentlyListening : NodeMode := 3
def modeMailbox : NodeMode := 4

inductive Queue where
  | firstAttempt
  | long
deriving DecidableEq, Repr

inductive QueueState where
  | idle
  | sendingFirst
  | sendingLong
deriving DecidableEq, Repr

def QueueState.queue? : QueueState → Option Queue
  | .idle => none
  | .sendingFirst => some .firstAttempt
  | .sendingLong => some .long

def Queue.sending : Queue → QueueState
  | .firstAttempt => .sendingFirst
  | .long => .sendingLong

/-- An IP packet for a Z-Wave node: longer than its header. -/
structure IpPacket where
  bytes : Bytes
  longer : uipIphLen < bytes.length
deriving DecidableEq

structure Arrival where
  queue : Queue
  marked : Bool
  mailbox : Bool
  flirs : Bool
  waiting : Bool
  empty : Bool
deriving DecidableEq, Repr

/-- One time a packet was queued again: the result that caused it, whether the mailbox was the
reason, whether the packet was still the head of its queue, what its destination was, and whether it
got the mark. -/
structure Requeue where
  status : UInt8
  mailboxBusy : Bool
  atHead : Bool
  mailbox : Bool
  flirs : Bool
  wunmi : Bool
  marked : Bool
deriving DecidableEq, Repr

/-- `uip_packetqueue_packet` with the history of its packet, latest first. -/
structure Packet where
  frame : Nat
  arrival : Arrival
  requeues : List Requeue
  buf : Bytes
deriving DecidableEq, Repr

inductive Action where
  | queued (frame : Nat)
  | handed (p : Packet) (alreadyRequeued : Bool)
  | transmissionOk (node : NodeId)
  | reported (frame : Nat) (status : UInt8) (popped : Option Nat)
  | mailbox (frame : Nat) (buf : Bytes)
  | finished (frame : Nat) (status : UInt8) (sendNack : Bool)
  | expired (frame : Nat)
deriving DecidableEq, Repr

structure State where
  firstAttempt : List Packet
  long : List Packet
  queueState : QueueState
  blackList : List UInt32
  blackListNext : Nat
  sending : Option Packet
  sendNack : Bool
  nextFrame : Nat
  log : List Action
deriving DecidableEq, Repr

/-- What the queue reads of the rest of the gateway in one step: the resource directory, the
addresses, the configuration of the mailbox, the packets that other queues hold, the length of the
IPv6 extension headers, and what lies behind the packet in the buffer it comes back in. -/
structure World where
  nodeMode : NodeId → NodeMode
  nodeOfIp : Bytes → NodeId
  mailboxEnabled : Bool
  foreign : Nat
  extLen : Nat
  stale : Bytes

def State.record (s : State) (a : Action) : State :=
  { s with log := a :: s.log }

def State.queue (s : State) : Queue → List Packet
  | .firstAttempt => s.firstAttempt
  | .long => s.long

def State.setQueue (s : State) (q : Queue) (packets : List Packet) : State :=
  match q with
  | .firstAttempt => { s with firstAttempt := packets }
  | .long => { s with long := packets }

def init : State :=
  { firstAttempt := []
    long := []
    queueState := .idle
    blackList := [0, 0]
    blackListNext := 0
    sending := none
    sendNack := false
    nextFrame := 0
    log := [] }

section PacketQueue

def Free (w : World) (s : State) : Prop :=
  s.firstAttempt.length + s.long.length + w.foreign < maxNumQueuedPackets

instance (w : World) (s : State) : Decidable (Free w s) :=
  inferInstanceAs (Decidable (_ < _))

def uipPacketqueueAlloc (w : World) (s : State) (q : Queue) (p : Packet) : Option State :=
  if Free w s then
    some (s.setQueue q (s.queue q ++ [p]))
  else
    none

def uipPacketqueuePop (s : State) (q : Queue) : State :=
  s.setQueue q (s.queue q).tail

def packetTimedout (s : State) (q : Queue) (i : Nat) : State :=
  match (s.queue q)[i]? with
  | none => s
  | some p => (s.setQueue q ((s.queue q).eraseIdx i)).record (.expired p.frame)

end PacketQueue

section Packets

def crc32Tab (i : UInt32) : UInt32 :=
  (List.range 8).foldl (fun crc _ => if crc &&& 1 = 1 then (crc >>> 1) ^^^ 0xedb88320 else crc >>> 1) i

def crc32 (buf : Bytes) (crc : UInt32) : UInt32 :=
  buf.foldl (fun crc b => crc32Tab ((crc ^^^ b.toUInt32) &&& 0xFF) ^^^ (crc >>> 8)) (crc ^^^ 0xFFFFFFFF) ^^^ 0xFFFFFFFF

def isWuNoMoreInfoFrame (w : World) (pkt : Bytes) : Bool :=
  if isZipPkt w.extLen pkt then
    let extHdrLen :=
      if pkt.getD (uipIpudphLen + 3) 0 &&& zipPacketFlags1HdrExtIncl ≠ 0 then
        (pkt.getD (uipIpudphLen + 7) 0).toNat
      else 0
    pkt.getD (uipIpudphLen + 7 + extHdrLen) 0 == commandClassWakeUp &&
      pkt.getD (uipIpudphLen + 7 + extHdrLen + 1) 0 == wakeUpNoMoreInformation
  else false

def isPacketRequeued (buf : Bytes) : Bool :=
  buf.headD 0 &&& 1 ≠ 0

def setPacketRequeued : Bytes → Bytes
  | [] => []
  | b :: buf => (b ||| 1) :: buf

def isMailboxNode (w : World) (nodeRdMode : NodeMode) : Bool :=
  w.mailboxEnabled && nodeRdMode == modeMailbox

def isFlirs (nodeRdMode : NodeMode) : Bool :=
  nodeRdMode &&& 0xFF == modeFrequentlyListening

def modeOf (w : World) (buf : Bytes) : NodeMode :=
  w.nodeMode (w.nodeOfIp (destIpAddr buf))

end Packets

section Input

def addFingerprintUipBuf (s : State) (buf : Bytes) : State :=
  { s with
    blackList := s.blackList.set s.blackListNext (crc32 buf 0xFFFF)
    blackListNext := if s.blackListNext + 1 ≥ s.blackList.length then 0 else s.blackListNext + 1 }

/-- `check_fingerprint_uip_buf`. The fingerprint it computes has 16 bits, those in the list 32. -/
def checkFingerprintUipBuf (s : State) (buf : Bytes) : Bool :=
  s.blackList.any fun entry => (crc32 buf 0xFFFF).toUInt16.toUInt32 == entry

def queuedElementsExistes (w : World) (s : State) (node : NodeId) : Bool :=
  s.long.any fun p => w.nodeOfIp (destIpAddr p.buf) == node

def bypasses (w : World) (decrypted : Bool) (buf : Bytes) : Bool :=
  let port := udpDestPort buf (uipIphLen + w.extLen)
  if port = dtlsPort ∧ decrypted = false then true
  else if port = dtlsPort ∨ port = zwavePort then
    buf.getD uipIpudphLen 0 == commandClassZip && buf.getD (uipIpudphLen + 1) 0 == commandZipKeepAlive
  else false

def arrivalOf (w : World) (s : State) (node : NodeId) (buf : Bytes) : Arrival :=
  let mailbox := isMailboxNode w (w.nodeMode node)
  let flirs := isFlirs (w.nodeMode node)
  let waiting := queuedElementsExistes w s node
  let empty := s.firstAttempt.isEmpty && s.long.isEmpty
  let useLongQ := !mailbox && (waiting || flirs || empty)
  { queue := if useLongQ then .long else .firstAttempt
    marked := isPacketRequeued buf
    mailbox
    flirs
    waiting
    empty }

def arrivedPacket (w : World) (s : State) (node : NodeId) (ip : IpPacket) : Packet :=
  { frame := s.nextFrame
    arrival := arrivalOf w s node ip.bytes
    requeues := []
    buf := ip.bytes }

def nodeInputQueued (w : World) (s : State) (node : NodeId) (decrypted : Bool) (ip : IpPacket) :
    State :=
  if bypasses w decrypted ip.bytes then s
  else if checkFingerprintUipBuf s ip.bytes then s
  else
    let s := addFingerprintUipBuf s ip.bytes
    let p := arrivedPacket w s node ip
    match uipPacketqueueAlloc w s p.arrival.queue p with
    | none => s
    | some s => { s with nextFrame := s.nextFrame + 1 }.record (.queued p.frame)

end Input

section Sending

def queueMoveToMailbox (w : World) (nodeRdMode : NodeMode) (sentBuffer : Bytes) : Bool :=
  isMailboxNode w nodeRdMode && !isWuNoMoreInfoFrame w (sentBuffer ++ w.stale)

def requeuedPacket (w : World) (head reported : Packet) (status : UInt8) (mailboxBusy mark : Bool)
    (sentBuffer : Bytes) : Packet :=
  { reported with
    buf := if mark then setPacketRequeued sentBuffer else sentBuffer
    requeues :=
      { status
        mailboxBusy
        atHead := head == reported
        mailbox := isMailboxNode w (modeOf w sentBuffer)
        flirs := isFlirs (modeOf w sentBuffer)
        wunmi := isWuNoMoreInfoFrame w (sentBuffer ++ w.stale)
        marked := mark } :: reported.requeues }

def requeue (w : World) (s : State) (head reported : Packet) (status : UInt8)
    (mailboxBusy mark : Bool) (sentBuffer : Bytes) : State :=
  if queueMoveToMailbox w (modeOf w head.buf) sentBuffer then
    s.record (.mailbox reported.frame sentBuffer)
  else
    let p := requeuedPacket w head reported status mailboxBusy mark sentBuffer
    (uipPacketqueueAlloc w s .long p).getD s

def mbNodeTransmissionOkEvent (w : World) (s : State) (head : Packet) (status : UInt8) : State :=
  if status = transmitCompleteOk then
    s.record (.transmissionOk (w.nodeOfIp (destIpAddr head.buf)))
  else s

/-- `queue_send_done` for the packet `reported`; the buffer is empty when the source passes none. -/
def queueSendDone (w : World) (s : State) (reported : Packet) (mailboxBusy : Bool) (status : UInt8)
    (sentBuffer : Bytes) : State :=
  match s.queueState.queue? with
  | none => s
  | some q =>
    match (s.queue q).head? with
    | none => { s with queueState := .idle }.record (.reported reported.frame status none)
    | some head =>
      let mode := modeOf w head.buf
      let s := mbNodeTransmissionOkEvent w s head status
      if status = transmitCompleteRequeue then
        { s with queueState := .idle }.record (.reported reported.frame status none)
      else if status = transmitCompleteRequeueQueued then
        let s := requeue w s head reported status mailboxBusy (!isFlirs mode) sentBuffer
        { uipPacketqueuePop s q with queueState := .idle }.record
          (.reported reported.frame status (some head.frame))
      else
        let s :=
          if q = .firstAttempt ∧ status = transmitCompleteNoAck ∧ sentBuffer ≠ [] then
            requeue w s head reported status mailboxBusy true sentBuffer
          else
            s.record (.finished reported.frame status s.sendNack)
        { uipPacketqueuePop s q with queueState := .idle }.record
          (.reported reported.frame status (some head.frame))

def nextQueue (s : State) : Option Queue :=
  if s.queueState ≠ .idle then none
  else if s.firstAttempt.length ≠ 0 then some .firstAttempt
  else if s.long.length ≠ 0 then some .long
  else none

/-- `ClassicZIPNode_input`, with its answer. While the mailbox is at work only requeued packets pass. -/
def classicZIPNodeInput (w : World) (s : State) (p : Packet) (mailboxBusy : Bool) (answer : Answer) : State :=
  let alreadyRequeued := isPacketRequeued p.buf
  let s := { s with sending := some p }.record (.handed p alreadyRequeued)
  if mailboxBusy && !alreadyRequeued then
    { queueSendDone w s p true transmitCompleteRequeueQueued p.buf with sending := none }
  else
    match answer with
    | .refused => { queueSendDone w s p false transmitCompleteFail [] with sending := none }
    | .pending => s
    | .completed status => { queueSendDone w s p false status p.buf with sending := none }

def processNodeQueues (w : World) (s : State) (mailboxBusy : Bool) (answer : Answer) : State :=
  match nextQueue s with
  | none => s
  | some q =>
    match (s.queue q).head? with
    | none => s
    | some p =>
      let s := { s with queueState := q.sending, sendNack := q == .long }
      if p.buf.length ≠ 0 then
        classicZIPNodeInput w s p mailboxBusy answer
      else
        uipPacketqueuePop { s with queueState := .idle } q

end Sending

inductive Event where
  | input (node : NodeId) (decrypted : Bool) (ip : IpPacket)
  | queueUpdated (mailboxBusy : Bool) (answer : Answer)
  | sendDone (status : UInt8)
  | timedout (q : Queue) (i : Nat)
deriving DecidableEq

/-- One event; a result comes for a packet that was accepted, with the bytes given away. -/
def step (s : State) : World × Event → State
  | (w, .input node decrypted ip) => nodeInputQueued w s node decrypted ip
  | (w, .queueUpdated mailboxBusy answer) => processNodeQueues w s mailboxBusy answer
  | (w, .sendDone status) =>
    match s.sending with
    | none => s
    | some p => { queueSendDone w s p false status p.buf with sending := none }
  | (_, .timedout q i) => packetTimedout s q i

section Sample

/-- Nodes up to 9 listen, nodes from 10 to 19 are FLIRS nodes and the others have a mailbox; the node
id stands in the last two bytes of the address. -/
def sampleWorld : World :=
  { nodeMode := fun node => if node < 10 then 2 else if node < 20 then 3 else 4
    nodeOfIp := fun ip => (ip.getD 14 0).toUInt16 * 256 + (ip.getD 15 0).toUInt16
    mailboxEnabled := true
    foreign := 0
    extLen := 0
    stale := [] }

def samplePacket (node seqNo : UInt8) : IpPacket :=
  { bytes := basicGetPacket node seqNo
    longer := by simp [uipIphLen, basicGetPacket] }

def sampleInput (node seqNo : UInt8) : World × Event :=
  (sampleWorld, .input node.toUInt16 false (samplePacket node seqNo))

end Sample

end ZipGateway.NodeQueue

import ZipGateway.Packet

/-!
# Sends that wait for an acknowledgement

`ZW_SendDataZIP_ack` takes one of four session blocks for a packet to an IP address and sends the packet
with an ACK request. The session ends with the acknowledgement, or with a timer. The timer is started by
a callback that goes down to `udp_send_wrap` and from there to `dtls_send`; whether and when it is called
depends on the way the packet takes.

A call of the application has a number, by which its callback is known. Calls that a callback makes
before it returns are part of the event that runs it. The answers of the network layers and of the TLS
library are those of the environment.
-/

namespace ZipGateway.UdpSession

abbrev Block := Fin 4

structure Conn where
  ripaddr : IpAddr
  lipaddr : IpAddr
  rport : UInt16
  lport : UInt16
deriving DecidableEq, Repr

/-- A call of `ZW_SendDataZIP_ack` for an IP address. -/
structure Call where
  conn : Conn
  lendpoint : UInt8
  rendpoint : UInt8
  datalen : UInt8
  hasCb : Bool
deriving DecidableEq, Repr

/-- `udp_tx_session`, with the callback by the number of its call. -/
structure Session where
  cb : Option Nat
  seq : UInt8
  srcEp : UInt8
  dstEp : UInt8
  dstIp : IpAddr
  srcIp : IpAddr
  dstPort : UInt16
deriving DecidableEq, Repr

def Session.zero : Session :=
  ⟨none, 0, 0, 0, 0, 0, 0⟩

/-- `dtls_session`: its queue counts the packets that wait for the handshake, and `user` is what the
callback is called with after it, if it is the one of a session. -/
structure Dtls where
  conn : Conn
  finished : Bool
  queue : Nat
  user : Option Block
deriving DecidableEq, Repr

structure Ack where
  ripaddr : IpAddr
  sipaddr : IpAddr
  rport : UInt16
  seqNo : UInt8
  sEndpoint : UInt8
  dEndpoint : UInt8
deriving DecidableEq, Repr

/-- `nodeOfIP`; and at every call `ipv46nat_ipv4addr_of_node`, whether the next hop is the portal,
whether a DTLS session can be had, and whether `SSL_write` writes. -/
structure Env where
  nodeOfIp : IpAddr → NodeId
  hasIpv4 : Nat → NodeId → Bool
  portal : Nat → IpAddr → Bool
  newSession : Nat → Bool
  written : Nat → Bool

inductive Out where
  | called (call : Nat)
  | sent (call : Option Nat) (seq : UInt8)
  | acked (p : Ack)
  | completed (call : Nat) (status : UInt8)
deriving DecidableEq, Repr

structure State where
  mem : Block → Session
  allocated : Block → Bool
  list : List Block
  timer : Block → Bool
  seqNo : UInt8
  dtls : List Dtls
  calls : Nat
  clock : Nat
  log : List Out

/-- `uip_is_4to6_addr`. -/
def isIpv4Mapped (ip : IpAddr) : Bool :=
  ip >>> 32 = 0xFFFF

namespace State

def init : State where
  mem := fun _ => Session.zero
  allocated := fun _ => false
  list := []
  timer := fun _ => false
  seqNo := 0
  dtls := []
  calls := 0
  clock := 0
  log := []

def put (s : State) (o : Out) : State :=
  { s with log := o :: s.log }

def complete (s : State) (cb : Option Nat) (status : UInt8) : State :=
  match cb with
  | some call => s.put (.completed call status)
  | none => s

def udpSendDone (s : State) (user : Option Block) : State :=
  match user with
  | some i => { s with timer := Function.update s.timer i true }
  | none => s

def dtlsSend (env : Env) (s : State) (conn : Conn) (user : Option Block) : State :=
  match s.dtls.find? fun d => d.conn = conn with
  | some d =>
    let d' := { d with user := user, queue := if d.finished then d.queue else d.queue + 1 }
    let s := { s with dtls := s.dtls.map fun e => if e.conn = conn then d' else e }
    if d.finished ∧ env.written s.clock then s.udpSendDone user else s
  | none =>
    if env.newSession s.clock then { s with dtls := s.dtls ++ [⟨conn, false, 1, user⟩] } else s

/-- `udp_send_wrap`. The callback of a packet is forgotten when it is queued for lack of an IPv4 source, and
when it goes to the portal. -/
def udpSendWrap (env : Env) (s : State) (conn : Conn) (user : Option Block) : State :=
  let s := { s with clock := s.clock + 1 }
  if isIpv4Mapped conn.ripaddr ∧ ¬env.hasIpv4 s.clock (env.nodeOfIp conn.lipaddr) then s
  else if env.portal s.clock conn.ripaddr then s
  else
    let s := if conn.lport ≠ dtlsPort then s.udpSendDone user else s
    if env.nodeOfIp conn.ripaddr ≠ 0 then s
    else if conn.lport = dtlsPort then s.dtlsSend env conn user
    else s

/-- `ZW_SendData_UDP`, with what it needs of the call. -/
def sendDataUdp (env : Env) (s : State) (c : Call) (i : Block) (call : Option Nat) : State :=
  let s := { s with seqNo := s.seqNo + 1 }.put (.sent call s.seqNo)
  s.udpSendWrap env c.conn (some i)

def sendDataZipAck (env : Env) (s : State) (c : Call) : State :=
  let call := if c.hasCb then some s.calls else none
  let s := { s with calls := s.calls + 1 }
  let s := match call with
    | some k => s.put (.called k)
    | none => s
  match (List.finRange 4).find? fun i => !s.allocated i with
  | some i =>
    let session : Session :=
      ⟨call, s.seqNo, c.lendpoint, c.rendpoint, c.conn.ripaddr, c.conn.lipaddr, c.conn.rport⟩
    sendDataUdp env { s with
      allocated := Function.update s.allocated i true
      mem := Function.update s.mem i session
      list := s.list ++ [i] } c i call
  | none => s.complete call transmitCompleteFail

def sendAll (env : Env) (s : State) (inside : List Call) : State :=
  inside.foldl (sendDataZipAck env) s

def finish (env : Env) (s : State) (i : Block) (status : UInt8) (inside : List Call) : State :=
  let cb := (s.mem i).cb
  let s := s.complete cb status
  let s := if cb.isSome then s.sendAll env inside else s
  { s with list := s.list.erase i, allocated := Function.update s.allocated i false }

def Session.matches (a : Session) (p : Ack) : Bool :=
  a.dstIp = p.ripaddr ∧ a.srcIp = p.sipaddr ∧ a.dstPort = p.rport ∧ a.seq = p.seqNo ∧
    a.srcEp = p.dEndpoint ∧ a.dstEp = p.sEndpoint

/-- The acknowledgements in `UDPCommandHandler`. -/
def receiveAck (env : Env) (s : State) (p : Ack) (inside : List Call) : State :=
  let s := s.put (.acked p)
  match s.list.find? fun i => Session.matches (s.mem i) p with
  | some i =>
    { s with timer := Function.update s.timer i false }.finish env i transmitCompleteOk inside
  | none => s

def ackSessionTimeout (env : Env) (s : State) (i : Block) (inside : List Call) : State :=
  if s.timer i then
    { s with timer := Function.update s.timer i false }.finish env i transmitCompleteFail inside
  else s

def initDone (s : State) (conn : Conn) : State :=
  match s.dtls.find? fun d => d.conn = conn with
  | some d =>
    let s := { s with dtls := s.dtls.map fun e => if e.conn = conn then { e with queue := 0 } else e }
    if d.queue ≠ 0 then s.udpSendDone d.user else s
  | none => s

/-- Calls, acknowledgements, timers; and what happens to DTLS sessions: a client opens one, a handshake
is over, the queued packets are sent or one of them is dropped, other traffic uses the session, it is
closed. -/
inductive Event where
  | send (c : Call)
  | ack (p : Ack) (inside : List Call)
  | timeout (i : Block) (inside : List Call)
  | accepted (conn : Conn)
  | handshake (conn : Conn)
  | initDone (conn : Conn)
  | expired (conn : Conn)
  | otherTraffic (conn : Conn)
  | closed (conn : Conn)

def step (env : Env) (s : State) : Event → State
  | .send c => s.sendDataZipAck env c
  | .ack p inside => s.receiveAck env p inside
  | .timeout i inside => s.ackSessionTimeout env i inside
  | .accepted conn => { s with dtls := s.dtls ++ [⟨conn, false, 0, none⟩] }
  | .handshake conn =>
    { s with dtls := s.dtls.map fun d => if d.conn = conn then { d with finished := true } else d }
  | .initDone conn => s.initDone conn
  | .expired conn =>
    { s with dtls := s.dtls.map fun d => if d.conn = conn then { d with queue := d.queue - 1 } else d }
  | .otherTraffic conn => { s with clock := s.clock + 1 }.dtlsSend env conn none
  | .closed conn => { s with dtls := s.dtls.filter fun d => d.conn ≠ conn }

def run (env : Env) (s : State) (events : List Event) : State :=
  Machine.run (step env) s events

end State

end ZipGateway.UdpSession

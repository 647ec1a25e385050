import ZipGateway.Packet

/-!
# Commands from IP

`UDPCommandHandler` takes the Z/IP header off a UDP payload, decides which security scheme the command
counts as received with, and queues it; `do_app_handler` hands the queued commands to the application.
There the handler of the command class is looked up, and run if the scheme is good enough for it. A
Multi Command and a Supervision Get hold commands of their own, which go the same way; the depth of this
nesting is a parameter.

A connection remembers how its packet was received, which the code has no variable for.
-/

namespace ZipGateway.Udp

def commandClassZipNd : UInt8 := 0x58
def commandZipKeepAlive : UInt8 := 0x03
def zipKeepAliveAckRequest : UInt8 := 0x80
def zipHeaderSize : Nat := 7

def flags0AckReq : UInt8 := 0x80
def flags0AckRes : UInt8 := 0x40
def flags0NackWait : UInt8 := 0x10
def flags1ZwCmdIncl : UInt8 := 0x40
def flags1SecureOrigin : UInt8 := 0x10

def encapsulationFormatInfo : UInt8 := 0x84
def efiFlagCrc16 : UInt8 := 0x01

def commandClassNetworkManagementProxy : UInt8 := 0x52
def nodeInfoCachedGet : UInt8 := 0x03
def commandClassSupervision : UInt8 := 0x6C
def supervisionGet : UInt8 := 0x01
def commandClassMultiCmd : UInt8 := 0x8F
def multiCmdEncap : UInt8 := 0x01
def commandClassManufacturerSpecific : UInt8 := 0x72
def manufacturerSpecificGet : UInt8 := 0x04
def wakeUpNotification : UInt8 := 0x07
def wakeUpIntervalReport : UInt8 := 0x06
def receiveStatusTypeMask : UInt8 := 0x0C

inductive Scheme where
  | noScheme
  | autoScheme
  | netScheme
  | useCrc16
  | scheme0
  | scheme2Unauthenticated
  | scheme2Authenticated
  | scheme2Access
  | schemeUdp
deriving DecidableEq, Repr

namespace Scheme

def prio : Scheme → Nat
  | schemeUdp => 0xFFFF
  | scheme2Access => 4
  | scheme2Authenticated => 3
  | scheme2Unauthenticated => 2
  | scheme0 => 1
  | noScheme | autoScheme | netScheme | useCrc16 => 0

def compare (a b : Scheme) : Bool :=
  b.prio ≤ a.prio

/-- `efi_to_shceme`. -/
def ofEfi (ext1 ext2 : UInt8) : Scheme :=
  if ext1 = 0x00 then if ext2 &&& efiFlagCrc16 ≠ 0 then useCrc16 else noScheme
  else if ext1 = 0x80 then scheme0
  else if ext1 = 0x01 then scheme2Unauthenticated
  else if ext1 = 0x02 then scheme2Authenticated
  else if ext1 = 0x04 then scheme2Access
  else noScheme

end Scheme

/-- `zwave_connection_t`, as far as a command from IP is checked against it. -/
structure Connection where
  scheme : Scheme
  ripaddr : IpAddr
  toMulticast : Bool
  rxFlags : UInt8
  receivedSecure : Bool
  lendpoint : UInt8
  rendpoint : UInt8
  seq : UInt8
deriving DecidableEq, Repr

structure Frame where
  mem : Mem
  len : Nat

namespace Frame

def cmdClass (f : Frame) : UInt8 := f.mem 0
def cmd (f : Frame) : UInt8 := f.mem 1

def inner (f : Frame) (off len : Nat) : Frame where
  mem i := f.mem (off + i)
  len := len

def isCachedGet (f : Frame) : Bool :=
  f.cmdClass = commandClassNetworkManagementProxy ∧ f.cmd = nodeInfoCachedGet ∧ f.mem 4 = 0

def isSupervisionGet (f : Frame) : Bool :=
  f.cmdClass = commandClassSupervision ∧ f.cmd = supervisionGet

def isManufacturerGet (f : Frame) : Bool :=
  f.cmdClass = commandClassManufacturerSpecific ∧ f.cmd = manufacturerSpecificGet

def supervised (f : Frame) : Frame :=
  f.inner 4 (f.mem 3).toNat

/-- The commands of a Multi Command from `off` on, a byte, up to one that does not fit. -/
def commandsFrom (f : Frame) : Nat → UInt8 → List Frame
  | 0, _ => []
  | n + 1, off =>
    let cmdLen := f.mem off.toNat
    if f.len ≤ off.toNat ∨ f.len < off.toNat + 1 + cmdLen.toNat then []
    else f.inner (off.toNat + 1) cmdLen.toNat :: f.commandsFrom n (off + cmdLen + 1)

def commands (f : Frame) : List Frame :=
  if f.len < 5 then [] else f.commandsFrom (f.mem 2).toNat 3

end Frame

structure Handler where
  cmdClass : UInt16
  minimalScheme : Scheme
deriving DecidableEq, Repr

inductive Code where
  | handled
  | parseError
  | busy
  | notSupported
  | classNotSupported
  | postponed
  | disabled
deriving DecidableEq, Repr

inductive Validation where
  | unknownClass
  | unknownCommand
  | unknownParameter
  | parseFail
  | parseOk
deriving DecidableEq, Repr

/-- The registered handlers, the scheme of the network and the disabled classes; what
`ZW_command_validator`, `WakeUpHandler`, the other handlers and
`rd_check_security_for_unsolicited_dest` answer; the sizes of the buffers, and whether a packet finds
room in the queue. -/
structure Env where
  handlers : List Handler
  netScheme : Scheme
  disabled : List UInt16
  validate : Frame → Validation
  wakeUp : Connection → Frame → Bool
  answer : Handler → Frame → Code
  unsolicited : Connection → Frame → Bool
  bufSize : Nat
  asyncStateSize : Nat
  room : Nat → Bool

/-- What is handed to `ApplicationIpCommandHandler`, the handlers that are run, the commands out of a
Supervision, and the rest. -/
inductive Out where
  | handed (c : Connection) (f : Frame)
  | executed (c : Connection) (fn : Handler) (f : Frame)
  | wakeUpReported (c : Connection) (f : Frame)
  | supervised (c : Connection) (session : UInt8) (f : Frame)
  | supervisionReport (c : Connection) (session : UInt8) (code : Code)
  | applicationBusy (c : Connection)
  | zipAck (optionError : Bool)
  | keepAliveAck
  | neighbourDiscovery
  | timerSet

structure Queued where
  ackReq : Bool
  conn : Connection
  frame : Frame

structure State where
  lastSrcIp : IpAddr
  lastSessionid : UInt8
  queue : List Queued
  allocated : Nat
  log : List Out

namespace State

def init : State where
  lastSrcIp := 0
  lastSessionid := 0
  queue := []
  allocated := 0
  log := []

def put (s : State) (o : Out) : State :=
  { s with log := o :: s.log }

end State

/-! ### The application -/

def supportsFrameAtSecurityLevel (env : Env) (fn : Handler) (scheme : Scheme) : Bool :=
  let scheme := if scheme = .useCrc16 then .noScheme else scheme
  if fn.minimalScheme = .netScheme then scheme = env.netScheme ∨ scheme = .schemeUdp
  else fn.minimalScheme = .noScheme ∨ scheme.compare env.netScheme ∧ scheme.compare fn.minimalScheme

def exceptionCcSecurityLevelCheck (env : Env) (scheme : Scheme) (f : Frame) : Bool :=
  env.netScheme = .scheme0 ∧ f.isManufacturerGet ∧ scheme = .noScheme

def checkHandlers (env : Env) (c : Connection) (f : Frame) :
    List Handler → Option Handler → Except Code (Option Handler)
  | [], checked => .ok checked
  | fn :: rest, checked =>
    if fn.cmdClass = f.cmdClass.toUInt16 then
      if supportsFrameAtSecurityLevel env fn c.scheme ∨ exceptionCcSecurityLevelCheck env c.scheme f then
        if fn.cmdClass ∈ env.disabled then .error .disabled
        else checkHandlers env c f rest (some fn)
      else
        .error .classNotSupported
    else
      checkHandlers env c f rest checked

/-- The code of a frame that was not validated, when it differs from `PARSE_OK`: that value is the one
of `CLASS_NOT_SUPPORTED`, which an unknown class has too. -/
def validationCode : Validation → Option Code
  | .parseOk | .unknownClass => none
  | .unknownCommand => some .notSupported
  | .unknownParameter | .parseFail => some .parseError

/-- The two functions that commands inside of commands are given to. -/
structure Nested where
  application : State → Connection → Frame → State × Connection
  run : State → Connection → Frame → Bool → Code × State × Connection

namespace Nested

variable (env : Env) (nested : Nested)

def multiCommandHandler (s : State) (c : Connection) (f : Frame) : Code × State × Connection :=
  if f.cmd ≠ multiCmdEncap then
    (.notSupported, s, c)
  else
    let (s, c) := f.commands.foldl (fun sc g => nested.application sc.1 sc.2 g) (s, c)
    (if f.len < 5 ∨ f.commands.length < (f.mem 2).toNat then .parseError else .handled, s, c)

def supervisionCommandHandler (s : State) (c : Connection) (f : Frame) : Code × State × Connection :=
  let session := f.mem 2 &&& 0x3F
  if f.cmd ≠ supervisionGet then
    (.classNotSupported, s, c)
  else if session = s.lastSessionid ∧ c.rxFlags &&& receiveStatusTypeMask = 0 ∧ s.lastSrcIp = c.ripaddr then
    (.handled, s, c)
  else
    let s := { s with lastSrcIp := c.ripaddr, lastSessionid := session }
    let (rc, s, c) := nested.run (s.put (.supervised c session f.supervised)) c f.supervised true
    if c.rxFlags &&& receiveStatusTypeMask ≠ 0 ∨ c.toMulticast then
      (.handled, s, c)
    else if rc = .classNotSupported ∧ env.unsolicited c f.supervised then
      (.classNotSupported, s, c)
    else
      (.handled, s.put (.supervisionReport c session rc), c)

def execute (s : State) (c : Connection) (fn : Handler) (f : Frame) : Code × State × Connection :=
  let s := s.put (.executed c fn f)
  if fn.cmdClass = commandClassMultiCmd.toUInt16 then nested.multiCommandHandler s c f
  else if fn.cmdClass = commandClassSupervision.toUInt16 then nested.supervisionCommandHandler env s c f
  else (env.answer fn f, s, c)

def commandHandlerRun (s : State) (c : Connection) (f : Frame) (supervisionUnwrapped : Bool) :
    Code × State × Connection :=
  if supervisionUnwrapped ∧ f.cmdClass = commandClassWakeUp ∧
      (f.cmd = wakeUpNotification ∨ f.cmd = wakeUpIntervalReport) then
    (.handled, s.put (.wakeUpReported c f), c)
  else
    match checkHandlers env c f env.handlers none with
    | .error code => (code, s, c)
    | .ok none => (.classNotSupported, s, c)
    | .ok (some fn) =>
      match validationCode (env.validate f) with
      | some code => (code, s, c)
      | none => nested.execute env s c fn f

/-- `ApplicationIpCommandHandler`, with `AURA_DEV`, as its file has it: multicast frames are run as others, and
nothing is forwarded. The scheme set for a Node Info Cached Get stays. -/
def applicationIpCommandHandler (s : State) (c : Connection) (f : Frame) : State × Connection :=
  let s := s.put (.handed c f)
  if f.len < 2 then
    (s, c)
  else if f.cmdClass = commandClassWakeUp ∧ env.wakeUp c f then
    (s, c)
  else
    let c := if f.isCachedGet then { c with scheme := .schemeUdp } else c
    match nested.commandHandlerRun env s c f false with
    | (.busy, s, c) => (s.put (.applicationBusy c), c)
    | (_, s, c) => (s, c)

end Nested

def nested (env : Env) : Nat → Nested
  | 0 => ⟨fun s c _ => (s, c), fun s c _ _ => (.classNotSupported, s, c)⟩
  | n + 1 =>
    ⟨(nested env n).applicationIpCommandHandler env, (nested env n).commandHandlerRun env⟩

/-! ### The UDP server -/

/-- A UDP payload as `UDPCommandHandler` gets it: sent to all routers or not, and from an address to answer or
not. -/
structure Payload where
  data : Mem
  len : UInt16
  ripaddr : IpAddr
  toMulticast : Bool
  toAllRouters : Bool
  sourced : Bool
  receivedSecure : Bool

namespace Payload

def flags0 (p : Payload) : UInt8 := p.data 2
def flags1 (p : Payload) : UInt8 := p.data 3

def hasExtension (p : Payload) : Bool :=
  p.flags1 &&& zipPacketFlags1HdrExtIncl ≠ 0

def extension (p : Payload) : Nat :=
  if p.hasExtension then (p.data zipHeaderSize).toNat else 0

def payloadLen (p : Payload) : Nat :=
  (p.len - UInt16.ofNat zipHeaderSize).toNat

def command (p : Payload) : Frame where
  mem i := p.data (zipHeaderSize + p.extension + i)
  len := p.payloadLen - p.extension

end Payload

inductive Parsed where
  | ok (scheme : Scheme)
  | optionError
  | drop
deriving DecidableEq, Repr

def parseOptions (data : Mem) (stop : Nat) : Nat → Nat → Scheme → Parsed
  | 0, _, _ => .drop
  | n + 1, opt, scheme =>
    if opt < stop then
      if data opt = encapsulationFormatInfo then
        if data (opt + 1) < 2 then .optionError
        else parseOptions data stop n (opt + ((data (opt + 1)).toNat + 2)) (.ofEfi (data (opt + 2)) (data (opt + 3)))
      else if data opt &&& 0x80 ≠ 0 then .optionError
      else parseOptions data stop n (opt + ((data (opt + 1)).toNat + 2)) scheme
    else if opt = stop then .ok scheme
    else .drop

def Payload.parse (p : Payload) : Parsed :=
  if p.hasExtension then
    if p.extension = 0 ∨ p.payloadLen < p.extension then .drop
    else parseOptions p.data (zipHeaderSize + p.extension) (p.extension + 1) (zipHeaderSize + 1) .autoScheme
  else .ok .autoScheme

/-- The scheme of a connection, by the option or else the transport. -/
def Payload.scheme (p : Payload) : Scheme → Scheme
  | .autoScheme =>
    if p.flags1 &&& flags1SecureOrigin ≠ 0 ∧ p.receivedSecure then .schemeUdp else .noScheme
  | scheme => scheme

namespace State

variable (env : Env) (depth : Nat)

def handOver (s : State) (q : Queued) : State :=
  let s := if q.ackReq then s.put (.zipAck false) else s
  ((nested env depth).application s q.conn q.frame).1

def doAppHandler (s : State) : State :=
  { s.queue.foldl (handOver env depth) s with queue := [] }

/-- `send_udp_ack`, when it was asked for. -/
def ackRequested (s : State) (p : Payload) (optionError : Bool) : State :=
  if p.flags0 &&& flags0AckReq ≠ 0 then s.put (.zipAck optionError) else s

def zipPacket (s : State) (p : Payload) : State :=
  if env.bufSize < p.payloadLen + env.asyncStateSize then
    s.ackRequested p false
  else if p.flags0 &&& (flags0AckRes ||| flags0NackWait) ≠ 0 then
    s
  else
    match p.parse with
    | .drop => s
    | .optionError => s.ackRequested p true
    | .ok scheme =>
      if p.command.len = 0 then
        s
      else if ¬env.room s.allocated then
        { s with allocated := s.allocated + 1 }
      else
        let conn : Connection :=
          ⟨p.scheme scheme, p.ripaddr, p.toMulticast ∧ ¬p.toAllRouters, 0, p.receivedSecure, p.data 6, p.data 5,
            p.data 4⟩
        let delayed := p.flags1 &&& flags1ZwCmdIncl ≠ 0 ∧ p.toAllRouters
        let queued : Queued := ⟨p.flags0 &&& flags0AckReq ≠ 0 ∧ ¬delayed, conn, p.command⟩
        let s := { s with allocated := s.allocated + 1, queue := s.queue ++ [queued] }
        if p.flags1 &&& flags1ZwCmdIncl ≠ 0 then
          if p.toAllRouters then s.put .timerSet else s.doAppHandler env depth
        else
          s

def udpCommandHandler (s : State) (p : Payload) : State :=
  if p.data 0 = commandClassZipNd then s.put .neighbourDiscovery
  else if p.data 0 ≠ commandClassZip then s
  else if p.toAllRouters ∧ ¬p.sourced then s
  else if p.data 1 = commandZipKeepAlive then
    if p.data 2 &&& zipKeepAliveAckRequest ≠ 0 then s.put .keepAliveAck else s
  else if p.data 1 = commandZipPacket then s.zipPacket env depth p
  else s

/-- A UDP payload arrives, the timer for multicast packets expires, or a packet has been in the queue for
too long. -/
inductive Event where
  | received (p : Payload)
  | timer
  | expired (i : Nat)

def step (s : State) : Event → State
  | .received p => s.udpCommandHandler env depth p
  | .timer => s.doAppHandler env depth
  | .expired i => { s with queue := s.queue.eraseIdx i }

def run (s : State) (events : List Event) : State :=
  Machine.run (step env depth) s events

end State

end ZipGateway.Udp

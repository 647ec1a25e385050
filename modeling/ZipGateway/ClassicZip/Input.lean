import ZipGateway.ClassicZip.Options

/-!
# Z/IP packets for Z-Wave nodes

`ClassicZIPUDP_input` of `ClassicZIPNode.c` takes a UDP payload apart: the Z/IP header, the extended header,
and the command behind them. Commands the gateway handles for the node it keeps, also inside of Supervision
encapsulations; the others it gives on.

The log says which bytes of the payload are read, which lengths its parts are taken to have, and what comes
of it.
-/

namespace ZipGateway.ClassicZip

open Udp (Scheme zipHeaderSize flags0AckReq flags0AckRes flags0NackWait flags1ZwCmdIncl flags1SecureOrigin
  commandClassSupervision supervisionGet)

def transmitCompleteError : UInt8 := 0xFF
def flags0NackRes : UInt8 := 0x20
def flags0NackOerr : UInt8 := 0x04

def commandClassIpAssociation : UInt8 := 0x5C
def commandClassZipNaming : UInt8 := 0x68
def commandClassFirmwareUpdateMd : UInt8 := 0x7A
def commandClassVersion : UInt8 := 0x86

def associationSet : UInt8 := 0x01
def associationGet : UInt8 := 0x02
def associationRemove : UInt8 := 0x04
def supervisionReport : UInt8 := 0x02
def supervisionReportSuccess : UInt8 := 0xFF
def versionCommandClassGet : UInt8 := 0x13
def versionCommandClassReport : UInt8 := 0x14

def zipNamingVersion : UInt8 := 1
def ipAssociationVersion : UInt8 := 1
def zipVersionV5 : UInt8 := 5

def versionGetFrameSize : UInt8 := 3

def classicTxBufSize : UInt16 := 1496

/-- A UDP payload, at the beginning of the memory it lies in, and whether it came over DTLS. -/
structure Packet where
  data : Mem
  len : UInt16
  secure : Bool

namespace Packet

def flags0 (p : Packet) : UInt8 := p.data 2
def flags1 (p : Packet) : UInt8 := p.data 3

def ackReq (p : Packet) : Bool :=
  p.flags0 &&& flags0AckReq ≠ 0

def secureOrigin (p : Packet) : Bool :=
  p.flags1 &&& flags1SecureOrigin ≠ 0

def hasExtension (p : Packet) : Bool :=
  p.flags1 &&& zipPacketFlags1HdrExtIncl ≠ 0

def isZip (p : Packet) : Bool :=
  p.data 0 == commandClassZip && p.data 1 == commandZipPacket

end Packet

/-- What the rest of the gateway is doing, and what it answers. -/
structure World where
  bridgeInitialized : Bool
  nmIdle : Bool
  nmWaitForProbeBySis : Bool
  fromMailbox : Bool
  requeued : Bool
  mbIsBusy : Bool
  /-- The node has got to `STATUS_MDNS_PROBE`. -/
  probed : Bool
  /-- The sender is the virtual node of a proxy IP association. -/
  proxied : Bool
  sendingFirst : Bool
  /-- `ZW_command_handler_run` handles the command at an offset. -/
  commandHandled : Nat → UInt8 → Bool
  tempAssocCreated : Bool
  /-- `bSendNAck`. -/
  sendNack : Bool
  /-- `flags0` of the packet that lies in `uip_buf`. -/
  uipFlags0 : UInt8

inductive Action where
  | read (offset : Nat)
  /-- The part from an offset on is taken to have this length. -/
  | taken (offset length : Nat)
  | resumedBridgeInit
  | ackReceived
  | udpStatus (flags0 : UInt8)
  | nakWaitTimer
  | sendCompleted (status : UInt8)
  | ipAssociation (cmd : UInt8)
  | sentZip (data : Bytes)
  | forwarded (scheme : Scheme) (data : Bytes)
deriving DecidableEq, Repr

section Handlers

variable (w : World) (p : Packet)

def handleIpAssociation (payload : Nat) (len : UInt8) : List Action × Bool :=
  let cmd := p.data (payload + 1)
  ([.taken payload len.toNat, .read (payload + 1)] ++
    if w.sendingFirst ∧ cmd ≠ associationGet then [.sendCompleted transmitCompleteNoAck]
    else if cmd = associationSet ∨ cmd = associationRemove ∨ cmd = associationGet then [.ipAssociation cmd]
    else [.sendCompleted transmitCompleteOk], true)

def theVersion (cmdClass : UInt8) : UInt8 :=
  if cmdClass = commandClassZip then zipVersionV5
  else if cmdClass = commandClassIpAssociation then ipAssociationVersion
  else if cmdClass = commandClassZipNaming then zipNamingVersion
  else 0

def handleVersion (payload : Nat) (len : UInt8) (ackReq : Bool) : List Action × Bool :=
  if len < versionGetFrameSize then
    ([.taken payload len.toNat], false)
  else if p.data (payload + 1) = versionCommandClassGet then
    let cmdClass := p.data (payload + 2)
    let reads := [.taken payload len.toNat, .read (payload + 1), .read (payload + 2)]
    if theVersion cmdClass ≠ 0 then
      (reads ++ (if ackReq then [.udpStatus flags0AckRes] else []) ++
        [.sentZip [commandClassVersion, versionCommandClassReport, cmdClass, theVersion cmdClass]], true)
    else
      (reads, false)
  else
    ([.taken payload len.toNat, .read (payload + 1)], false)

/-- `proxy_command_handler`, also for what is in a Supervision encapsulation; the handlers for IP associations
and versions get `zip_payload_len`. Without fuel, the reads are outside of the packet. -/
def proxyCommandHandler (zipPayloadLen : UInt16) (ackReq : Bool) : Nat → Nat → UInt8 → List Action × Bool
  | 0, _, _ => ([], false)
  | n + 1, payload, len =>
    let cmdClass := p.data payload
    if cmdClass = commandClassIpAssociation then
      let (actions, handled) := handleIpAssociation w p payload zipPayloadLen.toUInt8
      (.read payload :: (if ackReq then [.nakWaitTimer] else []) ++ actions, handled)
    else if cmdClass = commandClassZipNaming then
      (.read payload :: (if ackReq then [.udpStatus flags0AckRes] else []) ++ [.taken payload len.toNat] ++
        (if w.commandHandled payload len then [.sendCompleted transmitCompleteOk] else []),
        w.commandHandled payload len)
    else if cmdClass = commandClassVersion then
      let (actions, handled) := handleVersion p payload zipPayloadLen.toUInt8 ackReq
      (.read payload :: actions, handled)
    else if cmdClass = commandClassSupervision then
      if p.data (payload + 1) = supervisionGet then
        let encapsulatedCommandLength := p.data (payload + 3)
        let (actions, handled) :=
          proxyCommandHandler zipPayloadLen ackReq n (payload + 4) encapsulatedCommandLength
        ([.read payload, .read (payload + 1), .read (payload + 3),
          .taken (payload + 4) encapsulatedCommandLength.toNat] ++ actions ++
          (if handled then
            [.read (payload + 2), .sentZip [commandClassSupervision, supervisionReport,
              p.data (payload + 2) &&& 0x3F, supervisionReportSuccess, 0]]
          else []), handled)
      else
        ([.read payload, .read (payload + 1)], false)
    else
      ([.read payload], false)

end Handlers

section Input

variable (w : World) (p : Packet)

def dropFrame : List Action :=
  (if w.uipFlags0 &&& flags0AckReq ≠ 0 then [.udpStatus flags0NackRes] else []) ++
    [.sendCompleted transmitCompleteError]

def optError : List Action :=
  (if w.uipFlags0 &&& flags0AckReq ≠ 0 then [.udpStatus (flags0NackRes ||| flags0NackOerr)] else []) ++
    [.sendCompleted transmitCompleteError]

def World.busy : Bool :=
  (!(w.fromMailbox || w.requeued) && w.mbIsBusy) || (!w.nmIdle && !w.nmWaitForProbeBySis) || !w.probed

def forwardCommand (zipPayloadLen : UInt16) (payload : Nat) (scheme : Scheme) : List Action :=
  .taken payload zipPayloadLen.toNat ::
    if w.tempAssocCreated then
      [.forwarded scheme (p.data.slice payload zipPayloadLen.toNat), .read payload] ++
        if p.data payload = commandClassFirmwareUpdateMd then [.read (payload + 1)] else []
    else
      (if w.sendNack then [.udpStatus flags0NackRes] else []) ++ [.sendCompleted transmitCompleteError]

def zipCommand (zipPayloadLen : UInt16) (payload : Nat) (scheme : Scheme) : List Action :=
  if p.flags1 &&& flags1ZwCmdIncl = 0 ∨ zipPayloadLen = 0 then
    dropFrame w
  else if classicTxBufSize < zipPayloadLen then
    dropFrame w
  else if w.busy then
    [.read payload, .sendCompleted transmitCompleteRequeueQueued, .read 0]
  else if w.proxied then
    [.read payload, .forwarded scheme (p.data.slice zipHeaderSize zipPayloadLen.toNat)]
  else
    let (actions, handled) :=
      proxyCommandHandler w p zipPayloadLen p.ackReq p.len.toNat payload zipPayloadLen.toUInt8
    .read payload :: actions ++ if handled then [] else forwardCommand w p zipPayloadLen payload scheme

def zipExtension (zipPayloadLen : UInt16) (scheme : Scheme) : List Action :=
  let size := p.data zipHeaderSize
  if size = 1 ∨ (size.toNat : Int) - 1 > zipPayloadLen.toNat then
    .read zipHeaderSize :: dropFrame w
  else
    -- The length of the options has 16 bits, also when there is no room for the size itself.
    let length := size.toUInt16 - 1
    let hdr := parseCcZipExtHdr (fun i => p.data (zipHeaderSize + 1 + i)) length scheme
    [.read zipHeaderSize, .taken (zipHeaderSize + 1) length.toNat] ++
      hdr.reads.map (fun i => .read (zipHeaderSize + 1 + i)) ++
      match hdr.rc with
      | .dropFrame => dropFrame w
      | .optError => optError w
      | .success =>
        let rest := zipPayloadLen - (length + 1)
        let payload := zipHeaderSize + (length.toNat + 1)
        .taken payload rest.toNat :: zipCommand w p rest payload hdr.scheme

def zipPacket : List Action :=
  let zipPayloadLen := p.len - UInt16.ofNat zipHeaderSize
  let scheme : Scheme := if p.secureOrigin then .autoScheme else .noScheme
  [.taken zipHeaderSize zipPayloadLen.toNat, .read 2, .read 4, .read 6, .read 5, .read 3] ++
    if p.secureOrigin ∧ ¬p.secure then
      dropFrame w
    else
      (if p.flags0 &&& flags0AckRes ≠ 0 then [.ackReceived] else []) ++
        if p.hasExtension then zipExtension w p zipPayloadLen scheme
        else zipCommand w p zipPayloadLen zipHeaderSize scheme

def notZip : List Action :=
  (if p.data 0 = 0x16 then .read 1 :: if p.data 1 = 0xFE then [.read 2] else [] else []) ++
    [.sendCompleted transmitCompleteError]

def classicZipUdpInput : List Action × Bool :=
  if ¬w.bridgeInitialized ∧ ¬w.nmWaitForProbeBySis then
    ([.resumedBridgeInit], false)
  else
    (.read 0 :: (if p.data 0 = commandClassZip then [.read 1] else []) ++
      if p.isZip then zipPacket w p else notZip p, true)

end Input

end ZipGateway.ClassicZip

import ZipGateway.Nodemask

/-!
# IP packets for Z-Wave nodes

The fields of the IPv6, UDP and Z/IP headers that the queues look at, and the results they get from
the layers below.
-/

namespace ZipGateway

abbrev IpAddr := BitVec 128

def uipIphLen : Nat := 40
def uipIpudphLen : Nat := 48
def uipProtoUdp : UInt8 := 17

def zwavePort : UInt16 := 4123
def dtlsPort : UInt16 := 41230

def commandClassZip : UInt8 := 0x23
def commandZipPacket : UInt8 := 0x02
def zipPacketFlags1HdrExtIncl : UInt8 := 0x80
def commandClassWakeUp : UInt8 := 0x84
def wakeUpNoMoreInformation : UInt8 := 0x08

def transmitCompleteOk : UInt8 := 0x00
def transmitCompleteNoAck : UInt8 := 0x01
def transmitCompleteFail : UInt8 := 0x02
def transmitCompleteRequeueQueued : UInt8 := 0xFD
def transmitCompleteRequeue : UInt8 := 0xFE

def udpDestPort (buf : Bytes) (off : Nat) : UInt16 :=
  (buf.getD (off + 2) 0).toUInt16 * 256 + (buf.getD (off + 3) 0).toUInt16

def destIpAddr (buf : Bytes) : Bytes :=
  (buf.drop 24).take 16

def isZipPkt (extLen : Nat) (pkt : Bytes) : Bool :=
  if pkt.getD 6 0 ≠ uipProtoUdp then false
  else if udpDestPort pkt (uipIphLen + extLen) ≠ dtlsPort ∧ udpDestPort pkt (uipIphLen + extLen) ≠ zwavePort then false
  else if pkt.getD uipIpudphLen 0 ≠ commandClassZip then false
  else decide (pkt.getD (uipIpudphLen + 1) 0 = commandZipPacket)

/-- How `ClassicZIPNode_input` takes a packet: it returns false, it owes the result, or it has
reported the result before it returns. -/
inductive Answer where
  | refused
  | pending
  | completed (status : UInt8)
deriving DecidableEq, Repr

def basicGetPacket (node seqNo : UInt8) : Bytes :=
  [0x60, 0, 0, 0, 0, 17, 17, 64] ++ List.replicate 16 1 ++ (List.replicate 15 0 ++ [node]) ++
    [0x10, 0x1B, 0x10, 0x1B, 0, 17, 0, 0] ++ [0x23, 0x02, 0, 0x40, seqNo, 0, 0, 0x20, 0x02]

end ZipGateway

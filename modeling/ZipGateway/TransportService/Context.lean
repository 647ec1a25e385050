import ZipGateway.Lib.Crc
import ZipGateway.Packet

/-!
# The Transport Service and its surroundings

The control blocks `scb` and `rcb` of `transport_service2.c` with the other variables of that file,
as the gateway builds it (`ZIPGW`, `TIMER`). Integers are natural numbers, cut to their width where
the code stores them in one; the operations between are on `int` and do not wrap. Left out are the
transmission reports and `round_trip_first_frag`, which only stretches a delay.

Around the code stand the layer below (`TS_SEND_RAW`), the timers, the application that receives
datagrams and the callers that wait for their `completedFunc`. The state carries a log of the calls
in both directions, newest first, and the callbacks the layer below still owes; the code reads
neither. The application and the `completedFunc` return before the next call of the module.
-/

namespace ZipGateway

def datagramSizeMax : Nat := 200
def fragmentMaxPayloadDefault : Nat := 47

def commandClassTransportService : UInt8 := 0x55
def commandFirstFragment : UInt8 := 0xC0
def commandSubsequentFragment : UInt8 := 0xE0
def commandSegmentRequest : UInt8 := 0xC8
def commandSegmentComplete : UInt8 := 0xE8
def commandSegmentWait : UInt8 := 0xF0

def receiveStatusTypeSingle : UInt8 := 0x00
def receiveStatusTypeBroad : UInt8 := 0x04

def transmitOptionAck : UInt8 := 0x01
def transmitOptionNoRoute : UInt8 := 0x10
def transmitOptionExplore : UInt8 := 0x20

/-- `rcb.cmn.session_id` while no datagram is being received. -/
def noSession : Nat := 0x10

def crcPoly : BitVec 16 := 0x1021
def crcInitValue : BitVec 16 := 0x1D0F

def zgwCrc16 (crc16 : BitVec 16) (data : Bytes) : BitVec 16 :=
  Crc.bytes crcPoly crc16 data

structure TsParam where
  snode : NodeId
  dnode : NodeId
  txFlags : UInt8
  rxFlags : UInt8
deriving DecidableEq, Repr

def TsParam.zero : TsParam :=
  { snode := 0, dnode := 0, txFlags := 0, rxFlags := 0 }

inductive T2State where
  | idle
  | receiving
  | sendFragComplete
  | sendFragReq
  | sendFragWait
  | findMissFrag
  | sendFrag
  | sendLastFrag
  | waitAck
deriving DecidableEq, Repr

inductive T2Event where
  | startRecv
  | recvNewFrag
  | noSessionId
  | sendFragComplete
  | noSendFragComplete
  | success
  | success2
  | success3
  | fragRxTimer
  | missingFrag
  | missingFragBcast
  | scastDiffNode
  | bcastDiffNode
  | diffSession
  | subseqDiffSession
  | fragReqComplWaitDiffSession
  | fragReqComplWaitDiffNode
  | recvFragReq
  | recvLastFrag
  | recvFragComplete
  | tieBreak
  | duplFrame
  | fragReqOrCompl
  | startSend
  | sendNewFrag
  | sendNxtMissFrag
  | sentMissFrag
  | recvFragWait
  | sendLastFrag
  | sendLastMissFrag
  | fragComplTimer
  | fragComplTimer2
  | fragComplTimerReq
  | failureLastFrag2
  | recvFragCompl
  | replyFragReqDone
  | fail
deriving DecidableEq, Repr

inductive Timer where
  | fc
  | rx
  | reset
  | waitRestart
  | btwn2Frags
deriving DecidableEq, Repr

inductive TxCallback where
  | tsSenddataCb
  | tempCallbackReplyFragReq
  | tempCallbackLastFrag
deriving DecidableEq, Repr

structure ControlBlock where
  p : TsParam
  sessionId : Nat
  pendingSegments : Nat

def ControlBlock.zero : ControlBlock :=
  { p := TsParam.zero, sessionId := 0, pendingSegments := 0 }

/-- `struct sending_cntrl_blk`. Behind the 15 entries of `frag_compl_list` is `flag_send_frag_wait`, which the
sixteenth session id reads and writes. `completedFunc` is the number of the call that supplied it. -/
structure SendingCntrlBlk where
  datalenToSend : Nat
  missingOffset : Nat
  offset : Nat
  remainingDataLen : Nat
  cmn : ControlBlock
  completedFunc : Option Nat
  datagram : Mem
  datagramLen : Nat
  sending : Bool
  flagRepliedFragReq : Bool
  transmissionAborted : Nat
  fragComplList : Nat → Bool
  flagReplyFragReq : Bool
  fragWaitP : TsParam
  flagFcTimerExpiredOnce : Bool
  currentDnode : NodeId
  doesNotFitInFirstFrag : Bool

structure ReceivingCntrlBlk where
  cmn : ControlBlock
  flagRetryFragReqOnce : Nat
  rxDataState : Bool
  recvFragComplList : Nat → Bool
  datagramData : Mem
  curRecvdDataSize : Nat
  currentSnode : NodeId
  bytesRecvdBitmask : Mem
  datagramSize : Nat

/-- The calls into the module and out of it: `received` has the length a frame is said to have, `opened`,
`discarded` and `delivered` are about a reassembly, `called`, `started` and `completed` about a call of
`ZW_TransportService_SendData`. -/
inductive TsOut where
  | received (p : TsParam) (pCmd : Mem) (cmdLength : Nat)
  | opened
  | delivered (snode dnode : NodeId) (data : Bytes)
  | discarded
  | called (call : Nat) (p : TsParam) (accepted : Bool)
  | started (call : Option Nat) (session : Nat)
  | completed (call : Nat) (status : UInt8)
  | sendRaw (snode dnode : NodeId) (frame : Bytes) (txFlags : UInt8) (ok : Bool)

/-- The answers of the world around the module, each in the sequence they are asked for: whether
`TS_SEND_RAW` takes a frame, and how often it refuses a last fragment before it takes it. -/
structure TsEnv where
  myNodeId : NodeId
  rand : Nat → Nat
  tsSendRaw : Nat → Bool
  refusals : Nat → Nat

structure TransportService where
  scb : SendingCntrlBlk
  rcb : ReceivingCntrlBlk
  currentState : T2State
  flagTieBroken : Bool
  flagInitializeOnce : Bool
  fragmentMaxPayload : Nat
  t2TxBuf : Mem
  timers : Timer → Bool
  owed : List TxCallback
  nCalls : Nat
  nRaw : Nat
  nLast : Nat
  nRand : Nat
  out : List TsOut

namespace TransportService

def log (s : TransportService) (o : TsOut) : TransportService :=
  { s with out := o :: s.out }

def ctimerSet (s : TransportService) (t : Timer) : TransportService :=
  { s with timers := Function.update s.timers t true }

def ctimerStop (s : TransportService) (t : Timer) : TransportService :=
  { s with timers := Function.update s.timers t false }

/-- The byte behind `frag_compl_list`. -/
def flagSendFragWait (s : TransportService) : Bool :=
  s.scb.fragComplList 15

def setFragComplList (s : TransportService) (i : Nat) (b : Bool) : TransportService :=
  { s with scb.fragComplList := Function.update s.scb.fragComplList i b }

def setFlagSendFragWait (s : TransportService) (b : Bool) : TransportService :=
  s.setFragComplList 15 b

def handOver (s : TransportService) (snode dnode : NodeId) (frame : Bytes) (txFlags : UInt8)
    (cb : Option TxCallback) (ok : Bool) : TransportService :=
  { s with
    owed := if ok then cb.toList ++ s.owed else s.owed
    out := .sendRaw snode dnode frame txFlags ok :: s.out }

def tsSendRaw (env : TsEnv) (s : TransportService) (snode dnode : NodeId) (buf : Mem) (len : Nat)
    (txFlags : UInt8) (cb : Option TxCallback) : Bool × TransportService :=
  (env.tsSendRaw s.nRaw, ({ s with nRaw := s.nRaw + 1 }).handOver snode dnode (buf.slice 0 (len % 256)) txFlags cb
      (env.tsSendRaw s.nRaw))

def complete (s : TransportService) (status : UInt8) : TransportService :=
  match s.scb.completedFunc with
  | some call => s.log (.completed call status)
  | none => s

def init : TransportService where
  scb :=
    { datalenToSend := 0, missingOffset := 0, offset := 0, remainingDataLen := 0
      cmn := ControlBlock.zero, completedFunc := none, datagram := fun _ => 0, datagramLen := 0
      sending := false, flagRepliedFragReq := false, transmissionAborted := 0
      fragComplList := fun _ => false, flagReplyFragReq := false, fragWaitP := TsParam.zero
      flagFcTimerExpiredOnce := false, currentDnode := 0, doesNotFitInFirstFrag := false }
  rcb :=
    { cmn := ControlBlock.zero, flagRetryFragReqOnce := 0, rxDataState := false
      recvFragComplList := fun _ => false, datagramData := fun _ => 0, curRecvdDataSize := 0
      currentSnode := 0, bytesRecvdBitmask := fun _ => 0, datagramSize := 0 }
  currentState := .idle
  flagTieBroken := false
  flagInitializeOnce := true
  fragmentMaxPayload := 0
  t2TxBuf := fun _ => 0
  timers := fun _ => false
  owed := []
  nCalls := 0
  nRaw := 0
  nLast := 0
  nRand := 0
  out := []

end TransportService

end ZipGateway

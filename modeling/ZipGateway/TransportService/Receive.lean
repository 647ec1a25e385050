import ZipGateway.TransportService.Send

/-!
# The receiving side

The functions of `transport_service2.c` that put fragments together again, ask for the missing ones
and answer the frames of a receiver, and the handler every frame enters through. A frame is the
memory its pointer leads to and the length it is said to have: the handler reads its first five
bytes whatever that length is.
-/

namespace ZipGateway

def cmdType (pCmd : Mem) : UInt8 :=
  pCmd 1 &&& 0xf8

def fragSession (pCmd : Mem) : Nat :=
  ((pCmd 3 &&& 0xf0) >>> 4).toNat

def segmentSession (pCmd : Mem) : Nat :=
  ((pCmd 2 &&& 0xf0) >>> 4).toNat

def fragDatagramSize (pCmd : Mem) : Nat :=
  ((pCmd 1 &&& 0x07).toNat <<< 8) + (pCmd 2).toNat

def fragDatagramOffset (pCmd : Mem) : Nat :=
  ((pCmd 3 &&& 0x07).toNat <<< 8) + (pCmd 4).toNat

def segmentOffset (pCmd : Mem) : Nat :=
  ((pCmd 2 &&& 0x07).toNat <<< 8) ||| (pCmd 3).toNat

def fcsOk (pCmd : Mem) (len : Nat) : Bool :=
  zgwCrc16 crcInitValue (pCmd.slice 0 len) = 0

def firstFragNonpayloadLength : Nat := 6
def subseqFragNonpayloadLength : Nat := 7
def firstHdrLen : Nat := 4
def subseqHdrLen : Nat := 5

def markBytes (mask : Mem) (i : Nat) : Nat → Mem
  | 0 => mask
  | size + 1 =>
    let mask := Function.update mask (i / 8) (mask (i / 8) ||| (1 <<< UInt8.ofNat (i % 8)))
    if datagramSizeMax < i then mask else markBytes mask (i + 1) size

/-- The bits of `bytes_recvd_bitmask` in the order of the loops over them. -/
def bitmaskBits : List (Nat × Nat) :=
  (List.range (datagramSizeMax / 8 + 1)).flatMap fun i => (List.range 8).map fun j => (i, j)

namespace TransportService

def getNextMissingOffset (s : TransportService) : Nat :=
  let clear := fun (i, j) =>
    s.rcb.bytesRecvdBitmask i &&& (1 <<< UInt8.ofNat j) == 0 && i * 8 + j != 0
  match bitmaskBits.find? clear with
  | some (i, j) => if s.rcb.datagramSize ≤ i * 8 + j then 0 else i * 8 + j
  | none => 0

def discardAllReceivedFragments (s : TransportService) : TransportService :=
  ({ s with
    rcb.datagramData := fun _ => 0
    rcb.cmn := { ControlBlock.zero with sessionId := noSession }
    rcb.currentSnode := 0
    rcb.bytesRecvdBitmask := fun _ => 0 }).log .discarded

def sendFragWaitOrFlag (env : TsEnv) (s : TransportService) : TransportService :=
  if s.scb.sending then s.setFlagSendFragWait true else sendFragWaitCmd env s

def markFragReceived (env : TsEnv) (s : TransportService) (offset size : Nat) : Bool × TransportService :=
  if offset ≠ 0 ∧ s.rcb.bytesRecvdBitmask 0 &&& 1 = 0 then
    (true, sendFragWaitOrFlag env (s.t2SmPostEvent .subseqDiffSession))
  else
    (false, { s with rcb.bytesRecvdBitmask := markBytes s.rcb.bytesRecvdBitmask offset size })

def sendFragCompleteCmd (env : TsEnv) (s : TransportService) : TransportService :=
  if 0x0f < s.rcb.cmn.sessionId then s
  else
    let p := s.rcb.cmn.p
    let fragCompl := Mem.ofBytes [commandClassTransportService, commandSegmentComplete &&& 0xf8,
      UInt8.ofNat (s.rcb.cmn.sessionId <<< 4)]
    let r := (s.ctimerSet .reset).tsSendRaw env p.dnode p.snode fragCompl 3 (p.txFlags ||| transmitOptionAck) none
    let s := r.2.log (.delivered p.snode p.dnode (s.rcb.datagramData.slice 0 s.rcb.datagramSize))
    let s := { s with
      rcb.recvFragComplList := Function.update s.rcb.recvFragComplList s.rcb.cmn.sessionId true
      rcb.cmn.sessionId := noSession
      rcb.currentSnode := 0 }
    (s.ctimerStop .rx).t2SmPostEvent .success

def retryFragReq (env : TsEnv) (s : TransportService) : Nat → TransportService
  | 0 =>
    ((s.ctimerSet .reset).tsSendRaw env s.rcb.cmn.p.dnode s.rcb.cmn.p.snode s.t2TxBuf 4
      (s.rcb.cmn.p.txFlags ||| transmitOptionAck) none).2
  | retries + 1 =>
    let r := (s.ctimerSet .reset).tsSendRaw env s.rcb.cmn.p.dnode s.rcb.cmn.p.snode s.t2TxBuf 4
      (s.rcb.cmn.p.txFlags ||| transmitOptionAck) none
    if r.1 then r.2
    else retryFragReq env { r.2 with rcb.flagRetryFragReqOnce := retries } retries

def fragReqFrame (session offset : Nat) : Bytes :=
  [commandClassTransportService, commandSegmentRequest &&& 0xf8,
   UInt8.ofNat (session <<< 4) ||| UInt8.ofNat ((offset &&& 0x700) >>> 8),
   UInt8.ofNat (offset &&& 0xff)]

def sendFragReqCmd (env : TsEnv) (s : TransportService) : TransportService :=
  let offsetToRequest := s.getNextMissingOffset
  if offsetToRequest = 0 then s.t2SmPostEvent .success
  else if 0x0f < s.rcb.cmn.sessionId then s
  else
    let s := { s with
      t2TxBuf := s.t2TxBuf.write 0 (fragReqFrame s.rcb.cmn.sessionId offsetToRequest) }
    let s := retryFragReq env s s.rcb.flagRetryFragReqOnce
    (({ s with rcb.rxDataState := true }).t2SmPostEvent .success).ctimerSet .rx

def findMissing (env : TsEnv) (s : TransportService) : TransportService :=
  let missingFrag := s.getNextMissingOffset % 256
  if missingFrag ≠ 0 then
    if s.rcb.cmn.p.rxFlags = receiveStatusTypeBroad then s.discardAllReceivedFragments
    else sendFragReqCmd env (s.t2SmPostEvent .missingFrag)
  else if s.rcb.cmn.p.rxFlags = receiveStatusTypeBroad then s
  else sendFragCompleteCmd env (s.t2SmPostEvent .sendFragComplete)

def rxTimerExpired (env : TsEnv) (s : TransportService) : TransportService :=
  let s := (s.ctimerStop .rx).t2SmPostEvent .fragRxTimer
  if s.rcb.rxDataState ∧ s.getNextMissingOffset ≠ 0 then s.discardAllReceivedFragments
  else findMissing env s

def resetTransportService (s : TransportService) : TransportService :=
  ({ s.ctimerStop .reset with currentState := .idle }).discardAllReceivedFragments

def abortIfTieBroken (s : TransportService) : TransportService :=
  if s.flagTieBroken then { s with scb.transmissionAborted := s.scb.cmn.sessionId } else s

def openSession (s : TransportService) (pCmd : Mem) (len : Nat) : TransportService :=
  let size := len - firstFragNonpayloadLength
  (({ s with
    rcb.cmn.sessionId := fragSession pCmd
    rcb.recvFragComplList := Function.update s.rcb.recvFragComplList (fragSession pCmd) false
    rcb.curRecvdDataSize := size
    rcb.datagramSize := fragDatagramSize pCmd
    rcb.bytesRecvdBitmask := fun _ => 0
    rcb.currentSnode := s.rcb.cmn.p.snode
    rcb.datagramData := s.rcb.datagramData.write 0 (pCmd.slice firstHdrLen size) }).ctimerSet .rx).log
    .opened

def finishFirstFragment (env : TsEnv) (m : Bool × TransportService) : TransportService :=
  if m.1 then m.2
  else if m.2.rcb.curRecvdDataSize = m.2.rcb.datagramSize then
    sendFragCompleteCmd env (m.2.t2SmPostEvent .sendFragComplete)
  else { m.2 with rcb.rxDataState := false }

def receiveFirstFragment (env : TsEnv) (s : TransportService) (pCmd : Mem) (len : Nat) :
    TransportService :=
  if len ≤ firstFragNonpayloadLength ∨ fcsOk pCmd len = false then s.t2SmPostEvent .recvNewFrag
  else if fragSession pCmd ≠ s.rcb.cmn.sessionId ∧ s.rcb.cmn.sessionId ≠ noSession then
    s.t2SmPostEvent .diffSession
  else if datagramSizeMax < fragDatagramSize pCmd then s.t2SmPostEvent .diffSession
  else
    finishFirstFragment env (markFragReceived env (s.openSession pCmd len) 0 (len - firstFragNonpayloadLength))

def dropDuplicate (s : TransportService) : TransportService :=
  if s.currentState = .receiving then s.t2SmPostEvent .duplFrame else s

def storeSubseqFragment (s : TransportService) (pCmd : Mem) (size : Nat) : TransportService :=
  { s with
    rcb.datagramSize := fragDatagramSize pCmd
    rcb.datagramData :=
      s.rcb.datagramData.write (fragDatagramOffset pCmd) (pCmd.slice subseqHdrLen size) }

def finishSubseqFragment (env : TsEnv) (m : Bool × TransportService) (pCmd : Mem) (size : Nat) :
    TransportService :=
  if m.1 then m.2
  else if fragDatagramSize pCmd ≤ fragDatagramOffset pCmd + size then
    findMissing env ((m.2.storeSubseqFragment pCmd size).t2SmPostEvent .recvLastFrag)
  else { m.2.storeSubseqFragment pCmd size with rcb.rxDataState := false }

def setCurRecvdDataSize (s : TransportService) (size : Nat) : TransportService :=
  { s with rcb.curRecvdDataSize := size }

def receiveSubsequentFragment (env : TsEnv) (s : TransportService) (pCmd : Mem) (len : Nat) :
    TransportService :=
  let size := len - subseqFragNonpayloadLength
  if len ≤ subseqFragNonpayloadLength ∨ fcsOk pCmd len = false then s.t2SmPostEvent .recvNewFrag
  else if s.rcb.recvFragComplList (fragSession pCmd) then s.dropDuplicate
  else if fragSession pCmd ≠ s.rcb.cmn.sessionId ∧ s.rcb.cmn.sessionId ≠ noSession then
    s.t2SmPostEvent .diffSession
  else if datagramSizeMax < fragDatagramOffset pCmd + size then
    (s.setCurRecvdDataSize size).dropDuplicate
  else if datagramSizeMax < fragDatagramSize pCmd then
    (s.setCurRecvdDataSize size).t2SmPostEvent .diffSession
  else
    finishSubseqFragment env (markFragReceived env ((s.setCurRecvdDataSize size).ctimerSet .rx)
      (fragDatagramOffset pCmd) size) pCmd size

/-- The tests common to a segment request and a segment complete, the last on `rcb.current_snode`. -/
def segmentRefused (s : TransportService) (pCmd : Mem) : Option T2Event :=
  if segmentSession pCmd = s.scb.transmissionAborted then some .fragReqComplWaitDiffSession
  else if segmentSession pCmd ≠ s.scb.cmn.sessionId then some .fragReqComplWaitDiffSession
  else if s.rcb.cmn.p.snode ≠ s.scb.currentDnode ∧ s.rcb.currentSnode ≠ 0 then
    some .fragReqComplWaitDiffNode
  else none

def acceptSegmentRequest (env : TsEnv) (s : TransportService) (pCmd : Mem) : TransportService :=
  let s := ({ s.ctimerStop .fc with scb.missingOffset := segmentOffset pCmd }).t2SmPostEvent .recvFragReq
  if s.scb.sending then { s with scb.flagReplyFragReq := true } else replyFragReq env s

def receiveSegmentRequest (env : TsEnv) (s : TransportService) (pCmd : Mem) : TransportService :=
  match s.segmentRefused pCmd with
  | some ev => s.t2SmPostEvent ev
  | none => acceptSegmentRequest env s pCmd

def acceptSegmentComplete (s : TransportService) (pCmd : Mem) : TransportService :=
  let s := (s.ctimerStop .fc).setFragComplList (segmentSession pCmd) true
  (({ s with scb.currentDnode := 0 }).complete transmitCompleteOk).t2SmPostEvent .recvFragCompl

def receiveSegmentComplete (s : TransportService) (pCmd : Mem) : TransportService :=
  match s.segmentRefused pCmd with
  | some ev => s.t2SmPostEvent ev
  | none => s.acceptSegmentComplete pCmd

def receiveSegmentWait (env : TsEnv) (s : TransportService) (pCmd : Mem) : TransportService :=
  if s.scb.fragComplList s.scb.cmn.sessionId then s.t2SmPostEvent .duplFrame
  else
    let s := s.t2SmPostEvent .recvFragWait
    let s := tsSenddataCb env { s with scb.transmissionAborted := s.scb.cmn.sessionId }
    ({ s with rcb.cmn.pendingSegments := (pCmd 2).toNat }).ctimerSet .waitRestart

def receive (env : TsEnv) (s : TransportService) (pCmd : Mem) (len : Nat) : TransportService :=
  if pCmd 0 ≠ commandClassTransportService then s
  else if cmdType pCmd = commandFirstFragment then
    receiveFirstFragment env s.abortIfTieBroken pCmd len
  else if cmdType pCmd = commandSubsequentFragment then
    receiveSubsequentFragment env s.abortIfTieBroken pCmd len
  else if cmdType pCmd = commandSegmentRequest then
    receiveSegmentRequest env (s.t2SmPostEvent .fragReqOrCompl) pCmd
  else if cmdType pCmd = commandSegmentComplete then
    receiveSegmentComplete (s.t2SmPostEvent .fragReqOrCompl) pCmd
  else if cmdType pCmd = commandSegmentWait then receiveSegmentWait env s pCmd
  else s

def tieBreak (env : TsEnv) (s : TransportService) (p : TsParam) : TransportService :=
  if s.isSending ∧ s.scb.cmn.p.dnode = p.snode ∧ env.myNodeId < p.snode then
    { s.t2SmPostEvent .tieBreak with flagTieBroken := true }
  else s

def fromThirdNode (s : TransportService) (p : TsParam) : Bool :=
  (p.snode != s.rcb.currentSnode && s.rcb.currentSnode != 0) ||
    (p.snode != s.scb.currentDnode && s.scb.currentDnode != 0)

def refuseThirdNode (env : TsEnv) (s : TransportService) : TransportService :=
  if s.currentState = .sendFragWait then s
  else sendFragWaitOrFlag env (s.t2SmPostEvent .scastDiffNode)

def refuseSubseqFragment (env : TsEnv) (s : TransportService) (pCmd : Mem) : TransportService :=
  if datagramSizeMax < fragDatagramSize pCmd then s.t2SmPostEvent .diffSession
  else sendFragWaitOrFlag env (s.t2SmPostEvent .subseqDiffSession)

def postRecv (s : TransportService) : TransportService :=
  match s.currentState with
  | .idle => s.t2SmPostEvent .startRecv
  | .receiving => s.t2SmPostEvent .recvNewFrag
  | _ => s

def initializeOnce (s : TransportService) : TransportService :=
  if s.flagInitializeOnce then
    { s with
      flagInitializeOnce := false
      rcb.cmn := { ControlBlock.zero with sessionId := noSession }
      rcb.flagRetryFragReqOnce := 1
      rcb.curRecvdDataSize := 0
      rcb.currentSnode := 0
      rcb.datagramData := fun _ => 0
      rcb.bytesRecvdBitmask := fun _ => 0 }
  else s

def setRcbP (s : TransportService) (p : TsParam) : TransportService :=
  { s with rcb.cmn.p := p }

def filterFrame (env : TsEnv) (s : TransportService) (p : TsParam) (pCmd : Mem) (len : Nat) :
    TransportService :=
  if s.fromThirdNode p ∧ p.rxFlags = receiveStatusTypeSingle then refuseThirdNode env s
  else if s.fromThirdNode p ∧ p.rxFlags = receiveStatusTypeBroad then s.t2SmPostEvent .bcastDiffNode
  else if s.rcb.cmn.sessionId = noSession ∧ cmdType pCmd = commandSubsequentFragment then
    refuseSubseqFragment env s pCmd
  else receive env (s.postRecv.initializeOnce.setRcbP p) pCmd len

def setFragWaitP (s : TransportService) (p : TsParam) : TransportService :=
  { s with scb.fragWaitP := p }

def applicationCommandHandler (env : TsEnv) (s : TransportService) (p : TsParam) (pCmd : Mem)
    (cmdLength : UInt8) : TransportService :=
  let s := tieBreak env ((s.log (.received p pCmd cmdLength.toNat)).ctimerSet .reset) p
  if p.snode = p.dnode ∨ datagramSizeMax < cmdLength.toNat then s
  else filterFrame env (s.setFragWaitP p) p pCmd cmdLength.toNat

end TransportService

/-- What can happen to the module: a call of one of its two entry points, a callback of the layer
below, the expiry of a timer. -/
inductive TsEvent where
  | sendData (p : TsParam) (pData : Mem) (dataLength : UInt16)
  | frame (p : TsParam) (pCmd : Mem) (cmdLength : UInt8)
  | transmitDone (cb : TxCallback) (status : UInt8)
  | expired (t : Timer)

namespace TransportService

def callback (env : TsEnv) (s : TransportService) (status : UInt8) : TxCallback → TransportService
  | .tsSenddataCb => tsSenddataCb env s
  | .tempCallbackReplyFragReq => tempCallbackReplyFragReq s status
  | .tempCallbackLastFrag => s

def expire (env : TsEnv) (s : TransportService) : Timer → TransportService
  | .fc => fcTimerExpired env s
  | .rx => rxTimerExpired env s
  | .reset => resetTransportService s
  | .waitRestart => sendFirstFrag env s
  | .btwn2Frags => sendSubseqFrag env s

/-- One event; a callback comes for a frame that was accepted, a timer expires while it is set. -/
def step (env : TsEnv) (s : TransportService) : TsEvent → TransportService
  | .sendData p pData dataLength => sendData env s p pData dataLength
  | .frame p pCmd cmdLength => applicationCommandHandler env s p pCmd cmdLength
  | .transmitDone cb status =>
    if cb ∈ s.owed then callback env { s with owed := s.owed.erase cb } status cb else s
  | .expired t => if s.timers t then expire env (s.ctimerStop t) t else s

end TransportService

end ZipGateway

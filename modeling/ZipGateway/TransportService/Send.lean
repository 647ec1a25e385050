import ZipGateway.TransportService.Fsm

/-!
# The sending side

The functions of `transport_service2.c` that cut a datagram into fragments, hand them to the layer
below and resend what the receiver asks for, under the names they have there. A division by zero,
which ends the program, is answered with 0.
-/

namespace ZipGateway

def addCrc (buf : Mem) (len : Nat) : Mem :=
  buf.write (len % 256) (Crc.split (zgwCrc16 crcInitValue (buf.slice 0 (len % 256))))

def segments (len size : Nat) : Nat :=
  (len / size + if len % size = 0 then 0 else 1) % 256

def firstFragHeader (datagramLen session : Nat) : Bytes :=
  [commandClassTransportService, commandFirstFragment ||| UInt8.ofNat ((datagramLen >>> 8) &&& 0x07),
   UInt8.ofNat (datagramLen &&& 0xff),
   UInt8.ofNat (session <<< 4)]

def subseqFragHeader (datagramLen session offset : Nat) : Bytes :=
  [commandClassTransportService, commandSubsequentFragment ||| UInt8.ofNat ((datagramLen >>> 8) &&& 0x07),
   UInt8.ofNat (datagramLen &&& 0xff),
   UInt8.ofNat (session <<< 4) ||| UInt8.ofNat ((offset >>> 8) &&& 0x07),
   UInt8.ofNat (offset &&& 0xff)]

def fragmentMaxPayloadFor (txFlags : UInt8) : Nat :=
  if txFlags &&& transmitOptionExplore ≠ 0 then fragmentMaxPayloadDefault - 8
  else if txFlags &&& transmitOptionNoRoute = 0 then fragmentMaxPayloadDefault - 8
  else fragmentMaxPayloadDefault

namespace TransportService

def fillSubseqFrag (s : TransportService) (offset : Nat) : TransportService :=
  let header := subseqFragHeader s.scb.datagramLen s.scb.cmn.sessionId offset
  let payload := s.scb.datagram.slice offset s.scb.datalenToSend
  { s with t2TxBuf := addCrc ((s.t2TxBuf.write 0 header).write 5 payload) (s.scb.datalenToSend + 5) }

def fillFirstFrag (s : TransportService) : TransportService :=
  let header := firstFragHeader s.scb.datagramLen s.scb.cmn.sessionId
  let payload := s.scb.datagram.slice 0 s.scb.datalenToSend
  { s with t2TxBuf := addCrc ((s.t2TxBuf.write 0 header).write 4 payload) (s.scb.datalenToSend + 4) }

/-- `TS_SEND_RAW` of the fragment in `t2_txBuf`. -/
def sendFragment (env : TsEnv) (s : TransportService) (len : Nat) (cb : TxCallback) : Bool × TransportService :=
  s.tsSendRaw env s.scb.cmn.p.snode s.scb.cmn.p.dnode s.t2TxBuf len
    (s.scb.cmn.p.txFlags ||| transmitOptionAck) (some cb)

def lastFragLength (s : TransportService) : Nat :=
  if s.scb.doesNotFitInFirstFrag then 8 + s.scb.datalenToSend - 1 else 7 + s.scb.datalenToSend - 1

def tryLastFrag (s : TransportService) (ok : Bool) : TransportService :=
  let s := (s.ctimerStop .fc).ctimerSet .reset
  let s := { s with scb.sending := false, scb.cmn.pendingSegments := 0 }
  s.handOver s.scb.cmn.p.snode s.scb.cmn.p.dnode (s.t2TxBuf.slice 0 (s.lastFragLength % 256))
    (s.scb.cmn.p.txFlags ||| transmitOptionAck) (some .tempCallbackLastFrag) ok

/-- The loop hands a refused fragment over again at once; the code for a refusal is never reached. -/
def retryLastFrag : Nat → TransportService → TransportService
  | 0, s => s.tryLastFrag true
  | refusals + 1, s => retryLastFrag refusals (s.tryLastFrag false)

/-- What follows an accepted last fragment. A broadcast is not acknowledged. -/
def awaitFragComplete (s : TransportService) : TransportService :=
  if s.scb.cmn.p.txFlags = receiveStatusTypeBroad ∨ s.scb.cmn.p.dnode = 0xff then
    s.t2SmPostEvent .missingFragBcast
  else
    (s.ctimerSet .fc).t2SmPostEvent .success

def sendLastFrag (env : TsEnv) (s : TransportService) : TransportService :=
  (retryLastFrag (env.refusals s.nLast) { s with nLast := s.nLast + 1 }).awaitFragComplete

def remainingOrAll (s : TransportService) : Nat :=
  if s.scb.remainingDataLen = 0 then s.scb.datagramLen else s.scb.remainingDataLen

def takeSubseqFrag (s : TransportService) : TransportService :=
  { s with
    scb.remainingDataLen := s.remainingOrAll
    scb.datalenToSend := if s.fragmentMaxPayload ≤ s.remainingOrAll then s.fragmentMaxPayload
      else s.remainingOrAll }

def buildSubseqFrag (s : TransportService) : TransportService :=
  let offset := (s.scb.datagramLen + 65536 - s.scb.remainingDataLen) % 65536
  ({ s with scb.offset := offset }).fillSubseqFrag offset

def advanceSubseqFrag (r : Bool × TransportService) : TransportService :=
  let remaining := r.2.scb.remainingDataLen - r.2.fragmentMaxPayload
  if r.1 then
    { r.2 with
      scb.remainingDataLen := remaining
      scb.cmn.pendingSegments := segments remaining r.2.scb.datalenToSend }
  else r.2

def emitSubseqFrag (env : TsEnv) (s : TransportService) : TransportService :=
  if s.scb.remainingDataLen ≤ s.fragmentMaxPayload then
    sendLastFrag env (({ s with scb.doesNotFitInFirstFrag := true }).t2SmPostEvent .sendLastFrag)
  else
    (advanceSubseqFrag (sendFragment env (s.ctimerSet .reset) (8 + s.scb.datalenToSend - 1)
      .tsSenddataCb)).t2SmPostEvent .sendNewFrag

def sendSubseqFrag (env : TsEnv) (s : TransportService) : TransportService :=
  let s := (s.ctimerStop .fc).takeSubseqFrag
  if s.scb.fragComplList s.scb.cmn.sessionId then s else emitSubseqFrag env s.buildSubseqFrag

def nextSessionId (env : TsEnv) (s : TransportService) : Nat :=
  let session := if s.scb.cmn.sessionId = 0 then env.rand s.nRand % 0xf
    else s.scb.cmn.sessionId + 1
  if 0xf < session then 0 else session

def startSession (env : TsEnv) (s : TransportService) : TransportService :=
  let session := nextSessionId env s
  (({ s with
    nRand := if s.scb.cmn.sessionId = 0 then s.nRand + 1 else s.nRand
    scb.cmn.sessionId := session }).setFragComplList session false).log
    (.started s.scb.completedFunc session)

def takeFirstFrag (s : TransportService) : TransportService :=
  let max := fragmentMaxPayloadFor s.scb.cmn.p.txFlags
  let datalen := if max < s.scb.datagramLen then max else s.scb.datagramLen
  let remaining := if max < s.scb.datagramLen then s.scb.datagramLen - max else s.scb.datagramLen
  { s with
    fragmentMaxPayload := max
    scb.remainingDataLen := remaining
    scb.datalenToSend := datalen
    scb.cmn.pendingSegments := segments remaining datalen }

def emitFirstFrag (env : TsEnv) (s : TransportService) : TransportService :=
  if s.scb.datagramLen ≤ s.fragmentMaxPayload then
    sendLastFrag env (({ s with scb.doesNotFitInFirstFrag := false }).t2SmPostEvent .sendLastFrag)
  else
    let r := sendFragment env (s.ctimerSet .reset) (7 + s.scb.datalenToSend - 1) .tsSenddataCb
    if r.1 then ({ r.2 with scb.sending := true }).t2SmPostEvent .sendNewFrag else r.2

def sendFirstFrag (env : TsEnv) (s : TransportService) : TransportService :=
  emitFirstFrag env (startSession env s).takeFirstFrag.fillFirstFrag

def takeMissingFrag (s : TransportService) : TransportService :=
  { s with
    scb.datalenToSend := if s.scb.datagramLen < s.scb.missingOffset + s.fragmentMaxPayload then
        (s.scb.datagramLen + 65536 - s.scb.missingOffset) % 65536
      else s.fragmentMaxPayload }

def emitMissingFrag (env : TsEnv) (s : TransportService) : TransportService :=
  if s.scb.missingOffset + s.scb.datalenToSend = s.scb.datagramLen then
    let s := ({ s with scb.doesNotFitInFirstFrag := true }).t2SmPostEvent .sendLastMissFrag
    sendLastFrag env { s with scb.flagRepliedFragReq := true }
  else
    let cb := if s.scb.sending then .tsSenddataCb else .tempCallbackReplyFragReq
    let r := sendFragment env (s.ctimerSet .reset) (8 + s.scb.datalenToSend - 1) cb
    ({ r.2 with scb.flagRepliedFragReq := true }).ctimerSet .fc

def replyFragReq (env : TsEnv) (s : TransportService) : TransportService :=
  if s.scb.fragComplList s.scb.cmn.sessionId then s
  else emitMissingFrag env (s.takeMissingFrag.fillSubseqFrag s.scb.missingOffset)

def fragWaitFrame (pending : Nat) : Bytes :=
  [commandClassTransportService, commandSegmentWait &&& 0xf8, UInt8.ofNat pending]

/-- `send_frag_wait_cmd` in a sending session. -/
def sendFragWaitSending (env : TsEnv) (s : TransportService) : TransportService :=
  (s.tsSendRaw env s.scb.fragWaitP.dnode s.scb.fragWaitP.snode (Mem.ofBytes (fragWaitFrame s.scb.cmn.pendingSegments)) 3
    (s.scb.fragWaitP.txFlags ||| transmitOptionAck) (some .tsSenddataCb)).2.t2SmPostEvent .success2

/-- `send_frag_wait_cmd` in a receiving session, or in none. -/
def sendFragWaitReceiving (env : TsEnv) (s : TransportService) : TransportService :=
  let pending := if s.rcb.cmn.sessionId = noSession then 0
    else segments s.rcb.datagramSize s.rcb.curRecvdDataSize
  (({ s with rcb.cmn.pendingSegments := pending }).tsSendRaw env s.scb.fragWaitP.dnode
    s.scb.fragWaitP.snode (Mem.ofBytes (fragWaitFrame pending)) 3
    (s.scb.fragWaitP.txFlags ||| transmitOptionAck) none).2.t2SmPostEvent .success

def sendFragWaitCmd (env : TsEnv) (s : TransportService) : TransportService :=
  if s.scb.sending then sendFragWaitSending env (s.ctimerSet .reset)
  else sendFragWaitReceiving env (s.ctimerSet .reset)

def tsSenddataCb (env : TsEnv) (s : TransportService) : TransportService :=
  if s.scb.flagReplyFragReq then
    replyFragReq env { s with scb.flagReplyFragReq := false }
  else if s.flagSendFragWait then
    sendFragWaitCmd env (s.setFlagSendFragWait false)
  else if s.scb.transmissionAborted = s.scb.cmn.sessionId then
    s.ctimerStop .btwn2Frags
  else
    s.ctimerSet .btwn2Frags

def tempCallbackReplyFragReq (s : TransportService) (status : UInt8) : TransportService :=
  let s := if status = transmitCompleteOk then s else s.complete status
  s.t2SmPostEvent .sentMissFrag

def fcTimerExpired (env : TsEnv) (s : TransportService) : TransportService :=
  if s.scb.flagRepliedFragReq then
    let s := { s with
      scb.transmissionAborted := s.scb.cmn.sessionId
      scb.flagRepliedFragReq := false
      scb.currentDnode := 0 }
    (s.t2SmPostEvent .fragComplTimerReq).complete transmitCompleteFail
  else if s.scb.transmissionAborted = s.scb.cmn.sessionId then
    s.complete transmitCompleteFail
  else if s.scb.flagFcTimerExpiredOnce then
    let s := { s with scb.flagFcTimerExpiredOnce := false, scb.currentDnode := 0 }
    (s.complete transmitCompleteFail).t2SmPostEvent .fragComplTimer2
  else
    let s := s.t2SmPostEvent .fragComplTimer
    sendLastFrag env { s with scb.flagFcTimerExpiredOnce := true }

def acceptSendData (s : TransportService) (call : Nat) (p : TsParam) (pData : Mem)
    (dataLength : UInt16) : TransportService :=
  ({ s with
    scb.datagram := pData
    scb.cmn.p := p
    scb.datagramLen := dataLength.toNat
    scb.completedFunc := some call
    scb.sending := false
    scb.flagRepliedFragReq := false
    scb.transmissionAborted := 0x11
    scb.flagReplyFragReq := false
    scb.flagFcTimerExpiredOnce := false
    scb.remainingDataLen := 0
    scb.currentDnode := p.dnode }).setFlagSendFragWait false

def postStartSend (s : TransportService) : TransportService :=
  match s.currentState with
  | .idle => s.t2SmPostEvent .startSend
  | .sendFrag => s.t2SmPostEvent .sendNewFrag
  | _ => s

def sendData (env : TsEnv) (s : TransportService) (p : TsParam) (pData : Mem) (dataLength : UInt16) :
    TransportService :=
  let call := s.nCalls
  let s := ({ s with nCalls := call + 1 }).ctimerSet .reset
  if s.isSending || s.isReceving then
    (s.log (.called call p false)).log (.completed call transmitCompleteFail)
  else
    sendFirstFrag env ((s.log (.called call p true)).acceptSendData call p pData dataLength).postStartSend

end TransportService

end ZipGateway

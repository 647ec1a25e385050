import ZipGateway.TransportService.Receive

/-!
# What the bounds depend on

`gauge` is the part of the state that decides which entries of the arrays are touched: the session ids, the
datagram and its length, the offset that was asked for, and the sizes of the last fragment and of the datagram
that is received.
-/

namespace ZipGateway

structure Gauge where
  session : Nat
  datagram : Mem
  datagramLen : Nat
  missingOffset : Nat
  maxPayload : Nat
  fresh : Bool
  rcbSession : Nat
  recvd : Nat
  size : Nat

variable (pCmd : Mem) (p : TsParam)

namespace TransportService

def gauge (s : TransportService) : Gauge where
  session := s.scb.cmn.sessionId
  datagram := s.scb.datagram
  datagramLen := s.scb.datagramLen
  missingOffset := s.scb.missingOffset
  maxPayload := s.fragmentMaxPayload
  fresh := s.flagInitializeOnce
  rcbSession := s.rcb.cmn.sessionId
  recvd := s.rcb.curRecvdDataSize
  size := s.rcb.datagramSize

section Inert

variable (s : TransportService)

@[simp]
theorem gauge_mk (st : T2State) (tie : Bool) (buf : Mem) (timers : Timer → Bool) (owed : List TxCallback)
    (nCalls nRaw nLast nRand : Nat) (out : List TsOut) :
    gauge { s with
      currentState := st, flagTieBroken := tie, t2TxBuf := buf, timers := timers, owed := owed
      nCalls := nCalls, nRaw := nRaw, nLast := nLast, nRand := nRand, out := out } = s.gauge := rfl

@[simp]
theorem gauge_scb (scb : SendingCntrlBlk) (hsession : scb.cmn.sessionId = s.scb.cmn.sessionId)
    (hdatagram : scb.datagram = s.scb.datagram) (hlen : scb.datagramLen = s.scb.datagramLen)
    (hoffset : scb.missingOffset = s.scb.missingOffset) : gauge { s with scb := scb } = s.gauge := by
  simp [gauge, hsession, hdatagram, hlen, hoffset]

@[simp]
theorem gauge_rcb (rcb : ReceivingCntrlBlk) (hsession : rcb.cmn.sessionId = s.rcb.cmn.sessionId)
    (hrecvd : rcb.curRecvdDataSize = s.rcb.curRecvdDataSize) (hsize : rcb.datagramSize = s.rcb.datagramSize) :
    gauge { s with rcb := rcb } = s.gauge := by
  simp [gauge, hsession, hrecvd, hsize]

@[simp]
theorem gauge_t2SmPostEvent (ev : T2Event) : (s.t2SmPostEvent ev).gauge = s.gauge := by
  rw [t2SmPostEvent_eq]
  exact gauge_mk ..

@[simp]
theorem gauge_log (o : TsOut) : (s.log o).gauge = s.gauge := rfl

@[simp]
theorem gauge_ctimerSet (t : Timer) : (s.ctimerSet t).gauge = s.gauge := rfl

@[simp]
theorem gauge_ctimerStop (t : Timer) : (s.ctimerStop t).gauge = s.gauge := rfl

@[simp]
theorem gauge_setFragComplList (i : Nat) (b : Bool) : (s.setFragComplList i b).gauge = s.gauge := rfl

@[simp]
theorem gauge_setFlagSendFragWait (b : Bool) : (s.setFlagSendFragWait b).gauge = s.gauge := rfl

@[simp]
theorem gauge_tsSendRaw (env : TsEnv) (snode dnode : NodeId) (buf : Mem) (len : Nat) (txFlags : UInt8)
    (cb : Option TxCallback) : (s.tsSendRaw env snode dnode buf len txFlags cb).2.gauge = s.gauge := rfl

@[simp]
theorem gauge_sendFragment (env : TsEnv) (len : Nat) (cb : TxCallback) :
    (s.sendFragment env len cb).2.gauge = s.gauge := rfl

@[simp]
theorem gauge_complete (status : UInt8) : (s.complete status).gauge = s.gauge := by
  unfold complete
  split <;> rfl

@[simp]
theorem gauge_fillSubseqFrag (offset : Nat) : (s.fillSubseqFrag offset).gauge = s.gauge := rfl

@[simp]
theorem gauge_fillFirstFrag : s.fillFirstFrag.gauge = s.gauge := rfl

@[simp]
theorem gauge_retryLastFrag (refusals : Nat) : (retryLastFrag refusals s).gauge = s.gauge := by
  induction refusals generalizing s with
  | zero => rfl
  | succ refusals ih =>
    rw [retryLastFrag, ih]
    rfl

@[simp]
theorem gauge_awaitFragComplete : s.awaitFragComplete.gauge = s.gauge := by
  unfold awaitFragComplete
  split <;> simp

variable (env : TsEnv)

@[simp]
theorem gauge_sendLastFrag : (sendLastFrag env s).gauge = s.gauge := by
  rw [sendLastFrag, gauge_awaitFragComplete, gauge_retryLastFrag]
  rfl

@[simp]
theorem gauge_advanceSubseqFrag (r : Bool × TransportService) : (advanceSubseqFrag r).gauge = r.2.gauge := by
  unfold advanceSubseqFrag
  dsimp only
  split <;> rfl

@[simp]
theorem gauge_takeSubseqFrag : s.takeSubseqFrag.gauge = s.gauge := rfl

@[simp]
theorem gauge_buildSubseqFrag : s.buildSubseqFrag.gauge = s.gauge := rfl

@[simp]
theorem gauge_sendSubseqFrag : (sendSubseqFrag env s).gauge = s.gauge := by
  unfold sendSubseqFrag emitSubseqFrag
  dsimp only
  split
  · simp
  · split <;> simp

@[simp]
theorem gauge_emitFirstFrag : (emitFirstFrag env s).gauge = s.gauge := by
  unfold emitFirstFrag
  dsimp only
  split
  · simp
  · split <;> simp

@[simp]
theorem gauge_takeMissingFrag : s.takeMissingFrag.gauge = s.gauge := rfl

@[simp]
theorem gauge_replyFragReq : (replyFragReq env s).gauge = s.gauge := by
  unfold replyFragReq emitMissingFrag
  dsimp only
  split
  · rfl
  · split <;> simp

@[simp]
theorem gauge_sendFragWaitCmd : (sendFragWaitCmd env s).gauge = s.gauge := by
  unfold sendFragWaitCmd sendFragWaitSending sendFragWaitReceiving
  split <;> simp

@[simp]
theorem gauge_tsSenddataCb : (tsSenddataCb env s).gauge = s.gauge := by
  unfold tsSenddataCb
  split
  · simp
  · split
    · simp
    · split <;> simp

@[simp]
theorem gauge_tempCallbackReplyFragReq (status : UInt8) : (s.tempCallbackReplyFragReq status).gauge = s.gauge := by
  unfold tempCallbackReplyFragReq
  dsimp only
  split <;> simp

@[simp]
theorem gauge_fcTimerExpired : (fcTimerExpired env s).gauge = s.gauge := by
  unfold fcTimerExpired
  dsimp only
  split
  · simp
  · split
    · simp
    · split <;> simp

@[simp]
theorem gauge_postStartSend : s.postStartSend.gauge = s.gauge := by
  unfold postStartSend
  split <;> simp

@[simp]
theorem gauge_sendFragWaitOrFlag : (sendFragWaitOrFlag env s).gauge = s.gauge := by
  unfold sendFragWaitOrFlag
  split <;> simp

@[simp]
theorem gauge_markFragReceived (offset size : Nat) : (markFragReceived env s offset size).2.gauge = s.gauge := by
  unfold markFragReceived
  split <;> simp

@[simp]
theorem gauge_abortIfTieBroken : s.abortIfTieBroken.gauge = s.gauge := by
  unfold abortIfTieBroken
  split <;> rfl

@[simp]
theorem gauge_dropDuplicate : s.dropDuplicate.gauge = s.gauge := by
  unfold dropDuplicate
  split <;> simp

@[simp]
theorem gauge_retryFragReq (retries : Nat) : (retryFragReq env s retries).gauge = s.gauge := by
  induction retries generalizing s with
  | zero => simp [retryFragReq]
  | succ retries ih =>
    unfold retryFragReq
    dsimp only
    split
    · simp
    · rw [ih]
      simp

@[simp]
theorem gauge_sendFragReqCmd : (sendFragReqCmd env s).gauge = s.gauge := by
  unfold sendFragReqCmd
  dsimp only
  split
  · simp
  · split <;> simp

@[simp]
theorem gauge_receiveSegmentComplete : (s.receiveSegmentComplete pCmd).gauge = s.gauge := by
  unfold receiveSegmentComplete acceptSegmentComplete
  split <;> simp

@[simp]
theorem gauge_receiveSegmentWait : (receiveSegmentWait env s pCmd).gauge = s.gauge := by
  unfold receiveSegmentWait
  dsimp only
  split <;> simp

@[simp]
theorem gauge_tieBreak : (tieBreak env s p).gauge = s.gauge := by
  unfold tieBreak
  split <;> simp

@[simp]
theorem gauge_refuseThirdNode : (refuseThirdNode env s).gauge = s.gauge := by
  unfold refuseThirdNode
  split <;> simp

@[simp]
theorem gauge_refuseSubseqFragment : (refuseSubseqFragment env s pCmd).gauge = s.gauge := by
  unfold refuseSubseqFragment
  split <;> simp

@[simp]
theorem gauge_postRecv : s.postRecv.gauge = s.gauge := by
  unfold postRecv
  split <;> simp

@[simp]
theorem gauge_setRcbP : (s.setRcbP p).gauge = s.gauge := rfl

@[simp]
theorem gauge_setFragWaitP : (s.setFragWaitP p).gauge = s.gauge := rfl

end Inert

section Active

variable (env : TsEnv) (s : TransportService)

theorem gauge_sendFirstFrag : (sendFirstFrag env s).gauge = { s.gauge with
    session := nextSessionId env s, maxPayload := fragmentMaxPayloadFor s.scb.cmn.p.txFlags } := by
  rw [sendFirstFrag, gauge_emitFirstFrag, gauge_fillFirstFrag]
  rfl

theorem gauge_acceptSendData (call : Nat) (p : TsParam) (pData : Mem) (dataLength : UInt16) :
    (s.acceptSendData call p pData dataLength).gauge =
      { s.gauge with datagram := pData, datagramLen := dataLength.toNat } := rfl

theorem gauge_discardAllReceivedFragments :
    s.discardAllReceivedFragments.gauge = { s.gauge with rcbSession := noSession } := rfl

theorem gauge_sendFragCompleteCmd : (sendFragCompleteCmd env s).gauge =
    if 0x0f < s.gauge.rcbSession then s.gauge else { s.gauge with rcbSession := noSession } := by
  unfold sendFragCompleteCmd
  change _ = if 0x0f < s.rcb.cmn.sessionId then _ else _
  split
  · rfl
  · rw [gauge_t2SmPostEvent]
    rfl

theorem gauge_findMissing : (findMissing env s).gauge = s.gauge ∨
    (findMissing env s).gauge = { s.gauge with rcbSession := noSession } := by
  unfold findMissing
  dsimp only
  split
  · split
    · exact .inr (gauge_discardAllReceivedFragments s)
    · left
      simp
  · split
    · exact .inl rfl
    · rw [gauge_sendFragCompleteCmd, gauge_t2SmPostEvent]
      split
      · exact .inl rfl
      · exact .inr rfl

theorem gauge_rxTimerExpired : (rxTimerExpired env s).gauge = s.gauge ∨
    (rxTimerExpired env s).gauge = { s.gauge with rcbSession := noSession } := by
  have hstopped : ((s.ctimerStop .rx).t2SmPostEvent .fragRxTimer).gauge = s.gauge := by simp
  unfold rxTimerExpired
  dsimp only
  split
  · rw [gauge_discardAllReceivedFragments, hstopped]
    exact .inr rfl
  · rw [← hstopped]
    exact gauge_findMissing env _

theorem gauge_openSession (len : Nat) : (s.openSession pCmd len).gauge = { s.gauge with
    rcbSession := fragSession pCmd, recvd := len - firstFragNonpayloadLength
    size := fragDatagramSize pCmd } := rfl

theorem gauge_setCurRecvdDataSize (size : Nat) :
    (s.setCurRecvdDataSize size).gauge = { s.gauge with recvd := size } := rfl

theorem gauge_storeSubseqFragment (size : Nat) :
    (s.storeSubseqFragment pCmd size).gauge = { s.gauge with size := fragDatagramSize pCmd } := rfl

theorem gauge_initializeOnce : s.initializeOnce.gauge =
    if s.gauge.fresh then { s.gauge with fresh := false, rcbSession := noSession, recvd := 0 } else s.gauge := by
  unfold initializeOnce
  change _ = if s.flagInitializeOnce then _ else _
  split <;> rfl

theorem gauge_receiveSegmentRequest : (receiveSegmentRequest env s pCmd).gauge =
    if s.segmentRefused pCmd = none then { s.gauge with missingOffset := segmentOffset pCmd } else s.gauge := by
  unfold receiveSegmentRequest
  cases hrefused : s.segmentRefused pCmd with
  | some ev => simp
  | none =>
    have hasked : (({ s.ctimerStop .fc with scb.missingOffset := segmentOffset pCmd }).t2SmPostEvent
        .recvFragReq).gauge = { s.gauge with missingOffset := segmentOffset pCmd } := by
      rw [gauge_t2SmPostEvent]
      rfl
    simp only [acceptSegmentRequest, if_true]
    split
    · exact hasked
    · rw [gauge_replyFragReq, hasked]

end Active

end TransportService

end ZipGateway

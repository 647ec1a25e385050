import ZipGateway.TransportService.Accesses
import ZipGateway.TransportService.Completion
import ZipGateway.TransportService.Gauge

/-!
# The bounds of the Transport Service

A fragment cannot lead the code out of the receive buffer or its bitmap. Three things can go wrong elsewhere.
The sixteenth session has no entry in `frag_compl_list`. `send_first_frag` divides by the length of the first
fragment, which is zero for an empty datagram, and a segment wait restarts the datagram also when there was none.
And `send_frag_wait_cmd` divides by the size of the last fragment before anything was received.
-/

namespace ZipGateway

structure Gauge.Sane (g : Gauge) : Prop where
  payload : g.maxPayload ≤ fragmentMaxPayloadDefault
  size : g.size ≤ datagramSizeMax
  divisor : g.fresh = false → g.rcbSession = noSession ∨ g.recvd ≠ 0

def Gauge.sender (g : Gauge) : Nat × Mem × Nat × Nat :=
  (g.session, g.datagram, g.datagramLen, g.maxPayload)

namespace Gauge

variable {g : Gauge}

theorem Sane.close (h : g.Sane) : ({ g with rcbSession := noSession } : Gauge).Sane :=
  ⟨h.payload, h.size, fun _ => .inl rfl⟩

theorem Sane.open (h : g.Sane) (session : Nat) {recvd size : Nat} (hrecvd : recvd ≠ 0)
    (hsize : size ≤ datagramSizeMax) :
    ({ g with rcbSession := session, recvd := recvd, size := size } : Gauge).Sane :=
  ⟨h.payload, hsize, fun _ => .inr hrecvd⟩

theorem Sane.fragment (h : g.Sane) {recvd size : Nat} (hrecvd : recvd ≠ 0) (hsize : size ≤ datagramSizeMax) :
    ({ g with recvd := recvd, size := size } : Gauge).Sane :=
  ⟨h.payload, hsize, fun _ => .inr hrecvd⟩

theorem Sane.recvd (h : g.Sane) {recvd : Nat} (hrecvd : recvd ≠ 0) : ({ g with recvd := recvd } : Gauge).Sane :=
  ⟨h.payload, h.size, fun _ => .inr hrecvd⟩

theorem Sane.of_offset {g' : Gauge} (h : g.Sane) (offset : Nat)
    (hg : g' = { g with missingOffset := offset }) : g'.Sane ∧ g'.sender = g.sender := by
  rw [hg]
  exact ⟨⟨h.payload, h.size, h.divisor⟩, rfl⟩

end Gauge

namespace TransportService

/-! ## What every state has -/

section Sane

variable (env : TsEnv) {s : TransportService}

theorem sane_sendFragCompleteCmd (h : s.gauge.Sane) : (sendFragCompleteCmd env s).gauge.Sane := by
  rw [gauge_sendFragCompleteCmd]
  split
  · exact h
  · exact h.close

theorem sane_findMissing (h : s.gauge.Sane) : (findMissing env s).gauge.Sane := by
  rcases gauge_findMissing env s with hsame | hclosed
  · rwa [hsame]
  · rw [hclosed]
    exact h.close

theorem sane_receiveFirstFragment (h : s.gauge.Sane) (pCmd : Mem) (len : Nat) :
    (receiveFirstFragment env s pCmd len).gauge.Sane := by
  unfold receiveFirstFragment
  split
  · simpa using h
  rename_i hlong
  split
  · simpa using h
  split
  · simpa using h
  rename_i hsize
  have hopen : (markFragReceived env (s.openSession pCmd len) 0 (len - firstFragNonpayloadLength)).2.gauge.Sane := by
    rw [gauge_markFragReceived, gauge_openSession]
    refine h.open _ ?_ (Nat.le_of_not_lt hsize)
    have hlen : firstFragNonpayloadLength < len := Nat.lt_of_not_le fun hle => hlong (.inl hle)
    omega
  unfold finishFirstFragment
  split
  · exact hopen
  · split
    · apply sane_sendFragCompleteCmd
      rwa [gauge_t2SmPostEvent]
    · simpa using hopen

theorem sane_receiveSubsequentFragment (h : s.gauge.Sane) (pCmd : Mem) (len : Nat) :
    (receiveSubsequentFragment env s pCmd len).gauge.Sane := by
  unfold receiveSubsequentFragment
  dsimp only
  split
  · simpa using h
  rename_i hlong
  have hlen : subseqFragNonpayloadLength < len := Nat.lt_of_not_le fun hle => hlong (.inl hle)
  have hrecvd : len - subseqFragNonpayloadLength ≠ 0 := by omega
  split
  · simpa using h
  split
  · simpa using h
  split
  · rw [gauge_dropDuplicate, gauge_setCurRecvdDataSize]
    exact h.recvd hrecvd
  split
  · rw [gauge_t2SmPostEvent, gauge_setCurRecvdDataSize]
    exact h.recvd hrecvd
  rename_i hsize
  generalize hmark : markFragReceived env ((s.setCurRecvdDataSize (len - subseqFragNonpayloadLength)).ctimerSet .rx)
    (fragDatagramOffset pCmd) (len - subseqFragNonpayloadLength) = m
  have hm : m.2.gauge = { s.gauge with recvd := len - subseqFragNonpayloadLength } := by
    rw [← hmark, gauge_markFragReceived]
    rfl
  have hstored : (m.2.storeSubseqFragment pCmd (len - subseqFragNonpayloadLength)).gauge.Sane := by
    rw [gauge_storeSubseqFragment, hm]
    exact h.fragment hrecvd (Nat.le_of_not_lt hsize)
  unfold finishSubseqFragment
  split
  · rw [hm]
    exact h.recvd hrecvd
  · split
    · apply sane_findMissing
      rwa [gauge_t2SmPostEvent]
    · simpa using hstored

theorem sane_receive (h : s.gauge.Sane) (pCmd : Mem) (len : Nat) : (receive env s pCmd len).gauge.Sane := by
  have habort : s.abortIfTieBroken.gauge.Sane := by rwa [gauge_abortIfTieBroken]
  unfold receive
  split
  · exact h
  split
  · exact sane_receiveFirstFragment env habort pCmd len
  split
  · exact sane_receiveSubsequentFragment env habort pCmd len
  split
  · rw [gauge_receiveSegmentRequest, gauge_t2SmPostEvent]
    split
    · exact ⟨h.payload, h.size, h.divisor⟩
    · exact h
  split
  · simpa using h
  split
  · simpa using h
  · exact h

theorem sane_initializeOnce (h : s.gauge.Sane) : s.initializeOnce.gauge.Sane := by
  rw [gauge_initializeOnce]
  split
  · exact ⟨h.payload, h.size, fun _ => .inl rfl⟩
  · exact h

theorem sane_applicationCommandHandler (h : s.gauge.Sane) (p : TsParam) (pCmd : Mem) (cmdLength : UInt8) :
    (applicationCommandHandler env s p pCmd cmdLength).gauge.Sane := by
  unfold applicationCommandHandler
  dsimp only
  generalize hbroken : tieBreak env ((s.log (.received p pCmd cmdLength.toNat)).ctimerSet .reset) p = broken
  have hgauge : broken.gauge = s.gauge := by
    rw [← hbroken]
    simp
  split
  · rwa [hgauge]
  · unfold filterFrame
    split
    · simpa [hgauge] using h
    split
    · simpa [hgauge] using h
    split
    · simpa [hgauge] using h
    · apply sane_receive
      rw [gauge_setRcbP]
      apply sane_initializeOnce
      simpa [hgauge] using h

theorem payload_sendFirstFrag (txFlags : UInt8) : fragmentMaxPayloadFor txFlags ≤ fragmentMaxPayloadDefault := by
  unfold fragmentMaxPayloadFor
  split
  · decide
  · split <;> decide

theorem sane_sendFirstFrag (h : s.gauge.Sane) : (sendFirstFrag env s).gauge.Sane := by
  rw [gauge_sendFirstFrag]
  exact ⟨payload_sendFirstFrag _, h.size, h.divisor⟩

theorem sane_expire (h : s.gauge.Sane) (t : Timer) : (expire env s t).gauge.Sane := by
  cases t with
  | fc => simpa [expire] using h
  | rx =>
    simp only [expire]
    rcases gauge_rxTimerExpired env s with hsame | hclosed
    · rwa [hsame]
    · rw [hclosed]
      exact h.close
  | reset => exact h.close
  | waitRestart => exact sane_sendFirstFrag env h
  | btwn2Frags => simpa [expire] using h

theorem sane_step (h : s.gauge.Sane) (e : TsEvent) : (step env s e).gauge.Sane := by
  cases e with
  | sendData p pData dataLength =>
    simp only [step, sendData]
    split
    · exact h
    · apply sane_sendFirstFrag
      rw [gauge_postStartSend, gauge_acceptSendData]
      exact ⟨h.payload, h.size, h.divisor⟩
  | frame p pCmd cmdLength => exact sane_applicationCommandHandler env h p pCmd cmdLength
  | transmitDone cb status =>
    simp only [step]
    split
    · cases cb <;> simpa [callback] using h
    · exact h
  | expired t =>
    simp only [step]
    split
    · apply sane_expire
      rwa [gauge_ctimerStop]
    · exact h

theorem sane_init : init.gauge.Sane :=
  ⟨Nat.zero_le _, Nat.zero_le _, fun hfresh => absurd hfresh (by decide)⟩

end Sane

/-! ## What only the sender changes -/

section Sender

variable (env : TsEnv) (s : TransportService)

theorem sender_findMissing : (findMissing env s).gauge.sender = s.gauge.sender := by
  rcases gauge_findMissing env s with h | h
  · rw [h]
  · rw [h]
    rfl

theorem sender_sendFragCompleteCmd : (sendFragCompleteCmd env s).gauge.sender = s.gauge.sender := by
  rw [gauge_sendFragCompleteCmd]
  split <;> rfl

theorem sender_receiveFirstFragment (pCmd : Mem) (len : Nat) :
    (receiveFirstFragment env s pCmd len).gauge.sender = s.gauge.sender := by
  unfold receiveFirstFragment
  split
  · simp
  split
  · simp
  split
  · simp
  generalize hmark : markFragReceived env (s.openSession pCmd len) 0 (len - firstFragNonpayloadLength) = m
  have hm : m.2.gauge.sender = s.gauge.sender := by
    rw [← hmark, gauge_markFragReceived]
    rfl
  unfold finishFirstFragment
  split
  · exact hm
  · split
    · rw [sender_sendFragCompleteCmd, gauge_t2SmPostEvent, hm]
    · simpa using hm

theorem sender_receiveSubsequentFragment (pCmd : Mem) (len : Nat) :
    (receiveSubsequentFragment env s pCmd len).gauge.sender = s.gauge.sender := by
  unfold receiveSubsequentFragment
  dsimp only
  split
  · simp
  split
  · simp
  split
  · simp
  split
  · rw [gauge_dropDuplicate]
    rfl
  split
  · rw [gauge_t2SmPostEvent]
    rfl
  generalize hmark : markFragReceived env ((s.setCurRecvdDataSize (len - subseqFragNonpayloadLength)).ctimerSet .rx)
    (fragDatagramOffset pCmd) (len - subseqFragNonpayloadLength) = m
  have hm : m.2.gauge.sender = s.gauge.sender := by
    rw [← hmark, gauge_markFragReceived]
    rfl
  unfold finishSubseqFragment
  split
  · exact hm
  · split
    · rw [sender_findMissing, gauge_t2SmPostEvent]
      exact hm
    · exact hm

theorem sender_receive (pCmd : Mem) (len : Nat) : (receive env s pCmd len).gauge.sender = s.gauge.sender := by
  unfold receive
  split
  · rfl
  split
  · rw [sender_receiveFirstFragment, gauge_abortIfTieBroken]
  split
  · rw [sender_receiveSubsequentFragment, gauge_abortIfTieBroken]
  split
  · rw [gauge_receiveSegmentRequest, gauge_t2SmPostEvent]
    split <;> rfl
  split
  · simp
  split
  · simp
  · rfl

theorem sender_initializeOnce : s.initializeOnce.gauge.sender = s.gauge.sender := by
  rw [gauge_initializeOnce]
  split <;> rfl

theorem sender_applicationCommandHandler (p : TsParam) (pCmd : Mem) (cmdLength : UInt8) :
    (applicationCommandHandler env s p pCmd cmdLength).gauge.sender = s.gauge.sender := by
  unfold applicationCommandHandler
  dsimp only
  split
  · simp
  · unfold filterFrame
    split
    · simp
    split
    · simp
    split
    · simp
    · rw [sender_receive, gauge_setRcbP, sender_initializeOnce]
      simp

def restarts : TsEvent → Bool
  | .expired .waitRestart => s.timers .waitRestart
  | _ => false

theorem sender_step {e : TsEvent} (hsend : ∀ p pData dataLength, e = .sendData p pData dataLength → s.isBusy = true)
    (hrestart : s.restarts e = false) : (step env s e).gauge.sender = s.gauge.sender := by
  cases e with
  | sendData p pData dataLength =>
    have hbusy : (s.isSending || s.isReceving) = true := hsend p pData dataLength rfl
    have hbusy' : ((({ s with nCalls := s.nCalls + 1 }).ctimerSet .reset).isSending ||
        (({ s with nCalls := s.nCalls + 1 }).ctimerSet .reset).isReceving) = true := hbusy
    simp only [step, sendData]
    rw [if_pos hbusy']
    rfl
  | frame p pCmd cmdLength => exact sender_applicationCommandHandler env s p pCmd cmdLength
  | transmitDone cb status =>
    simp only [step]
    split
    · cases cb <;> simp [callback]
    · rfl
  | expired t =>
    simp only [step]
    split
    next hset =>
      cases t with
      | fc => simp [expire]
      | rx =>
        simp only [expire]
        rcases gauge_rxTimerExpired env (s.ctimerStop .rx) with h | h <;> rw [h] <;> rfl
      | reset => rfl
      | waitRestart => exact absurd hset (by simpa [restarts] using hrestart)
      | btwn2Frags => simp [expire]
    next => rfl

end Sender

/-! ## The accesses -/

/-- `send_frag_wait_cmd` has no segments to count, or the size of a fragment to count them with. -/
def CanWait (s : TransportService) : Prop :=
  s.scb.sending = true ∨ s.rcb.cmn.sessionId = noSession ∨ s.rcb.curRecvdDataSize ≠ 0

section Accesses

variable (env : TsEnv) {s : TransportService}

theorem inBounds_sendFragWaitCmd : Access.AllInBounds s.sendFragWaitCmdAccesses ↔ s.CanWait := by
  unfold sendFragWaitCmdAccesses CanWait
  split
  next hsending => simp [hsending, Access.allInBounds_nil]
  next hsending =>
    split
    next hsession => simp [hsession, Access.allInBounds_nil]
    next hsession => simp [hsending, hsession, Access.AllInBounds, Access.InBounds]

theorem inBounds_sendFragWaitOrFlag : Access.AllInBounds s.sendFragWaitOrFlagAccesses ↔ s.CanWait := by
  unfold sendFragWaitOrFlagAccesses
  split
  next hsending => exact iff_of_true Access.allInBounds_nil (.inl hsending)
  next => exact inBounds_sendFragWaitCmd

theorem canWait_t2SmPostEvent (ev : T2Event) : (s.t2SmPostEvent ev).CanWait ↔ s.CanWait := by
  rw [t2SmPostEvent_eq]
  exact Iff.rfl

theorem inBounds_replyFragReq (hsession : s.scb.cmn.sessionId < 15) : Access.AllInBounds s.replyFragReqAccesses :=
  .cons hsession Access.allInBounds_nil

theorem inBounds_tsSenddataCb (hsession : s.scb.cmn.sessionId < 15) : Access.AllInBounds s.tsSenddataCbAccesses ↔
      (s.scb.flagReplyFragReq = false → s.flagSendFragWait = true → s.CanWait) := by
  unfold tsSenddataCbAccesses
  split
  next hreply =>
    refine iff_of_true (inBounds_replyFragReq hsession) fun hnone => ?_
    rw [hreply] at hnone
    cases hnone
  next hreply =>
    have hreply : s.scb.flagReplyFragReq = false := by simpa using hreply
    split
    next hwait =>
      rw [inBounds_sendFragWaitCmd]
      exact ⟨fun h _ _ => h, fun h => h hreply hwait⟩
    next hwait => exact iff_of_true Access.allInBounds_nil fun _ hflag => absurd hflag hwait

theorem inBounds_markAccesses (i size : Nat) (h : i + size ≤ datagramSizeMax) :
    Access.AllInBounds (markAccesses i size) := by
  induction size generalizing i with
  | zero => exact Access.allInBounds_nil
  | succ size ih =>
    have hi : i < datagramSizeMax := by omega
    have hentry : i / 8 < datagramSizeMax / 8 + 1 := Nat.lt_succ_of_le (Nat.div_le_div_right (Nat.le_of_lt hi))
    rw [markAccesses, if_neg (Nat.not_lt.mpr (Nat.le_of_lt hi))]
    exact .cons hentry (ih (i + 1) (by omega))

theorem inBounds_markFragReceived (hwait : s.CanWait) {offset size : Nat} (h : offset + size ≤ datagramSizeMax) :
    Access.AllInBounds (s.markFragReceivedAccesses offset size) := by
  unfold markFragReceivedAccesses
  split
  · rw [inBounds_sendFragWaitOrFlag, canWait_t2SmPostEvent]
    exact hwait
  · exact inBounds_markAccesses offset size h

theorem inBounds_sendFragCompleteCmd (hsize : s.rcb.datagramSize ≤ datagramSizeMax) :
    Access.AllInBounds s.sendFragCompleteCmdAccesses := by
  unfold sendFragCompleteCmdAccesses
  split
  · exact Access.allInBounds_nil
  next hsession =>
    refine .cons ?_ (.cons ?_ Access.allInBounds_nil)
    · change 0 + s.rcb.datagramSize ≤ datagramSizeMax
      omega
    · change s.rcb.cmn.sessionId < 16
      omega

theorem inBounds_findMissing (hsize : s.rcb.datagramSize ≤ datagramSizeMax) :
    Access.AllInBounds s.findMissingAccesses := by
  unfold findMissingAccesses
  split
  · exact Access.allInBounds_nil
  split
  · exact Access.allInBounds_nil
  · apply inBounds_sendFragCompleteCmd
    rw [t2SmPostEvent_eq]
    exact hsize

theorem inBounds_rxTimerExpired (hsize : s.rcb.datagramSize ≤ datagramSizeMax) :
    Access.AllInBounds s.rxTimerExpiredAccesses := by
  have hstopped : ((s.ctimerStop .rx).t2SmPostEvent .fragRxTimer).rcb.datagramSize ≤ datagramSizeMax := by
    rw [t2SmPostEvent_eq]
    exact hsize
  unfold rxTimerExpiredAccesses
  dsimp only
  split
  · exact Access.allInBounds_nil
  · exact inBounds_findMissing hstopped

theorem inBounds_receiveFirstFragment (pCmd : Mem) {len : Nat} (hlen : len ≤ datagramSizeMax) :
    Access.AllInBounds (receiveFirstFragmentAccesses env s pCmd len) := by
  unfold receiveFirstFragmentAccesses
  dsimp only
  split
  · exact Access.allInBounds_nil
  rename_i hlong
  split
  · exact Access.allInBounds_nil
  split
  · exact Access.allInBounds_nil
  rename_i hsize
  have hrecvd : len - firstFragNonpayloadLength ≠ 0 := by
    have hlt : firstFragNonpayloadLength < len := Nat.lt_of_not_le fun hle => hlong (.inl hle)
    omega
  have hfits : 0 + (len - firstFragNonpayloadLength) ≤ datagramSizeMax := by omega
  refine .cons (Nat.lt_succ_of_le (fragSession_le pCmd)) (.cons hfits (.append ?_ ?_))
  · exact inBounds_markFragReceived (.inr (.inr hrecvd)) hfits
  · generalize hmark : markFragReceived env (s.openSession pCmd len) 0 (len - firstFragNonpayloadLength) = m
    have hm : m.2.rcb.datagramSize ≤ datagramSizeMax := by
      have hgauge : m.2.gauge = (s.openSession pCmd len).gauge := by rw [← hmark, gauge_markFragReceived]
      have hopen : m.2.rcb.datagramSize = fragDatagramSize pCmd := congrArg Gauge.size hgauge
      omega
    unfold finishFirstFragmentAccesses
    split
    · exact Access.allInBounds_nil
    split
    · apply inBounds_sendFragCompleteCmd
      rw [t2SmPostEvent_eq]
      exact hm
    · exact Access.allInBounds_nil

theorem inBounds_receiveSubsequentFragment (pCmd : Mem) (len : Nat) :
    Access.AllInBounds (receiveSubsequentFragmentAccesses env s pCmd len) := by
  unfold receiveSubsequentFragmentAccesses
  dsimp only
  split
  · exact Access.allInBounds_nil
  rename_i hlong
  refine .cons (Nat.lt_succ_of_le (fragSession_le pCmd)) ?_
  split
  · exact Access.allInBounds_nil
  split
  · exact Access.allInBounds_nil
  split
  · exact Access.allInBounds_nil
  rename_i hbound
  split
  · exact Access.allInBounds_nil
  rename_i hsize
  have hrecvd : len - subseqFragNonpayloadLength ≠ 0 := by
    have hlt : subseqFragNonpayloadLength < len := Nat.lt_of_not_le fun hle => hlong (.inl hle)
    omega
  refine .append (inBounds_markFragReceived (.inr (.inr hrecvd)) (Nat.le_of_not_lt hbound)) ?_
  unfold finishSubseqFragmentAccesses
  split
  · exact Access.allInBounds_nil
  · refine .cons (Nat.le_of_not_lt hbound) ?_
    split
    · apply inBounds_findMissing
      rw [t2SmPostEvent_eq]
      exact Nat.le_of_not_lt hsize
    · exact Access.allInBounds_nil

theorem inBounds_receiveSegmentRequest (hsession : s.scb.cmn.sessionId < 15) (pCmd : Mem) :
    Access.AllInBounds (s.receiveSegmentRequestAccesses pCmd) := by
  unfold receiveSegmentRequestAccesses
  split
  · exact Access.allInBounds_nil
  · unfold acceptSegmentRequestAccesses
    dsimp only
    split
    · exact Access.allInBounds_nil
    · apply inBounds_replyFragReq
      rw [t2SmPostEvent_eq]
      exact hsession

theorem inBounds_receiveSegmentComplete (hsession : s.scb.cmn.sessionId < 15) (pCmd : Mem) :
    Access.AllInBounds (s.receiveSegmentCompleteAccesses pCmd) := by
  unfold receiveSegmentCompleteAccesses
  split
  · exact Access.allInBounds_nil
  next hrefused =>
    obtain ⟨-, hsame, -⟩ := (segmentRefused_eq_none s pCmd).mp hrefused
    refine .cons ?_ Access.allInBounds_nil
    change segmentSession pCmd < 15
    omega

theorem inBounds_receiveSegmentWait (hsession : s.scb.cmn.sessionId < 15) (hwait : s.CanWait) :
    Access.AllInBounds s.receiveSegmentWaitAccesses := by
  unfold receiveSegmentWaitAccesses
  refine .cons hsession ?_
  dsimp only
  split
  · exact Access.allInBounds_nil
  · have hposted := (canWait_t2SmPostEvent .recvFragWait).mpr hwait
    rw [t2SmPostEvent_eq] at hposted ⊢
    refine (inBounds_tsSenddataCb ?_).mpr fun _ _ => hposted
    exact hsession

theorem inBounds_receive (hsession : s.scb.cmn.sessionId < 15) (hwait : s.CanWait) (pCmd : Mem) {len : Nat}
    (hlen : len ≤ datagramSizeMax) : Access.AllInBounds (receiveAccesses env s pCmd len) := by
  have hposted : (s.t2SmPostEvent .fragReqOrCompl).scb.cmn.sessionId < 15 := by
    rw [t2SmPostEvent_eq]
    exact hsession
  unfold receiveAccesses
  split
  · exact Access.allInBounds_nil
  split
  · exact inBounds_receiveFirstFragment env pCmd hlen
  split
  · exact inBounds_receiveSubsequentFragment env pCmd len
  split
  · exact inBounds_receiveSegmentRequest hposted pCmd
  split
  · exact inBounds_receiveSegmentComplete hposted pCmd
  split
  · exact inBounds_receiveSegmentWait hsession hwait
  · exact Access.allInBounds_nil

end Accesses

/-! ## The steps -/

structure RefusesThirdNode (s : TransportService) (p : TsParam) (len : Nat) : Prop where
  nodes : p.snode ≠ p.dnode
  short : len ≤ datagramSizeMax
  third : s.fromThirdNode p = true
  flags : p.rxFlags = receiveStatusTypeSingle
  state : s.currentState ≠ .sendFragWait

/-- No empty datagram is sent, no session is the sixteenth, and there is something to count the segments of a
segment wait with. -/
def Harmless (s : TransportService) : TsEvent → Prop
  | .sendData _ _ dataLength => s.isBusy = false → dataLength ≠ 0 ∧ s.scb.cmn.sessionId ≠ 14
  | .frame p _ cmdLength => s.RefusesThirdNode p cmdLength.toNat → s.CanWait
  | .transmitDone cb _ =>
    cb = .tsSenddataCb ∧ cb ∈ s.owed → s.scb.flagReplyFragReq = false → s.flagSendFragWait = true → s.CanWait
  | .expired .waitRestart => s.timers .waitRestart = true → s.scb.datagramLen ≠ 0 ∧ s.scb.cmn.sessionId ≠ 14
  | .expired _ => True

structure Bounded (s : TransportService) : Prop where
  sane : s.gauge.Sane
  session : s.scb.cmn.sessionId < 15

section Steps

variable (env : TsEnv) {s : TransportService}

theorem nextSessionId_lt (h : s.scb.cmn.sessionId < 15) : nextSessionId env s < 15 ↔ s.scb.cmn.sessionId ≠ 14 := by
  unfold nextSessionId
  dsimp only
  by_cases hzero : s.scb.cmn.sessionId = 0
  · have hmod := Nat.mod_lt (env.rand s.nRand) (show 0xf > 0 by decide)
    rw [if_pos hzero, if_neg (by omega)]
    omega
  · rw [if_neg hzero, if_neg (by omega)]
    omega

theorem datalenToSend_takeFirstFrag : s.takeFirstFrag.scb.datalenToSend ≠ 0 ↔ s.scb.datagramLen ≠ 0 := by
  have hmax : fragmentMaxPayloadFor s.scb.cmn.p.txFlags ≠ 0 := by
    unfold fragmentMaxPayloadFor
    split
    · decide
    · split <;> decide
  change (if fragmentMaxPayloadFor s.scb.cmn.p.txFlags < s.scb.datagramLen then
    fragmentMaxPayloadFor s.scb.cmn.p.txFlags else s.scb.datagramLen) ≠ 0 ↔ _
  split <;> omega

theorem inBounds_sendFirstFrag (hsession : s.scb.cmn.sessionId < 15) :
    Access.AllInBounds (sendFirstFragAccesses env s) ↔ s.scb.datagramLen ≠ 0 ∧ s.scb.cmn.sessionId ≠ 14 := by
  have hdatalen : (startSession env s).takeFirstFrag.scb.datalenToSend ≠ 0 ↔ s.scb.datagramLen ≠ 0 :=
    datalenToSend_takeFirstFrag
  unfold sendFirstFragAccesses Access.AllInBounds
  simp only [List.forall_mem_cons, List.not_mem_nil, false_imp_iff, implies_true, and_true]
  rw [and_comm]
  exact and_congr hdatalen (nextSessionId_lt env hsession)

theorem inBounds_sendData (hsession : s.scb.cmn.sessionId < 15) (p : TsParam) (pData : Mem) (dataLength : UInt16) :
    Access.AllInBounds (sendDataAccesses env s p pData dataLength) ↔
      (s.isBusy = false → dataLength ≠ 0 ∧ s.scb.cmn.sessionId ≠ 14) := by
  have hbusy : ((({ s with nCalls := s.nCalls + 1 }).ctimerSet .reset).isSending ||
      (({ s with nCalls := s.nCalls + 1 }).ctimerSet .reset).isReceving) = s.isBusy := rfl
  unfold sendDataAccesses
  dsimp only
  rw [hbusy]
  cases hidle : s.isBusy with
  | true => simp [Access.allInBounds_nil]
  | false =>
    rw [if_neg Bool.false_ne_true]
    generalize hready : (acceptSendData _ s.nCalls p pData dataLength).postStartSend = ready
    have hgauge : ready.gauge = { s.gauge with datagram := pData, datagramLen := dataLength.toNat } := by
      rw [← hready, gauge_postStartSend]
      rfl
    have hready : ready.scb.cmn.sessionId = s.scb.cmn.sessionId := congrArg Gauge.session hgauge
    have hlen : ready.scb.datagramLen = dataLength.toNat := congrArg Gauge.datagramLen hgauge
    have hzero : dataLength.toNat ≠ 0 ↔ dataLength ≠ 0 := by
      rw [ne_eq, ne_eq, ← UInt16.toNat_inj]
      rfl
    rw [inBounds_sendFirstFrag env (by omega), hready, hlen, hzero]
    exact ⟨fun h _ => h, fun h => h rfl⟩

theorem currentState_tieBreak (hsending : s.isSending = true) :
    (s.t2SmPostEvent .tieBreak).currentState = .receiving := by
  have hfound : ∃ t, findTransition s.currentState .tieBreak = some t ∧ t.nextSt = .receiving := by
    unfold isSending at hsending
    cases hstate : s.currentState <;> rw [hstate] at hsending <;> first | exact ⟨_, rfl, rfl⟩ | cases hsending
  obtain ⟨t, ht, hnext⟩ := hfound
  rw [t2SmPostEvent, ht]
  exact hnext

theorem tieBreak_sendFragWait (p : TsParam) :
    (tieBreak env s p).currentState = .sendFragWait ↔ s.currentState = .sendFragWait := by
  unfold tieBreak
  split
  next hbroken =>
    obtain ⟨hsending, -⟩ := hbroken
    refine iff_of_false ?_ fun hstate => ?_
    · change (s.t2SmPostEvent .tieBreak).currentState ≠ .sendFragWait
      rw [currentState_tieBreak hsending]
      exact fun hwait => by cases hwait
    · rw [isSending, hstate] at hsending
      cases hsending
  next => exact Iff.rfl

theorem inBounds_applicationCommandHandler (h : s.Bounded) (p : TsParam) (pCmd : Mem) (cmdLength : UInt8) :
    Access.AllInBounds (applicationCommandHandlerAccesses env s p pCmd cmdLength) ↔
      (s.RefusesThirdNode p cmdLength.toNat → s.CanWait) := by
  unfold applicationCommandHandlerAccesses
  dsimp only
  generalize hbroken : tieBreak env ((s.log (.received p pCmd cmdLength.toNat)).ctimerSet .reset) p = broken
  have hrcb : broken.rcb = s.rcb := by
    rw [← hbroken, tieBreak_rcb]
    rfl
  have hscb : broken.scb = s.scb := by
    rw [← hbroken, tieBreak_scb]
    rfl
  have hstate : broken.currentState = .sendFragWait ↔ s.currentState = .sendFragWait := by
    rw [← hbroken]
    exact tieBreak_sendFragWait env (s := (s.log _).ctimerSet .reset) p
  have hgauge : broken.gauge = s.gauge := by
    rw [← hbroken]
    simp
  have hthird : (broken.setFragWaitP p).fromThirdNode p = s.fromThirdNode p := by
    simp [fromThirdNode, setFragWaitP, hrcb, hscb]
  have hcan : (broken.setFragWaitP p).CanWait ↔ s.CanWait := by
    simp [CanWait, setFragWaitP, hrcb, hscb]
  split
  next hdropped =>
    refine iff_of_true Access.allInBounds_nil fun hrefuses => ?_
    rcases hdropped with hnodes | hlong
    · exact absurd hnodes hrefuses.nodes
    · exact absurd hrefuses.short (Nat.not_le.mpr hlong)
  rename_i htaken
  obtain ⟨hnodes, hlong⟩ := not_or.mp htaken
  unfold filterFrameAccesses
  rw [hthird]
  split
  next hsingle =>
    obtain ⟨hthird, hflags⟩ := hsingle
    unfold refuseThirdNodeAccesses
    split
    next hwaiting =>
      refine iff_of_true Access.allInBounds_nil fun hrefuses => ?_
      exact absurd (hstate.mp hwaiting) hrefuses.state
    next hwaiting =>
      rw [inBounds_sendFragWaitOrFlag, canWait_t2SmPostEvent, hcan]
      have hrefuses : s.RefusesThirdNode p cmdLength.toNat :=
        ⟨hnodes, Nat.le_of_not_lt hlong, hthird, hflags, fun hs => hwaiting (hstate.mpr hs)⟩
      exact ⟨fun hwait _ => hwait, fun hwait => hwait hrefuses⟩
  rename_i hsingle
  have hnot : ¬s.RefusesThirdNode p cmdLength.toNat := fun hrefuses => hsingle ⟨hrefuses.third, hrefuses.flags⟩
  refine iff_of_true ?_ fun hrefuses => absurd hrefuses hnot
  split
  · exact Access.allInBounds_nil
  split
  next hnone =>
    unfold refuseSubseqFragmentAccesses
    split
    · exact Access.allInBounds_nil
    · rw [inBounds_sendFragWaitOrFlag, canWait_t2SmPostEvent]
      exact .inr (.inl hnone.1)
  next =>
    -- the receiving control block has been initialised when the frame is looked at
    have hpost : ((broken.setFragWaitP p).postRecv).gauge = s.gauge := by
      rw [gauge_postRecv, gauge_setFragWaitP, hgauge]
    generalize hready : (broken.setFragWaitP p).postRecv = ready at hpost ⊢
    have hsane : ready.initializeOnce.gauge.Sane := sane_initializeOnce (hpost ▸ h.sane)
    have hfresh : ready.initializeOnce.flagInitializeOnce = false := by
      unfold initializeOnce
      split
      · rfl
      · simpa using ‹¬ready.flagInitializeOnce = true›
    have hsender : ready.initializeOnce.gauge.sender = s.gauge.sender := by rw [sender_initializeOnce, hpost]
    have hsession : ready.initializeOnce.scb.cmn.sessionId = s.scb.cmn.sessionId := congrArg Prod.fst hsender
    refine inBounds_receive env ?_ ?_ pCmd (Nat.le_of_not_lt hlong)
    · change ready.initializeOnce.scb.cmn.sessionId < 15
      exact hsession ▸ h.session
    · exact .inr (hsane.divisor hfresh)

theorem inBounds_accesses (h : s.Bounded) (e : TsEvent) : Access.AllInBounds (accesses env s e) ↔ s.Harmless e := by
  cases e with
  | sendData p pData dataLength => exact inBounds_sendData env h.session p pData dataLength
  | frame p pCmd cmdLength => exact inBounds_applicationCommandHandler env h p pCmd cmdLength
  | transmitDone cb status =>
    simp only [accesses, Harmless]
    split
    next howed =>
      have hcb := inBounds_tsSenddataCb (s := { s with owed := s.owed.erase cb }) h.session
      exact hcb.trans ⟨fun hwait _ => hwait, fun hwait => hwait howed⟩
    next howed => exact iff_of_true Access.allInBounds_nil fun howed' => absurd howed' howed
  | expired t =>
    simp only [accesses]
    split
    next hset =>
      cases t with
      | fc => exact iff_of_true Access.allInBounds_nil trivial
      | rx => exact iff_of_true (inBounds_rxTimerExpired h.sane.size) trivial
      | reset => exact iff_of_true Access.allInBounds_nil trivial
      | waitRestart =>
        have hfirst := inBounds_sendFirstFrag env (s := s.ctimerStop .waitRestart) h.session
        exact hfirst.trans ⟨fun hready _ => hready, fun hready => hready hset⟩
      | btwn2Frags => exact iff_of_true (.cons h.session Access.allInBounds_nil) trivial
    next hset =>
      refine iff_of_true Access.allInBounds_nil ?_
      cases t with
      | waitRestart => exact fun hset' => absurd hset' hset
      | fc | rx | reset | btwn2Frags => trivial

theorem session_sendFirstFrag : (sendFirstFrag env s).scb.cmn.sessionId = nextSessionId env s :=
  congrArg Gauge.session (gauge_sendFirstFrag env s)

theorem bounded_step (e : TsEvent) (hharmless : s.Harmless e) (h : s.Bounded) : (step env s e).Bounded := by
  refine ⟨sane_step env h.sane e, ?_⟩
  have hkept : (∀ p pData dataLength, e = .sendData p pData dataLength → s.isBusy = true) →
      s.restarts e = false → (step env s e).scb.cmn.sessionId < 15 := by
    intro hsend hrestart
    have hsender := sender_step env s hsend hrestart
    have hsession : (step env s e).scb.cmn.sessionId = s.scb.cmn.sessionId := congrArg Prod.fst hsender
    exact hsession ▸ h.session
  cases e with
  | sendData p pData dataLength =>
    cases hbusy : s.isBusy with
    | true => exact hkept (fun _ _ _ _ => hbusy) rfl
    | false =>
      have hidle : (({ s with nCalls := s.nCalls + 1 }).ctimerSet .reset).isBusy = false := hbusy
      rw [isBusy] at hidle
      simp only [step, sendData]
      rw [hidle, if_neg Bool.false_ne_true, session_sendFirstFrag]
      generalize hready : (acceptSendData _ s.nCalls p pData dataLength).postStartSend = ready
      have hsession : ready.scb.cmn.sessionId = s.scb.cmn.sessionId := by
        have hgauge : ready.gauge = { s.gauge with datagram := pData, datagramLen := dataLength.toNat } := by
          rw [← hready, gauge_postStartSend]
          rfl
        exact congrArg Gauge.session hgauge
      refine (nextSessionId_lt env ?_).mpr ?_
      · exact hsession ▸ h.session
      · exact hsession ▸ (hharmless hbusy).2
  | frame p pCmd cmdLength => exact hkept (fun _ _ _ hsend => TsEvent.noConfusion hsend) rfl
  | transmitDone cb status => exact hkept (fun _ _ _ hsend => TsEvent.noConfusion hsend) rfl
  | expired t =>
    cases hset : s.restarts (.expired t) with
    | false => exact hkept (fun _ _ _ hsend => TsEvent.noConfusion hsend) hset
    | true =>
      cases t with
      | waitRestart =>
        have hset : s.timers .waitRestart = true := hset
        simp only [step]
        rw [if_pos hset]
        change (sendFirstFrag env (s.ctimerStop .waitRestart)).scb.cmn.sessionId < 15
        rw [session_sendFirstFrag]
        exact (nextSessionId_lt env h.session).mpr (hharmless hset).2
      | fc | rx | reset | btwn2Frags => cases hset

end Steps

theorem bounded_init : init.Bounded :=
  ⟨sane_init, by decide⟩

/-- In a run every access is inside its array, and no divisor is zero, exactly when every step is harmless. -/
theorem run_inBounds_iff (env : TsEnv) (events : List TsEvent) :
    Machine.Admissible (step env) (fun s e => Access.AllInBounds (accesses env s e)) init events ↔
      Machine.Admissible (step env) Harmless init events := by
  have hiff : ∀ (s : TransportService) (e : TsEvent), s.Bounded →
      (Access.AllInBounds (accesses env s e) ↔ s.Harmless e) := fun _ e h => inBounds_accesses env h e
  have hstep : ∀ (s : TransportService) (e : TsEvent), s.Harmless e → s.Bounded → (step env s e).Bounded :=
    fun _ e hharmless h => bounded_step env e hharmless h
  exact Machine.admissible_iff hiff hstep bounded_init events

def sampleWait (snode : NodeId) : TsEvent :=
  .frame { snode := snode, dnode := 1, txFlags := 0, rxFlags := receiveStatusTypeSingle }
    (Mem.ofBytes (fragWaitFrame 0)) 3

/-- A segment wait that arrives where nothing was ever sent restarts the datagram of no bytes. -/
theorem not_run_inBounds : ¬∀ (env : TsEnv) (events : List TsEvent),
    Machine.Admissible (step env) (fun s e => Access.AllInBounds (accesses env s e)) init events := by
  intro hall
  have hwait := hall sampleTsEnv [sampleWait 5, .expired .waitRestart]
  revert hwait
  decide

end TransportService

end ZipGateway

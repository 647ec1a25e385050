import ZipGateway.TransportService.Soundness

/-!
# The completion of calls

What a caller of `ZW_TransportService_SendData` is promised: the `completedFunc` of an accepted call
is called at most once, with a positive status only after the destination acknowledged the session
the datagram was sent in, and the one of a refused call is not called. `ledger` is the part of the
state this depends on.
-/

namespace ZipGateway

namespace TsOut

def concernsCaller : TsOut → Bool
  | .received .. => true
  | .called .. => true
  | .started .. => true
  | .completed .. => true
  | _ => false

def isCompletionOf (call : Nat) : TsOut → Bool
  | .completed c _ => c == call
  | _ => false

end TsOut

/-- The calls of the `completedFunc` of a call. -/
def completions (call : Nat) (history : List TsOut) : Nat :=
  history.countP (TsOut.isCompletionOf call)

def Frame.Acknowledges (f : Frame) (snode : NodeId) (session : Nat) : Prop :=
  f.pCmd 0 = commandClassTransportService ∧ cmdType f.pCmd = commandSegmentComplete ∧
    segmentSession f.pCmd = session ∧ f.p.snode = snode

instance (f : Frame) (snode : NodeId) (session : Nat) : Decidable (f.Acknowledges snode session) :=
  inferInstanceAs (Decidable (_ ∧ _))

structure SendSession where
  call : Option Nat
  id : Nat
  frames : List Frame

def SendSession.add (session : SendSession) (f : Frame) : SendSession :=
  { session with frames := f :: session.frames }

def sendSessionOf : List TsOut → Option SendSession
  | [] => none
  | .started call id :: _ => some ⟨call, id, []⟩
  | .received p pCmd len :: history => (sendSessionOf history).map (·.add ⟨p, pCmd, len⟩)
  | _ :: history => sendSessionOf history

def destinationOf (call : Nat) : List TsOut → Option NodeId
  | [] => none
  | .called c p true :: history => if c = call then some p.dnode else destinationOf call history
  | _ :: history => destinationOf call history

def Acknowledged (call : Nat) (history : List TsOut) : Prop :=
  ∃ session ∈ sendSessionOf history, session.call = some call ∧
    ∃ dnode ∈ destinationOf call history, ∃ f ∈ session.frames, f.Acknowledges dnode session.id

instance (call : Nat) (history : List TsOut) : Decidable (Acknowledged call history) :=
  inferInstanceAs (Decidable (∃ session ∈ _, _))

def OkAcknowledged : List TsOut → Prop
  | [] => True
  | .completed call status :: history =>
    (status = transmitCompleteOk → Acknowledged call history) ∧ OkAcknowledged history
  | _ :: history => OkAcknowledged history

structure Promised (history : List TsOut) : Prop where
  once : ∀ call p, .called call p true ∈ history → completions call history ≤ 1
  never : ∀ call p, .called call p false ∈ history → completions call history = 0
  ok : OkAcknowledged history

/-- The session that is aborted and the flag that remembers a broken tie. -/
structure Stake where
  aborted : Nat
  tieBroken : Bool

structure Ledger where
  call : Option Nat
  session : Nat
  dnode : NodeId
  nCalls : Nat
  history : List TsOut
  stake : Stake

namespace TransportService

def ledger (s : TransportService) : Ledger where
  call := s.scb.completedFunc
  session := s.scb.cmn.sessionId
  dnode := s.scb.cmn.p.dnode
  nCalls := s.nCalls
  history := s.out.filter TsOut.concernsCaller
  stake := ⟨s.scb.transmissionAborted, s.flagTieBroken⟩

/-- The part of the state the tie-break decides about. -/
def stake (s : TransportService) : Stake :=
  s.ledger.stake

theorem stake_eq {s t : TransportService} (h : t.ledger = s.ledger) : t.stake = s.stake :=
  congrArg Ledger.stake h

end TransportService

def Ledger.setStake (l : Ledger) (stake : Stake) : Ledger :=
  { l with stake := stake }

def Ledger.complete (l : Ledger) (status : UInt8) : Ledger :=
  match l.call with
  | some call => { l with history := .completed call status :: l.history }
  | none => l

theorem Ledger.complete_setStake (l : Ledger) (stake : Stake) (status : UInt8) :
    (l.setStake stake).complete status = (l.complete status).setStake stake := by
  rcases l with ⟨_ | call⟩ <;> rfl

theorem Ledger.stake_complete (l : Ledger) (status : UInt8) : (l.complete status).stake = l.stake := by
  rcases l with ⟨_ | call⟩ <;> rfl

variable {history : List TsOut} {call : Nat} {o : TsOut}

namespace TransportService

section Inert

variable (s : TransportService)

@[simp]
theorem ledger_mk (rcb : ReceivingCntrlBlk) (st : T2State) (init : Bool) (max : Nat) (buf : Mem)
    (timers : Timer → Bool) (owed : List TxCallback) (nRaw nLast nRand : Nat) :
    ledger { s with
      rcb := rcb, currentState := st, flagInitializeOnce := init
      fragmentMaxPayload := max, t2TxBuf := buf, timers := timers, owed := owed, nRaw := nRaw
      nLast := nLast, nRand := nRand } = s.ledger := rfl

@[simp]
theorem ledger_t2SmPostEvent (ev : T2Event) : (s.t2SmPostEvent ev).ledger = s.ledger := by
  rw [t2SmPostEvent_eq]
  exact ledger_mk ..

theorem ledger_log (o : TsOut) : (s.log o).ledger = { s.ledger with
      history := if o.concernsCaller then o :: s.ledger.history else s.ledger.history } := by
  simp only [ledger, log, List.filter_cons]

@[simp]
theorem ledger_ctimerSet (t : Timer) : (s.ctimerSet t).ledger = s.ledger := rfl

@[simp]
theorem ledger_ctimerStop (t : Timer) : (s.ctimerStop t).ledger = s.ledger := rfl

@[simp]
theorem ledger_setFragComplList (i : Nat) (b : Bool) : (s.setFragComplList i b).ledger = s.ledger := rfl

@[simp]
theorem ledger_setFlagSendFragWait (b : Bool) : (s.setFlagSendFragWait b).ledger = s.ledger := rfl

@[simp]
theorem ledger_tsSendRaw (env : TsEnv) (snode dnode : NodeId) (buf : Mem) (len : Nat)
    (txFlags : UInt8) (cb : Option TxCallback) :
    (s.tsSendRaw env snode dnode buf len txFlags cb).2.ledger = s.ledger := rfl

@[simp]
theorem ledger_sendFragment (env : TsEnv) (len : Nat) (cb : TxCallback) :
    (s.sendFragment env len cb).2.ledger = s.ledger := rfl

@[simp]
theorem ledger_complete (status : UInt8) : (s.complete status).ledger = s.ledger.complete status := by
  unfold complete Ledger.complete
  change _ = match s.scb.completedFunc with | some call => _ | none => _
  cases s.scb.completedFunc with
  | none => rfl
  | some call => exact ledger_log ..

@[simp]
theorem ledger_fillSubseqFrag (offset : Nat) : (s.fillSubseqFrag offset).ledger = s.ledger := rfl

@[simp]
theorem ledger_fillFirstFrag : s.fillFirstFrag.ledger = s.ledger := rfl

@[simp]
theorem ledger_tryLastFrag (ok : Bool) : (s.tryLastFrag ok).ledger = s.ledger := rfl

@[simp]
theorem ledger_retryLastFrag (refusals : Nat) : (retryLastFrag refusals s).ledger = s.ledger := by
  induction refusals generalizing s with
  | zero => exact ledger_tryLastFrag s true
  | succ refusals ih => rw [retryLastFrag, ih, ledger_tryLastFrag]

@[simp]
theorem ledger_awaitFragComplete : s.awaitFragComplete.ledger = s.ledger := by
  unfold awaitFragComplete
  split <;> simp

variable (env : TsEnv)

@[simp]
theorem ledger_sendLastFrag : (sendLastFrag env s).ledger = s.ledger := by
  simp [sendLastFrag]

@[simp]
theorem ledger_scb (scb : SendingCntrlBlk) (hcall : scb.completedFunc = s.scb.completedFunc)
    (hsession : scb.cmn.sessionId = s.scb.cmn.sessionId) (hp : scb.cmn.p = s.scb.cmn.p)
    (haborted : scb.transmissionAborted = s.scb.transmissionAborted) :
    ledger { s with scb := scb } = s.ledger := by
  simp [ledger, hcall, hsession, hp, haborted]

@[simp]
theorem ledger_takeSubseqFrag : s.takeSubseqFrag.ledger = s.ledger := rfl

@[simp]
theorem ledger_buildSubseqFrag : s.buildSubseqFrag.ledger = s.ledger := rfl

@[simp]
theorem ledger_advanceSubseqFrag (r : Bool × TransportService) : (advanceSubseqFrag r).ledger = r.2.ledger := by
  unfold advanceSubseqFrag
  dsimp only
  split <;> rfl

@[simp]
theorem ledger_sendSubseqFrag : (sendSubseqFrag env s).ledger = s.ledger := by
  unfold sendSubseqFrag emitSubseqFrag
  dsimp only
  split
  · simp
  · split <;> simp

@[simp]
theorem ledger_takeFirstFrag : s.takeFirstFrag.ledger = s.ledger := rfl

@[simp]
theorem ledger_emitFirstFrag : (emitFirstFrag env s).ledger = s.ledger := by
  unfold emitFirstFrag
  dsimp only
  split
  · simp
  · split <;> simp

@[simp]
theorem ledger_takeMissingFrag : s.takeMissingFrag.ledger = s.ledger := rfl

@[simp]
theorem ledger_replyFragReq : (replyFragReq env s).ledger = s.ledger := by
  unfold replyFragReq emitMissingFrag
  dsimp only
  split
  · rfl
  · split <;> simp

@[simp]
theorem ledger_sendFragWaitCmd : (sendFragWaitCmd env s).ledger = s.ledger := by
  unfold sendFragWaitCmd sendFragWaitSending sendFragWaitReceiving
  split <;> simp

@[simp]
theorem ledger_tsSenddataCb : (tsSenddataCb env s).ledger = s.ledger := by
  unfold tsSenddataCb
  split
  · simp
  · split
    · simp
    · split <;> simp

@[simp]
theorem ledger_postStartSend : s.postStartSend.ledger = s.ledger := by
  unfold postStartSend
  split <;> simp

@[simp]
theorem ledger_sendFragWaitOrFlag : (sendFragWaitOrFlag env s).ledger = s.ledger := by
  unfold sendFragWaitOrFlag
  split <;> simp

theorem ledger_abortIfTieBroken : s.abortIfTieBroken.ledger = s.ledger.setStake
      (if s.flagTieBroken then { s.stake with aborted := s.scb.cmn.sessionId } else s.stake) := by
  unfold abortIfTieBroken
  split <;> rfl

@[simp]
theorem ledger_dropDuplicate : s.dropDuplicate.ledger = s.ledger := by
  unfold dropDuplicate
  split <;> simp

@[simp]
theorem ledger_discardAllReceivedFragments : s.discardAllReceivedFragments.ledger = s.ledger := by
  unfold discardAllReceivedFragments
  rw [ledger_log]
  rfl

@[simp]
theorem ledger_sendFragCompleteCmd : (sendFragCompleteCmd env s).ledger = s.ledger := by
  unfold sendFragCompleteCmd
  split
  · rfl
  · simp [ledger_log, TsOut.concernsCaller]

@[simp]
theorem ledger_retryFragReq (retries : Nat) : (retryFragReq env s retries).ledger = s.ledger := by
  induction retries generalizing s with
  | zero => simp [retryFragReq]
  | succ retries ih =>
    unfold retryFragReq
    dsimp only
    split
    · simp
    · rw [ih]
      simp

@[simp]
theorem ledger_sendFragReqCmd : (sendFragReqCmd env s).ledger = s.ledger := by
  unfold sendFragReqCmd
  dsimp only
  split
  · simp
  · split <;> simp

@[simp]
theorem ledger_findMissing : (findMissing env s).ledger = s.ledger := by
  unfold findMissing
  dsimp only
  split
  · split <;> simp
  · split <;> simp

@[simp]
theorem ledger_rxTimerExpired : (rxTimerExpired env s).ledger = s.ledger := by
  unfold rxTimerExpired
  dsimp only
  split <;> simp

@[simp]
theorem ledger_resetTransportService : s.resetTransportService.ledger = s.ledger := by
  simp [resetTransportService]

@[simp]
theorem ledger_markFragReceived (offset size : Nat) : (markFragReceived env s offset size).2.ledger = s.ledger := by
  unfold markFragReceived
  split <;> simp

@[simp]
theorem ledger_openSession (pCmd : Mem) (len : Nat) : (s.openSession pCmd len).ledger = s.ledger := by
  unfold openSession
  rw [ledger_log]
  rfl

@[simp]
theorem ledger_receiveFirstFragment (pCmd : Mem) (len : Nat) :
    (receiveFirstFragment env s pCmd len).ledger = s.ledger := by
  unfold receiveFirstFragment finishFirstFragment
  split
  · simp
  split
  · simp
  split
  · simp
  split
  · simp
  split <;> simp

@[simp]
theorem ledger_setCurRecvdDataSize (size : Nat) : (s.setCurRecvdDataSize size).ledger = s.ledger := rfl

@[simp]
theorem ledger_storeSubseqFragment (pCmd : Mem) (size : Nat) :
    (s.storeSubseqFragment pCmd size).ledger = s.ledger := rfl

@[simp]
theorem ledger_receiveSubsequentFragment (pCmd : Mem) (len : Nat) :
    (receiveSubsequentFragment env s pCmd len).ledger = s.ledger := by
  unfold receiveSubsequentFragment finishSubseqFragment
  dsimp only
  split
  · simp
  split
  · simp
  split
  · simp
  split
  · simp
  split
  · simp
  split
  · simp
  split <;> simp

@[simp]
theorem ledger_receiveSegmentRequest (pCmd : Mem) : (receiveSegmentRequest env s pCmd).ledger = s.ledger := by
  unfold receiveSegmentRequest acceptSegmentRequest
  dsimp only
  split
  · simp
  · split <;> simp

theorem ledger_receiveSegmentWait (pCmd : Mem) : (receiveSegmentWait env s pCmd).ledger = s.ledger.setStake
      (if s.scb.fragComplList s.scb.cmn.sessionId then s.stake
      else { s.stake with aborted := s.scb.cmn.sessionId }) := by
  unfold receiveSegmentWait
  dsimp only
  split
  · exact ledger_t2SmPostEvent s _
  · simp only [ledger_ctimerSet, ledger_mk, ledger_tsSenddataCb]
    rw [t2SmPostEvent_eq]
    rfl

theorem ledger_tieBreak (p : TsParam) :
    (tieBreak env s p).ledger = s.ledger.setStake (tieBreak env s p).stake := by
  unfold tieBreak
  rw [t2SmPostEvent_eq]
  split <;> rfl

@[simp]
theorem ledger_refuseThirdNode : (refuseThirdNode env s).ledger = s.ledger := by
  unfold refuseThirdNode
  split <;> simp

@[simp]
theorem ledger_refuseSubseqFragment (pCmd : Mem) : (refuseSubseqFragment env s pCmd).ledger = s.ledger := by
  unfold refuseSubseqFragment
  split <;> simp

@[simp]
theorem ledger_postRecv : s.postRecv.ledger = s.ledger := by
  unfold postRecv
  split <;> simp

@[simp]
theorem ledger_initializeOnce : s.initializeOnce.ledger = s.ledger := by
  unfold initializeOnce
  split <;> simp

@[simp]
theorem ledger_setRcbP (p : TsParam) : (s.setRcbP p).ledger = s.ledger := rfl

@[simp]
theorem ledger_setFragWaitP (p : TsParam) : (s.setFragWaitP p).ledger = s.ledger := rfl

end Inert

end TransportService

namespace Ledger

def start (l : Ledger) (session : Nat) : Ledger :=
  { l with session := session, history := .started l.call session :: l.history }

def accept (l : Ledger) (p : TsParam) : Ledger :=
  { l with
    call := some l.nCalls, dnode := p.dnode, nCalls := l.nCalls + 1
    history := .called l.nCalls p true :: l.history
    stake := { l.stake with aborted := 0x11 } }

def hear (l : Ledger) (p : TsParam) (pCmd : Mem) (len : Nat) : Ledger :=
  { l with history := .received p pCmd len :: l.history }

def Pending (l : Ledger) : Prop :=
  ∀ call, l.call = some call → completions call l.history = 0

end Ledger

namespace TransportService

section Active

variable (env : TsEnv) (s : TransportService)

theorem ledger_sendFirstFrag : (sendFirstFrag env s).ledger = s.ledger.start (nextSessionId env s) := by
  unfold sendFirstFrag
  rw [ledger_emitFirstFrag, ledger_fillFirstFrag, ledger_takeFirstFrag]
  exact ledger_log ..

/-- The call of `ZW_TransportService_SendData` is refused. -/
def isBusy : Bool :=
  s.isSending || s.isReceving

theorem ledger_sendData (p : TsParam) (pData : Mem) (dataLength : UInt16) (hidle : s.isBusy = false) : ∃ session,
      (sendData env s p pData dataLength).ledger = (s.ledger.accept p).start session := by
  unfold sendData
  dsimp only
  rw [if_neg]
  · generalize hready : (acceptSendData _ s.nCalls p pData dataLength).postStartSend = ready
    have hledger : ready.ledger = s.ledger.accept p := by
      rw [← hready, ledger_postStartSend]
      rfl
    exact ⟨nextSessionId env ready, by rw [ledger_sendFirstFrag, hledger]⟩
  · intro hbusy
    exact absurd (hidle.symm.trans hbusy) (by decide)

theorem ledger_tempCallbackReplyFragReq (status : UInt8) : (s.tempCallbackReplyFragReq status).ledger =
      if status = transmitCompleteOk then s.ledger else s.ledger.complete status := by
  unfold tempCallbackReplyFragReq
  dsimp only
  rw [ledger_t2SmPostEvent]
  split <;> simp

def fcTimerReports : Prop :=
  s.scb.flagRepliedFragReq = true ∨ s.scb.transmissionAborted = s.scb.cmn.sessionId ∨
    s.scb.flagFcTimerExpiredOnce = true

instance : Decidable s.fcTimerReports :=
  inferInstanceAs (Decidable (_ ∨ _))

theorem ledger_fcTimerExpired : (fcTimerExpired env s).ledger =
    (if s.fcTimerReports then s.ledger.complete transmitCompleteFail else s.ledger).setStake
      (if s.scb.flagRepliedFragReq then { s.stake with aborted := s.scb.cmn.sessionId } else s.stake) := by
  have hcomplete : (s.ledger.complete transmitCompleteFail).setStake s.stake = s.ledger.complete transmitCompleteFail :=
    (s.ledger.complete_setStake s.stake _).symm
  unfold fcTimerExpired
  dsimp only
  by_cases hreplied : s.scb.flagRepliedFragReq = true
  · rw [if_pos hreplied, if_pos (.inl hreplied), if_pos hreplied, ledger_complete, ledger_t2SmPostEvent]
    exact s.ledger.complete_setStake _ _
  rw [if_neg hreplied, if_neg hreplied]
  by_cases haborted : s.scb.transmissionAborted = s.scb.cmn.sessionId
  · rw [if_pos haborted, if_pos (.inr (.inl haborted)), hcomplete]
    simp
  rw [if_neg haborted]
  by_cases honce : s.scb.flagFcTimerExpiredOnce = true
  · rw [if_pos honce, if_pos (.inr (.inr honce)), hcomplete]
    simp
  · have hnot : ¬ s.fcTimerReports := by
      rintro (h | h | h)
      · exact hreplied h
      · exact haborted h
      · exact honce h
    rw [if_neg honce, if_neg hnot, ledger_sendLastFrag]
    exact (ledger_scb _ _ rfl rfl rfl rfl).trans (ledger_t2SmPostEvent s _)

theorem ledger_receiveSegmentComplete (pCmd : Mem) : (s.receiveSegmentComplete pCmd).ledger =
    if s.segmentRefused pCmd = none then s.ledger.complete transmitCompleteOk else s.ledger := by
  unfold receiveSegmentComplete acceptSegmentComplete
  cases s.segmentRefused pCmd with
  | none => simp
  | some ev => simp

theorem segmentRefused_eq_none (pCmd : Mem) : s.segmentRefused pCmd = none ↔
    segmentSession pCmd ≠ s.scb.transmissionAborted ∧ segmentSession pCmd = s.scb.cmn.sessionId ∧
      (s.rcb.cmn.p.snode = s.scb.currentDnode ∨ s.rcb.currentSnode = 0) := by
  unfold segmentRefused
  split
  · rename_i haborted
    simp [haborted]
  · rename_i haborted
    split
    · rename_i hsession
      simp [hsession]
    · rename_i hsession
      have hsession : segmentSession pCmd = s.scb.cmn.sessionId := not_not.mp hsession
      split
      · rename_i hnode
        simp [hnode]
      · rename_i hnode
        have hnode' : s.rcb.cmn.p.snode = s.scb.currentDnode ∨ s.rcb.currentSnode = 0 := by
          by_contra hnot
          exact hnode (not_or.mp hnot)
        exact iff_of_true rfl ⟨haborted, hsession, hnode'⟩

/-- The frame is taken for a segment complete of the session under way; the last test looks at the source of a
reassembly. -/
structure CompletesSession (s : TransportService) (p : TsParam) (pCmd : Mem) (len : Nat) :
    Prop where
  taken : ¬ s.Drops p len
  cmdClass : pCmd 0 = commandClassTransportService
  cmd : cmdType pCmd = commandSegmentComplete
  live : segmentSession pCmd ≠ s.scb.transmissionAborted
  session : segmentSession pCmd = s.scb.cmn.sessionId
  node : p.snode = s.scb.currentDnode ∨ s.initializeOnce.rcb.currentSnode = 0

end Active

end TransportService

/-! ### The invariant -/

theorem completions_cons_of_not (h : o.isCompletionOf call = false) :
    completions call (o :: history) = completions call history :=
  List.countP_cons_of_neg (by simp [h])

theorem completions_completed (call c : Nat) (status : UInt8) (history : List TsOut) :
    completions call (.completed c status :: history) = completions call history + if c = call then 1 else 0 := by
  simp [completions, List.countP_cons, TsOut.isCompletionOf]

theorem okAcknowledged_cons (h : OkAcknowledged history)
    (ho : ∀ call status, o ≠ .completed call status) : OkAcknowledged (o :: history) := by
  cases o with
  | completed call status => exact absurd rfl (ho call status)
  | _ => exact h

namespace Ledger

structure Current (l : Ledger) (call : Nat) : Prop where
  accepted : ∃ p, .called call p true ∈ l.history
  notRefused : ∀ p, .called call p false ∉ l.history
  destination : destinationOf call l.history = some l.dnode
  session : ∃ session, sendSessionOf l.history = some session ∧ session.call = some call ∧ session.id = l.session

structure Inv (l : Ledger) : Prop where
  promised : Promised l.history
  known : ∀ call p accepted, .called call p accepted ∈ l.history → call < l.nCalls
  unused : ∀ call, l.nCalls ≤ call → completions call l.history = 0
  current : ∀ call, l.call = some call → call < l.nCalls ∧ l.Current call

variable {l : Ledger}

theorem Inv.setStake (h : l.Inv) (stake : Stake) : (l.setStake stake).Inv :=
  ⟨h.promised, h.known, h.unused, fun call hcall =>
    have ⟨hlt, hcurrent⟩ := h.current call hcall
    ⟨hlt, hcurrent.accepted, hcurrent.notRefused, hcurrent.destination, hcurrent.session⟩⟩

theorem completions_cons (hcompleted : ∀ call status, o ≠ .completed call status) (call : Nat) :
    completions call (o :: history) = completions call history := by
  apply completions_cons_of_not
  cases o with
  | completed c status => exact absurd rfl (hcompleted c status)
  | _ => rfl

theorem promised_cons (h : Promised history) (hcalled : ∀ call p accepted, o ≠ .called call p accepted)
    (hcompleted : ∀ call status, o ≠ .completed call status) : Promised (o :: history) := by
  refine ⟨?_, ?_, okAcknowledged_cons h.ok hcompleted⟩
  · intro call p hmem
    rw [completions_cons hcompleted]
    rcases List.mem_cons.mp hmem with heq | hmem
    · exact absurd heq.symm (hcalled call p true)
    · exact h.once call p hmem
  · intro call p hmem
    rw [completions_cons hcompleted]
    rcases List.mem_cons.mp hmem with heq | hmem
    · exact absurd heq.symm (hcalled call p false)
    · exact h.never call p hmem

theorem Inv.cons (h : l.Inv) (session : Nat) (hcalled : ∀ call p accepted, o ≠ .called call p accepted)
    (hcompleted : ∀ call status, o ≠ .completed call status)
    (hdestination : ∀ call, destinationOf call (o :: l.history) = destinationOf call l.history)
    (hsession : ∀ call, l.call = some call → ∃ started, sendSessionOf (o :: l.history) = some started ∧
      started.call = some call ∧ started.id = session) :
    Inv { l with session := session, history := o :: l.history } where
  promised := promised_cons h.promised hcalled hcompleted
  known := by
    intro call p accepted hmem
    rcases List.mem_cons.mp hmem with heq | hmem
    · exact absurd heq.symm (hcalled call p accepted)
    · exact h.known call p accepted hmem
  unused := by
    intro call hcall
    exact (completions_cons hcompleted call).trans (h.unused call hcall)
  current := by
    intro call hcall
    obtain ⟨hlt, hcurrent⟩ := h.current call hcall
    obtain ⟨p, hp⟩ := hcurrent.accepted
    refine ⟨hlt, ⟨⟨p, List.mem_cons_of_mem _ hp⟩, ?_, ?_, hsession call hcall⟩⟩
    · intro p hmem
      rcases List.mem_cons.mp hmem with heq | hmem
      · exact absurd heq.symm (hcalled call p false)
      · exact hcurrent.notRefused p hmem
    · exact (hdestination call).trans hcurrent.destination

theorem Inv.hear (h : l.Inv) (p : TsParam) (pCmd : Mem) (len : Nat) : (l.hear p pCmd len).Inv := by
  refine h.cons l.session (by intros; simp) (by intros; simp) (fun _ => rfl) ?_
  intro call hcall
  obtain ⟨session, hsession, hof, hid⟩ := (h.current call hcall).2.session
  refine ⟨session.add ⟨p, pCmd, len⟩, ?_, hof, hid⟩
  change (sendSessionOf l.history).map _ = _
  rw [hsession]
  rfl

theorem Inv.start (h : l.Inv) (session : Nat) : (l.start session).Inv := by
  refine h.cons session (by intros; simp) (by intros; simp) (fun _ => rfl) ?_
  intro call hcall
  exact ⟨⟨l.call, session, []⟩, rfl, hcall, rfl⟩

theorem Inv.accept (h : l.Inv) (p : TsParam) (session : Nat) : ((l.accept p).start session).Inv where
  promised := by
    refine promised_cons ?_ (by intros; simp) (by intros; simp)
    have hsame : ∀ call, completions call (l.accept p).history = completions call l.history :=
      fun call => completions_cons_of_not rfl
    refine ⟨?_, ?_, okAcknowledged_cons h.promised.ok (by intros; simp)⟩
    · intro call q hmem
      rw [hsame]
      rcases List.mem_cons.mp hmem with heq | hmem
      · injection heq with hcall
        rw [hcall, h.unused l.nCalls (Nat.le_refl _)]
        exact Nat.zero_le 1
      · exact h.promised.once call q hmem
    · intro call q hmem
      rw [hsame]
      rcases List.mem_cons.mp hmem with heq | hmem
      · injection heq with _ _ hfalse
        exact absurd hfalse (by decide)
      · exact h.promised.never call q hmem
  known := by
    intro call q accepted hmem
    rcases List.mem_cons.mp hmem with heq | hmem
    · exact absurd heq (by simp)
    rcases List.mem_cons.mp hmem with heq | hmem
    · injection heq with hcall
      rw [hcall]
      exact Nat.lt_succ_self _
    · exact Nat.lt_succ_of_lt (h.known call q accepted hmem)
  unused := by
    intro call hcall
    have hle : l.nCalls ≤ call := Nat.le_of_succ_le hcall
    exact (completions_cons_of_not rfl).trans ((completions_cons_of_not rfl).trans (h.unused call hle))
  current := by
    intro call hcall
    injection hcall with hcall
    subst hcall
    refine ⟨Nat.lt_succ_self _, ⟨⟨p, by simp [Ledger.start, Ledger.accept]⟩, ?_, ?_, ?_⟩⟩
    · intro q hmem
      rcases List.mem_cons.mp hmem with heq | hmem
      · exact absurd heq (by simp)
      rcases List.mem_cons.mp hmem with heq | hmem
      · exact absurd heq (by simp)
      · exact absurd (h.known l.nCalls q false hmem) (Nat.lt_irrefl _)
    · simp [Ledger.start, Ledger.accept, destinationOf]
    · exact ⟨⟨some l.nCalls, session, []⟩, rfl, rfl, rfl⟩

theorem Inv.complete (h : l.Inv) (status : UInt8) (hpending : l.Pending)
    (hok : status = transmitCompleteOk → ∀ call, l.call = some call →
      Acknowledged call l.history) : (l.complete status).Inv := by
  unfold Ledger.complete
  cases hcall : l.call with
  | none => exact h
  | some c =>
    obtain ⟨hlt, hcurrent⟩ := h.current c hcall
    obtain ⟨q, hq⟩ := hcurrent.accepted
    have hzero := hpending c hcall
    have hmem : ∀ {call : Nat} {p : TsParam} {accepted : Bool},
        .called call p accepted ∈ TsOut.completed c status :: l.history → .called call p accepted ∈ l.history := by
      intro call p accepted hmem
      rcases List.mem_cons.mp hmem with heq | hmem
      · exact absurd heq (by simp)
      · exact hmem
    dsimp only
    refine ⟨⟨?_, ?_, ?_⟩, ?_, ?_, ?_⟩
    · intro call p hin
      rw [completions_completed]
      have hone := h.promised.once call p (hmem hin)
      split
      · rename_i heq
        rw [← heq, hzero]
      · omega
    · intro call p hin
      rw [completions_completed, h.promised.never call p (hmem hin), if_neg]
      intro heq
      subst heq
      exact hcurrent.notRefused p (hmem hin)
    · exact ⟨fun hstatus => hok hstatus c hcall, h.promised.ok⟩
    · exact fun call p accepted hin => h.known call p accepted (hmem hin)
    · intro call hle
      rw [completions_completed, h.unused call hle, if_neg]
      intro heq
      subst heq
      exact absurd hlt (Nat.not_lt.mpr hle)
    · intro call heq
      obtain rfl : c = call := Option.some.inj heq
      refine ⟨hlt, ⟨⟨q, List.mem_cons_of_mem _ hq⟩, ?_, hcurrent.destination, hcurrent.session⟩⟩
      exact fun p hin => hcurrent.notRefused p (hmem hin)

theorem Inv.acknowledged (h : l.Inv) {p : TsParam} {pCmd : Mem} {len : Nat}
    (hcall : l.call = some call) (hclass : pCmd 0 = commandClassTransportService)
    (hcmd : cmdType pCmd = commandSegmentComplete) (hsession : segmentSession pCmd = l.session)
    (hnode : p.snode = l.dnode) : Acknowledged call (l.hear p pCmd len).history := by
  obtain ⟨-, hcurrent⟩ := h.current call hcall
  obtain ⟨session, hof, hscall, hid⟩ := hcurrent.session
  refine ⟨session.add ⟨p, pCmd, len⟩, ?_, hscall, l.dnode, hcurrent.destination, ⟨p, pCmd, len⟩,
    List.mem_cons_self, hclass, hcmd, ?_, hnode⟩
  · change _ ∈ (sendSessionOf l.history).map _
    rw [hof]
    rfl
  · rw [hsession]
    exact hid.symm

end Ledger

namespace TransportService

variable (env : TsEnv)

section Handler

variable {s : TransportService} {p : TsParam} {pCmd : Mem} {len : Nat}

theorem segmentRefused_t2SmPostEvent (s : TransportService) (ev : T2Event) (pCmd : Mem) :
    (s.t2SmPostEvent ev).segmentRefused pCmd = s.segmentRefused pCmd := by
  rw [t2SmPostEvent_eq]
  rfl

theorem ledger_receive (s : TransportService) (pCmd : Mem) (len : Nat) : ∃ stake, (receive env s pCmd len).ledger =
      (if pCmd 0 = commandClassTransportService ∧ cmdType pCmd = commandSegmentComplete ∧ s.segmentRefused pCmd = none
      then s.ledger.complete transmitCompleteOk else s.ledger).setStake stake := by
  unfold receive
  by_cases hclass : pCmd 0 = commandClassTransportService
  · rw [if_neg (not_not.mpr hclass)]
    by_cases hcomplete : cmdType pCmd = commandSegmentComplete
    · rw [if_neg (by rw [hcomplete]; decide), if_neg (by rw [hcomplete]; decide),
        if_neg (by rw [hcomplete]; decide), if_pos hcomplete, ledger_receiveSegmentComplete,
        segmentRefused_t2SmPostEvent, ledger_t2SmPostEvent]
      exact ⟨_, by simp only [hclass, hcomplete, true_and]; rfl⟩
    · simp only [hcomplete, false_and, and_false, if_false]
      split
      · exact ⟨_, (ledger_receiveFirstFragment ..).trans (ledger_abortIfTieBroken s)⟩
      split
      · exact ⟨_, (ledger_receiveSubsequentFragment ..).trans (ledger_abortIfTieBroken s)⟩
      split
      · exact ⟨s.stake, by simp; rfl⟩
      split
      · exact ⟨_, ledger_receiveSegmentWait ..⟩
      · exact ⟨s.stake, rfl⟩
  · rw [if_pos hclass, if_neg (fun h => hclass h.1)]
    exact ⟨s.stake, rfl⟩

theorem ledger_applicationCommandHandler (s : TransportService) (p : TsParam) (pCmd : Mem) (cmdLength : UInt8) :
    ∃ stake, (applicationCommandHandler env s p pCmd cmdLength).ledger =
        (s.ledger.hear p pCmd cmdLength.toNat).setStake stake ∨
      (s.CompletesSession p pCmd cmdLength.toNat ∧ (applicationCommandHandler env s p pCmd cmdLength).ledger =
          ((s.ledger.hear p pCmd cmdLength.toNat).complete transmitCompleteOk).setStake stake) := by
  unfold applicationCommandHandler
  generalize hbroken : tieBreak env ((s.log (.received p pCmd cmdLength.toNat)).ctimerSet .reset) p = broken
  have hview : broken.ledger = (s.ledger.hear p pCmd cmdLength.toNat).setStake broken.stake := by
    rw [← hbroken, ledger_tieBreak, ledger_ctimerSet, ledger_log]
    rfl
  have hrcb : broken.rcb = s.rcb := by
    rw [← hbroken, tieBreak_rcb]
    rfl
  have hscb : broken.scb = s.scb := by
    rw [← hbroken, tieBreak_scb]
    rfl
  have hinit : broken.flagInitializeOnce = s.flagInitializeOnce := by
    rw [← hbroken]
    unfold tieBreak
    split
    · rw [t2SmPostEvent_eq]
      rfl
    · rfl
  have hthird : (broken.setFragWaitP p).fromThirdNode p = s.fromThirdNode p := by
    simp [fromThirdNode, setFragWaitP, hrcb, hscb]
  dsimp only
  split
  · exact ⟨_, .inl hview⟩
  rename_i haddress
  obtain ⟨hnode, hlen⟩ := not_or.mp haddress
  unfold filterFrame
  rw [hthird]
  split
  · exact ⟨_, .inl (by simpa using hview)⟩
  rename_i hsingle
  split
  · exact ⟨_, .inl (by simpa using hview)⟩
  rename_i hbroad
  split
  · exact ⟨_, .inl (by simpa using hview)⟩
  have hdrops : ¬ s.Drops p cmdLength.toNat := by
    rintro (hnode' | hlen' | ⟨hthird', hflags | hflags⟩)
    · exact hnode hnode'
    · exact hlen hlen'
    · exact hsingle ⟨hthird', hflags⟩
    · exact hbroad ⟨hthird', hflags⟩
  generalize htaken : ((broken.setFragWaitP p).postRecv.initializeOnce).setRcbP p = taken
  have htview : taken.ledger = broken.ledger := by
    rw [← htaken]
    simp
  obtain ⟨stake, hreceive⟩ := ledger_receive env taken pCmd cmdLength.toNat
  rw [hreceive, htview, hview]
  refine ⟨stake, ?_⟩
  by_cases hcond : pCmd 0 = commandClassTransportService ∧
      cmdType pCmd = commandSegmentComplete ∧ taken.segmentRefused pCmd = none
  · rw [if_pos hcond]
    right
    obtain ⟨hclass, hcmd, hrefused⟩ := hcond
    obtain ⟨hlive, hsession, hfrom⟩ := (segmentRefused_eq_none taken pCmd).mp hrefused
    have hpost : ∀ t : TransportService, t.postRecv = { t with currentState := t.postRecv.currentState } := by
      intro t
      unfold postRecv
      split
      · exact t2SmPostEvent_eq ..
      · exact t2SmPostEvent_eq ..
      · rfl
    have htscb : taken.scb = (s.setFragWaitP p).scb := by
      rw [← htaken, hpost]
      unfold initializeOnce
      split <;> simp [setRcbP, setFragWaitP, hscb]
    have htsnode : taken.rcb.cmn.p.snode = p.snode := by
      rw [← htaken]
      rfl
    have htsource : taken.rcb.currentSnode = s.initializeOnce.rcb.currentSnode := by
      rw [← htaken, hpost]
      unfold initializeOnce
      simp only [setRcbP, setFragWaitP, hinit, hrcb]
      split <;> rfl
    rw [htscb] at hlive hsession hfrom
    rw [htsnode, htsource] at hfrom
    refine ⟨⟨hdrops, hclass, hcmd, hlive, hsession, hfrom⟩, ?_⟩
    rw [Ledger.complete_setStake]
    rfl
  · rw [if_neg hcond]
    exact .inl rfl

end Handler

/-- Calls are made while the module is idle. A segment complete that is accepted comes from the
destination. Once the `completedFunc` of a call was called, none of what calls it happens until the
next call: no segment complete for its session is accepted, no expiry of the timer for it is
reported and no answer to a segment request fails. -/
def InOrder (s : TransportService) : TsEvent → Prop
  | .sendData .. => s.isBusy = false
  | .frame p pCmd cmdLength => s.CompletesSession p pCmd cmdLength.toNat →
      s.ledger.Pending ∧ ∀ call, s.scb.completedFunc = some call → p.snode = s.scb.cmn.p.dnode
  | .transmitDone cb status => cb = .tempCallbackReplyFragReq → cb ∈ s.owed →
      status ≠ transmitCompleteOk → s.ledger.Pending
  | .expired t => t = .fc → s.timers .fc = true → s.fcTimerReports → s.ledger.Pending

theorem ledgerInv_frame {s : TransportService} (h : s.ledger.Inv) (p : TsParam) (pCmd : Mem)
    (cmdLength : UInt8) (hok : s.InOrder (.frame p pCmd cmdLength)) :
    (applicationCommandHandler env s p pCmd cmdLength).ledger.Inv := by
  have hheard := h.hear p pCmd cmdLength.toNat
  obtain ⟨stake, heq | ⟨hcompletes, heq⟩⟩ := ledger_applicationCommandHandler env s p pCmd cmdLength
  · rw [heq]
    exact hheard.setStake stake
  · rw [heq]
    obtain ⟨hpending, hdest⟩ := hok hcompletes
    refine (hheard.complete _ ?_ ?_).setStake stake
    · intro call hcall
      exact (completions_cons_of_not rfl).trans (hpending call hcall)
    · intro _ call hcall
      exact h.acknowledged hcall hcompletes.cmdClass hcompletes.cmd hcompletes.session (hdest call hcall)

theorem ledgerInv_transmitDone {s : TransportService} (h : s.ledger.Inv) (cb : TxCallback)
    (status : UInt8) (howed : cb ∈ s.owed) (hok : s.InOrder (.transmitDone cb status)) :
    (callback env { s with owed := s.owed.erase cb } status cb).ledger.Inv := by
  cases cb with
  | tsSenddataCb => simpa [callback] using h
  | tempCallbackLastFrag => exact h
  | tempCallbackReplyFragReq =>
    change (tempCallbackReplyFragReq _ status).ledger.Inv
    rw [ledger_tempCallbackReplyFragReq]
    split
    · exact h
    · rename_i hstatus
      exact h.complete status (hok rfl howed hstatus) (fun heq => absurd heq hstatus)

theorem ledgerInv_expired {s : TransportService} (h : s.ledger.Inv) (t : Timer)
    (hset : s.timers t = true) (hok : s.InOrder (.expired t)) :
    (expire env (s.ctimerStop t) t).ledger.Inv := by
  cases t with
  | fc =>
    change (fcTimerExpired env _).ledger.Inv
    rw [ledger_fcTimerExpired]
    refine Ledger.Inv.setStake ?_ _
    split
    · rename_i hreports
      exact h.complete _ (hok rfl hset hreports) (fun heq => absurd heq (by decide))
    · exact h
  | rx => simpa [expire] using h
  | reset => simpa [expire] using h
  | waitRestart =>
    change (sendFirstFrag env _).ledger.Inv
    rw [ledger_sendFirstFrag]
    exact h.start _
  | btwn2Frags => simpa [expire] using h

theorem ledgerInv_step {s : TransportService} (h : s.ledger.Inv) (e : TsEvent)
    (hok : s.InOrder e) : (step env s e).ledger.Inv := by
  cases e with
  | sendData p pData dataLength =>
    obtain ⟨session, heq⟩ := ledger_sendData env s p pData dataLength hok
    change (sendData env s p pData dataLength).ledger.Inv
    rw [heq]
    exact h.accept p session
  | frame p pCmd cmdLength => exact ledgerInv_frame env h p pCmd cmdLength hok
  | transmitDone cb status =>
    simp only [step]
    split
    · rename_i howed
      exact ledgerInv_transmitDone env h cb status howed hok
    · exact h
  | expired t =>
    simp only [step]
    split
    · rename_i hset
      exact ledgerInv_expired env h t hset hok
    · exact h

theorem ledgerInv_init : init.ledger.Inv where
  promised := ⟨by simp [ledger, init], by simp [ledger, init], trivial⟩
  known := by simp [ledger, init]
  unused := fun _ _ => rfl
  current := fun _ hcall => absurd hcall (by simp [ledger, init])

/-- The callers get what they are promised, in every run without late or misdirected completions. -/
theorem completions_promised (events : List TsEvent) (hok : Machine.Admissible (step env) InOrder init events) :
    Promised ((Machine.run (step env) init events).out.filter TsOut.concernsCaller) := by
  have hstep : ∀ (s : TransportService) (e : TsEvent), s.InOrder e → s.ledger.Inv →
      (step env s e).ledger.Inv := fun s e hok h => ledgerInv_step env h e hok
  have hinv := Machine.run_invariant_of_admissible hstep hok ledgerInv_init
  exact hinv.promised

section Samples

def sampleCall : TsEvent :=
  .sendData { snode := 1, dnode := 5, txFlags := 0, rxFlags := 0 } (Mem.ofBytes [1, 2, 3]) 3

def sampleComplete : TsEvent :=
  .frame { snode := 5, dnode := 1, txFlags := 0, rxFlags := 0 } (Mem.ofBytes [0x55, 0xE8, 0x40]) 3

def sampleCallHistory (events : List TsEvent) : List TsOut :=
  (Machine.run (step sampleTsEnv) init events).out.filter TsOut.concernsCaller

def TsOut.isCall (call : Nat) (accepted : Bool) : TsOut → Bool
  | .called c _ a => c == call && a == accepted
  | _ => false

theorem exists_called_of_any {accepted : Bool} (h : history.any (TsOut.isCall call accepted) = true) :
    ∃ p, .called call p accepted ∈ history := by
  obtain ⟨o, hmem, ho⟩ := List.any_eq_true.mp h
  cases o with
  | called c p a =>
    obtain ⟨rfl, rfl⟩ : c = call ∧ a = accepted := by simpa [TsOut.isCall] using ho
    exact ⟨p, hmem⟩
  | _ => exact absurd ho (by simp [TsOut.isCall])

set_option maxRecDepth 4000 in
theorem sampleCall_completed : completions 0 (sampleCallHistory [sampleCall, sampleComplete]) = 1 ∧
      Promised (sampleCallHistory [sampleCall, sampleComplete]) := by
  have hcall : InOrder init sampleCall := by
    change isBusy init = false
    decide
  have hcomplete : InOrder (step sampleTsEnv init sampleCall) sampleComplete := by
    intro _
    have hfunc : (step sampleTsEnv init sampleCall).scb.completedFunc = some 0 := by decide
    have hzero : completions 0 (step sampleTsEnv init sampleCall).ledger.history = 0 := by
      decide
    refine ⟨?_, fun _ _ => by decide⟩
    intro call hsome
    obtain rfl : 0 = call := Option.some.inj (hfunc.symm.trans hsome)
    exact hzero
  have hok : Machine.Admissible (step sampleTsEnv) InOrder init [sampleCall, sampleComplete] :=
    And.intro hcall (And.intro hcomplete trivial)
  refine ⟨by decide, ?_⟩
  rw [sampleCallHistory]
  exact completions_promised sampleTsEnv [sampleCall, sampleComplete] hok

/-- A duplicated segment complete completes the call a second time, and a call that is refused
because another is under way is completed too. -/
theorem duplicate_complete_reported_twice :
    ¬ Promised (sampleCallHistory [sampleCall, sampleComplete, sampleComplete]) ∧
      ¬ Promised (sampleCallHistory [sampleCall, sampleCall]) := by
  constructor
  · intro h
    have hcalled : (sampleCallHistory [sampleCall, sampleComplete, sampleComplete]).any
        (TsOut.isCall 0 true) = true := by decide
    obtain ⟨p, hp⟩ := exists_called_of_any hcalled
    have hone := h.once 0 p hp
    have htwo : completions 0 (sampleCallHistory [sampleCall, sampleComplete, sampleComplete]) = 2 := by
      decide
    omega
  · intro h
    have hcalled : (sampleCallHistory [sampleCall, sampleCall]).any (TsOut.isCall 1 false) =
        true := by decide
    obtain ⟨p, hp⟩ := exists_called_of_any hcalled
    have hnone := h.never 1 p hp
    have hone : completions 1 (sampleCallHistory [sampleCall, sampleCall]) = 1 := by
      decide
    omega

end Samples

end TransportService

end ZipGateway

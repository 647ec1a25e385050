import Mathlib.Data.List.Chain
import ZipGateway.TransportService.Completion

/-!
# The tie-break and the abort of a transmission

`stake` is the part of the state the tie-break decides about: the session that is aborted and the
flag that remembers a broken tie.
-/

namespace ZipGateway

namespace TransportService

section Kept

variable (s : TransportService)

theorem stake_tempCallbackReplyFragReq (status : UInt8) : (s.tempCallbackReplyFragReq status).stake = s.stake := by
  unfold stake
  rw [ledger_tempCallbackReplyFragReq]
  split
  · rfl
  · exact Ledger.stake_complete ..

theorem stake_receiveSegmentComplete (pCmd : Mem) : (s.receiveSegmentComplete pCmd).stake = s.stake := by
  unfold stake
  rw [ledger_receiveSegmentComplete]
  split
  · exact Ledger.stake_complete ..
  · rfl

theorem stake_sendFirstFrag (env : TsEnv) : (sendFirstFrag env s).stake = s.stake := by
  unfold stake
  rw [ledger_sendFirstFrag]
  rfl

end Kept

/-! ### What breaks a tie -/

/-- The tie-break condition: a datagram is being sent, its recipient is the originator of the frame,
and the node id of this node is the lower one. -/
def TieBreaks (env : TsEnv) (s : TransportService) (p : TsParam) : Prop :=
  s.isSending = true ∧ s.scb.cmn.p.dnode = p.snode ∧ env.myNodeId < p.snode

instance (env : TsEnv) (s : TransportService) (p : TsParam) : Decidable (s.TieBreaks env p) :=
  inferInstanceAs (Decidable (_ ∧ _))

def IsFragment (pCmd : Mem) : Prop :=
  cmdType pCmd = commandFirstFragment ∨ cmdType pCmd = commandSubsequentFragment

/-- The reasons for which a frame that is taken up aborts the transmission: a segment wait for a
session that is not complete, or a fragment behind a broken tie. -/
def FrameAborts (env : TsEnv) (s : TransportService) (p : TsParam) (pCmd : Mem) : Prop :=
  pCmd 0 = commandClassTransportService ∧
    (cmdType pCmd = commandSegmentWait ∧ s.scb.fragComplList s.scb.cmn.sessionId = false ∨
      IsFragment pCmd ∧ (s.flagTieBroken = true ∨ s.TieBreaks env p))

def AbortCause (env : TsEnv) (s : TransportService) : TsEvent → Prop
  | .sendData .. => False
  | .frame p pCmd cmdLength => ¬s.Drops p cmdLength.toNat ∧ s.FrameAborts env p pCmd
  | .transmitDone .. => False
  | .expired t => t = .fc ∧ s.timers .fc = true ∧ s.scb.flagRepliedFragReq = true

section Active

variable (env : TsEnv) (s : TransportService)

theorem flagTieBroken_eq {s t : TransportService} (h : t.stake = s.stake) :
    t.flagTieBroken = s.flagTieBroken := congrArg Stake.tieBroken h

theorem transmissionAborted_eq {s t : TransportService} (h : t.stake = s.stake) :
    t.scb.transmissionAborted = s.scb.transmissionAborted := congrArg Stake.aborted h

theorem stake_tieBreak (p : TsParam) : (tieBreak env s p).stake =
    { s.stake with tieBroken := s.flagTieBroken || decide (s.TieBreaks env p) } := by
  by_cases h : s.TieBreaks env p
  · have hset : tieBreak env s p = { s.t2SmPostEvent .tieBreak with flagTieBroken := true } := if_pos h
    rw [hset, decide_eq_true h, Bool.or_true]
    change (⟨(s.t2SmPostEvent .tieBreak).scb.transmissionAborted, true⟩ : Stake) = _
    rw [transmissionAborted_eq (stake_eq (ledger_t2SmPostEvent s .tieBreak))]
    rfl
  · have hsame : tieBreak env s p = s := if_neg h
    rw [hsame, decide_eq_false h, Bool.or_false]
    rfl

theorem stake_abortIfTieBroken : s.abortIfTieBroken.stake =
    if s.flagTieBroken then { s.stake with aborted := s.scb.cmn.sessionId } else s.stake :=
  congrArg Ledger.stake (ledger_abortIfTieBroken s)

theorem stake_receiveSegmentWait (pCmd : Mem) : (receiveSegmentWait env s pCmd).stake =
    if s.scb.fragComplList s.scb.cmn.sessionId then s.stake
    else { s.stake with aborted := s.scb.cmn.sessionId } :=
  congrArg Ledger.stake (ledger_receiveSegmentWait s env pCmd)

/-- `receive` never touches the flag, and changes `transmission_aborted` for a segment wait and for a
fragment behind a broken tie. -/
theorem stake_receive (pCmd : Mem) (len : Nat) : (receive env s pCmd len).stake = s.stake ∨
      (receive env s pCmd len).flagTieBroken = s.flagTieBroken ∧ pCmd 0 = commandClassTransportService ∧
          (cmdType pCmd = commandSegmentWait ∧ s.scb.fragComplList s.scb.cmn.sessionId = false ∨
            IsFragment pCmd ∧ s.flagTieBroken = true) := by
  have hbroken : s.flagTieBroken = false → s.abortIfTieBroken.stake = s.stake := by
    intro h
    rw [stake_abortIfTieBroken, h]
    rfl
  have hflag : s.abortIfTieBroken.flagTieBroken = s.flagTieBroken := by
    have hstake := stake_abortIfTieBroken s
    split at hstake
    · exact congrArg Stake.tieBroken hstake
    · exact flagTieBroken_eq hstake
  unfold receive
  by_cases hclass : pCmd 0 = commandClassTransportService
  swap
  · rw [if_pos hclass]
    exact .inl rfl
  rw [if_neg (not_not.mpr hclass)]
  by_cases hfirst : cmdType pCmd = commandFirstFragment
  · rw [if_pos hfirst]
    cases htie : s.flagTieBroken with
    | false => exact .inl ((stake_eq (ledger_receiveFirstFragment _ env pCmd len)).trans (hbroken htie))
    | true =>
      have hkept := flagTieBroken_eq (stake_eq (ledger_receiveFirstFragment s.abortIfTieBroken env pCmd len))
      exact .inr ⟨(hkept.trans hflag).trans htie, hclass, .inr ⟨.inl hfirst, rfl⟩⟩
  rw [if_neg hfirst]
  by_cases hsubseq : cmdType pCmd = commandSubsequentFragment
  · rw [if_pos hsubseq]
    cases htie : s.flagTieBroken with
    | false => exact .inl ((stake_eq (ledger_receiveSubsequentFragment _ env pCmd len)).trans (hbroken htie))
    | true =>
      have hkept := flagTieBroken_eq (stake_eq (ledger_receiveSubsequentFragment s.abortIfTieBroken env pCmd len))
      exact .inr ⟨(hkept.trans hflag).trans htie, hclass, .inr ⟨.inr hsubseq, rfl⟩⟩
  rw [if_neg hsubseq]
  split
  · exact .inl (stake_eq (by simp))
  split
  · exact .inl ((stake_receiveSegmentComplete _ pCmd).trans (stake_eq (by simp)))
  split
  · rename_i hwait
    have hstake := stake_receiveSegmentWait env s pCmd
    cases hdone : s.scb.fragComplList s.scb.cmn.sessionId with
    | true =>
      rw [hdone, if_pos rfl] at hstake
      exact .inl hstake
    | false =>
      rw [hdone] at hstake
      exact .inr ⟨congrArg Stake.tieBroken hstake, hclass, .inl ⟨hwait, rfl⟩⟩
  · exact .inl rfl

theorem stake_applicationCommandHandler (p : TsParam) (pCmd : Mem) (cmdLength : UInt8) :
    (applicationCommandHandler env s p pCmd cmdLength).flagTieBroken = (s.flagTieBroken || decide (s.TieBreaks env p)) ∧
      ((applicationCommandHandler env s p pCmd cmdLength).scb.transmissionAborted = s.scb.transmissionAborted ∨
        ¬s.Drops p cmdLength.toNat ∧ s.FrameAborts env p pCmd) := by
  unfold applicationCommandHandler
  generalize hheard : (s.log (.received p pCmd cmdLength.toNat)).ctimerSet .reset = heard
  have hbreaks : heard.TieBreaks env p ↔ s.TieBreaks env p := by
    rw [← hheard]
    rfl
  have hheardStake : heard.stake = s.stake := by
    rw [← hheard]
    rfl
  have hheardScb : heard.scb = s.scb ∧ heard.rcb = s.rcb := by
    rw [← hheard]
    exact ⟨rfl, rfl⟩
  generalize hbroken : tieBreak env heard p = broken
  have hstake : broken.stake = { s.stake with tieBroken := s.flagTieBroken || decide (s.TieBreaks env p) } := by
    rw [← hbroken, stake_tieBreak, hheardStake, flagTieBroken_eq hheardStake, decide_eq_decide.mpr hbreaks]
  have hscb : broken.scb = s.scb := by
    rw [← hbroken, tieBreak_scb, hheardScb.1]
  have hrcb : broken.rcb = s.rcb := by
    rw [← hbroken, tieBreak_rcb, hheardScb.2]
  have hthird : (broken.setFragWaitP p).fromThirdNode p = s.fromThirdNode p := by
    simp [fromThirdNode, setFragWaitP, hrcb, hscb]
  have hkept : ∀ t : TransportService, t.stake = broken.stake →
      t.flagTieBroken = (s.flagTieBroken || decide (s.TieBreaks env p)) ∧
        (t.scb.transmissionAborted = s.scb.transmissionAborted ∨
          ¬s.Drops p cmdLength.toNat ∧ s.FrameAborts env p pCmd) := by
    intro t ht
    rw [hstake] at ht
    exact ⟨congrArg Stake.tieBroken ht, .inl (congrArg Stake.aborted ht)⟩
  dsimp only
  split
  · exact hkept _ rfl
  rename_i haddress
  obtain ⟨hnode, hlen⟩ := not_or.mp haddress
  unfold filterFrame
  rw [hthird]
  split
  · exact hkept _ (stake_eq (by simp))
  rename_i hsingle
  split
  · exact hkept _ (stake_eq (by simp))
  rename_i hbroad
  split
  · exact hkept _ (stake_eq (by simp))
  have hdrops : ¬s.Drops p cmdLength.toNat := by
    rintro (hnode' | hlen' | ⟨hthird', hflags | hflags⟩)
    · exact hnode hnode'
    · exact hlen hlen'
    · exact hsingle ⟨hthird', hflags⟩
    · exact hbroad ⟨hthird', hflags⟩
  generalize htaken : ((broken.setFragWaitP p).postRecv.initializeOnce).setRcbP p = taken
  have htstake : taken.stake = broken.stake := by
    rw [← htaken]
    exact stake_eq (by simp)
  have htlist : taken.scb.fragComplList = s.scb.fragComplList ∧ taken.scb.cmn.sessionId = s.scb.cmn.sessionId := by
    have hpost : (broken.setFragWaitP p).postRecv.scb = (broken.setFragWaitP p).scb := by
      unfold postRecv
      split
      · rw [t2SmPostEvent_eq]
      · rw [t2SmPostEvent_eq]
      · rfl
    have htscb : taken.scb = (broken.setFragWaitP p).scb := by
      rw [← htaken, ← hpost]
      unfold initializeOnce
      split <;> rfl
    have hlist := congrArg SendingCntrlBlk.fragComplList hscb
    have hsession := congrArg (fun b => b.cmn.sessionId) hscb
    rw [htscb]
    exact ⟨hlist, hsession⟩
  have htflag : taken.flagTieBroken = (s.flagTieBroken || decide (s.TieBreaks env p)) :=
    congrArg Stake.tieBroken (htstake.trans hstake)
  rcases stake_receive env taken pCmd cmdLength.toNat with hsame | ⟨hflag, hclass, hcause⟩
  · exact hkept _ (hsame.trans htstake)
  · refine ⟨hflag.trans htflag, .inr ⟨hdrops, hclass, ?_⟩⟩
    rw [htlist.1, htlist.2, htflag, Bool.or_eq_true, decide_eq_true_iff] at hcause
    exact hcause

theorem stake_transmitDone (cb : TxCallback) (status : UInt8) :
    (step env s (.transmitDone cb status)).stake = s.stake := by
  simp only [step]
  split
  · cases cb with
    | tsSenddataCb => exact (stake_eq (ledger_tsSenddataCb _ env)).trans rfl
    | tempCallbackReplyFragReq => exact (stake_tempCallbackReplyFragReq _ status).trans rfl
    | tempCallbackLastFrag => rfl
  · rfl

theorem stake_fcTimerExpired : (fcTimerExpired env s).stake =
    if s.scb.flagRepliedFragReq then { s.stake with aborted := s.scb.cmn.sessionId } else s.stake :=
  congrArg Ledger.stake (ledger_fcTimerExpired env s)

theorem stake_expired (t : Timer) : (step env s (.expired t)).stake =
    if t = .fc ∧ s.timers .fc = true ∧ s.scb.flagRepliedFragReq = true then
      { s.stake with aborted := s.scb.cmn.sessionId }
    else s.stake := by
  simp only [step]
  by_cases hset : s.timers t = true
  · rw [if_pos hset]
    cases t with
    | fc =>
      refine (stake_fcTimerExpired env (s.ctimerStop .fc)).trans ?_
      change (if s.scb.flagRepliedFragReq then _ else _) = _
      by_cases hreplied : s.scb.flagRepliedFragReq = true
      · rw [if_pos hreplied, if_pos ⟨rfl, hset, hreplied⟩]
        rfl
      · rw [if_neg hreplied, if_neg fun h => hreplied h.2.2]
        rfl
    | rx => exact (stake_eq (ledger_rxTimerExpired _ env)).trans (if_neg (by simp)).symm
    | reset => exact (if_neg (by simp)).symm
    | waitRestart => exact (stake_sendFirstFrag _ env).trans (if_neg (by simp)).symm
    | btwn2Frags => exact (stake_eq (ledger_sendSubseqFrag _ env)).trans (if_neg (by simp)).symm
  · rw [if_neg hset, if_neg]
    rintro ⟨rfl, hfc, -⟩
    exact hset hfc

/-- The events that abort a transmission; `ZW_TransportService_SendData` resets to 0x11, which is no session
id. -/
theorem aborted_step (e : TsEvent) (h : (step env s e).scb.transmissionAborted ≠ s.scb.transmissionAborted)
    (hreset : (step env s e).scb.transmissionAborted ≠ 0x11) : s.AbortCause env e := by
  cases e with
  | sendData p pData dataLength =>
    change (sendData env s p pData dataLength).scb.transmissionAborted ≠ _ at h hreset
    unfold sendData at h hreset
    dsimp only at h hreset
    split at h
    · exact absurd rfl h
    · rename_i hidle
      rw [if_neg hidle, transmissionAborted_eq (stake_sendFirstFrag _ env),
        transmissionAborted_eq (stake_eq (ledger_postStartSend _))] at hreset
      exact absurd rfl hreset
  | frame p pCmd cmdLength =>
    exact ((stake_applicationCommandHandler env s p pCmd cmdLength).2).resolve_left h
  | transmitDone cb status => exact absurd (transmissionAborted_eq (stake_transmitDone env s cb status)) h
  | expired t =>
    by_contra hcause
    exact h (transmissionAborted_eq ((stake_expired env s t).trans (if_neg hcause)))

theorem flagTieBroken_step (e : TsEvent) (h : (step env s e).flagTieBroken = true) :
    s.flagTieBroken = true ∨ ∃ p pCmd cmdLength, e = .frame p pCmd cmdLength ∧ s.TieBreaks env p := by
  cases e with
  | sendData p pData dataLength =>
    left
    change (sendData env s p pData dataLength).flagTieBroken = true at h
    unfold sendData at h
    dsimp only at h
    split at h
    · exact h
    · rw [flagTieBroken_eq (stake_sendFirstFrag _ env), flagTieBroken_eq (stake_eq (ledger_postStartSend _))] at h
      exact h
  | frame p pCmd cmdLength =>
    have hflag := (stake_applicationCommandHandler env s p pCmd cmdLength).1
    change (applicationCommandHandler env s p pCmd cmdLength).flagTieBroken = true at h
    rw [hflag, Bool.or_eq_true, decide_eq_true_iff] at h
    exact h.imp_right fun hbreaks => ⟨p, pCmd, cmdLength, rfl, hbreaks⟩
  | transmitDone cb status =>
    rw [flagTieBroken_eq (stake_transmitDone env s cb status)] at h
    exact .inl h
  | expired t =>
    have hstake := stake_expired env s t
    split at hstake
    · exact .inl ((congrArg Stake.tieBroken hstake).symm.trans h)
    · exact .inl ((congrArg Stake.tieBroken hstake).symm.trans h)

end Active

theorem exists_tieBreaks (env : TsEnv) (events : List TsEvent)
    (h : (Machine.run (step env) init events).flagTieBroken = true) :
    ∃ earlier p pCmd cmdLength later, events = earlier ++ .frame p pCmd cmdLength :: later ∧
      (Machine.run (step env) init earlier).TieBreaks env p := by
  induction events using List.reverseRecOn with
  | nil => cases h
  | append_singleton events e ih =>
    rw [Machine.run_append] at h
    rcases flagTieBroken_step env _ e h with hold | ⟨p, pCmd, cmdLength, rfl, hbreaks⟩
    · obtain ⟨earlier, p, pCmd, cmdLength, later, heq, hbreaks⟩ := ih hold
      refine ⟨earlier, p, pCmd, cmdLength, later ++ [e], ?_, hbreaks⟩
      rw [heq, List.append_assoc, List.cons_append]
    · exact ⟨events, p, pCmd, cmdLength, [], rfl, hbreaks⟩

/-! ### The session ids -/

def startedId : TsOut → Option Nat
  | .started _ session => some session
  | _ => none

def startedIds (history : List TsOut) : List Nat :=
  history.filterMap startedId

def Renews (new old : Nat) : Prop :=
  old = 0 ∨ new ≠ old

theorem renews_nextSessionId (env : TsEnv) (s : TransportService) :
    Renews (nextSessionId env s) s.scb.cmn.sessionId := by
  by_cases h : s.scb.cmn.sessionId = 0
  · exact .inl h
  · right
    unfold nextSessionId
    rw [if_neg h]
    dsimp only
    split
    · exact Ne.symm h
    · omega

theorem startedIds_filter (history : List TsOut) :
    startedIds (history.filter TsOut.concernsCaller) = startedIds history := by
  unfold startedIds
  rw [List.filterMap_filter]
  congr 1
  funext o
  cases o <;> rfl

structure IdsRenewed (l : Ledger) : Prop where
  chain : (startedIds l.history).IsChain Renews
  last : ∀ id ∈ (startedIds l.history).head?, l.session = id

namespace IdsRenewed

variable {l l' : Ledger}

theorem of_same (h : IdsRenewed l) (hids : startedIds l'.history = startedIds l.history)
    (hsession : l'.session = l.session) : IdsRenewed l' := by
  refine ⟨?_, ?_⟩
  · rw [hids]
    exact h.chain
  · rw [hids, hsession]
    exact h.last

theorem start (h : IdsRenewed l) {session : Nat} (hnew : Renews session l.session) : IdsRenewed (l.start session) := by
  have hids : startedIds (l.start session).history = session :: startedIds l.history := rfl
  refine ⟨?_, ?_⟩
  · rw [hids, List.isChain_cons]
    refine ⟨fun id hid => ?_, h.chain⟩
    rw [← h.last id hid]
    exact hnew
  · rw [hids]
    exact fun id hid => Option.some.inj hid

theorem complete (h : IdsRenewed l) (status : UInt8) : IdsRenewed (l.complete status) := by
  unfold Ledger.complete
  split
  · exact h.of_same rfl rfl
  · exact h

theorem hear (h : IdsRenewed l) (p : TsParam) (pCmd : Mem) (len : Nat) : IdsRenewed (l.hear p pCmd len) :=
  h.of_same rfl rfl

theorem setStake (h : IdsRenewed l) (stake : Stake) : IdsRenewed (l.setStake stake) :=
  h.of_same rfl rfl

end IdsRenewed

section Run

variable {env : TsEnv} {s : TransportService}

theorem idsRenewed_sendFirstFrag (h : IdsRenewed s.ledger) : IdsRenewed (sendFirstFrag env s).ledger := by
  rw [ledger_sendFirstFrag]
  exact h.start (renews_nextSessionId env s)

theorem idsRenewed_sendData (h : IdsRenewed s.ledger) (p : TsParam) (pData : Mem) (dataLength : UInt16) :
    IdsRenewed (sendData env s p pData dataLength).ledger := by
  unfold sendData
  dsimp only
  split
  · rw [ledger_log, ledger_log]
    exact h.of_same rfl rfl
  · apply idsRenewed_sendFirstFrag
    rw [ledger_postStartSend]
    exact h.of_same rfl rfl

theorem idsRenewed_step (h : IdsRenewed s.ledger) (e : TsEvent) : IdsRenewed (step env s e).ledger := by
  cases e with
  | sendData p pData dataLength => exact idsRenewed_sendData h p pData dataLength
  | frame p pCmd cmdLength =>
    change IdsRenewed (applicationCommandHandler env s p pCmd cmdLength).ledger
    obtain ⟨stake, heq | ⟨-, heq⟩⟩ := ledger_applicationCommandHandler env s p pCmd cmdLength
    · rw [heq]
      exact (h.hear p pCmd _).setStake stake
    · rw [heq]
      exact ((h.hear p pCmd _).complete _).setStake stake
  | transmitDone cb status =>
    simp only [step]
    split
    · cases cb with
      | tsSenddataCb =>
        change IdsRenewed (tsSenddataCb env _).ledger
        rw [ledger_tsSenddataCb]
        exact h
      | tempCallbackReplyFragReq =>
        change IdsRenewed (tempCallbackReplyFragReq _ status).ledger
        rw [ledger_tempCallbackReplyFragReq]
        split
        · exact h
        · exact h.complete status
      | tempCallbackLastFrag => exact h
    · exact h
  | expired t =>
    simp only [step]
    split
    · cases t with
      | fc =>
        change IdsRenewed (fcTimerExpired env _).ledger
        rw [ledger_fcTimerExpired]
        refine IdsRenewed.setStake ?_ _
        split
        · exact h.complete _
        · exact h
      | rx =>
        change IdsRenewed (rxTimerExpired env _).ledger
        rw [ledger_rxTimerExpired]
        exact h
      | reset =>
        change IdsRenewed (resetTransportService _).ledger
        rw [ledger_resetTransportService]
        exact h
      | waitRestart => exact idsRenewed_sendFirstFrag h
      | btwn2Frags =>
        change IdsRenewed (sendSubseqFrag env _).ledger
        rw [ledger_sendSubseqFrag]
        exact h
    · exact h

theorem idsRenewed_init : IdsRenewed init.ledger :=
  ⟨List.isChain_nil, fun _ h => by cases h⟩

end Run

/-- In every run, a transmission is aborted for a segment wait, for the timer that waits behind an
answered segment request, or for a fragment behind a tie that this frame or an earlier one broke;
and a session is started under another id than the one before it, unless that one was 0. -/
theorem aborts_and_restarts (env : TsEnv) (events : List TsEvent) (e : TsEvent) :
    let s := Machine.run (step env) init events
    ((step env s e).scb.transmissionAborted ≠ s.scb.transmissionAborted →
        (step env s e).scb.transmissionAborted ≠ 0x11 → s.AbortCause env e) ∧
      (s.flagTieBroken = true → ∃ earlier p pCmd cmdLength later, events = earlier ++ .frame p pCmd cmdLength :: later ∧
          (Machine.run (step env) init earlier).TieBreaks env p) ∧
      (startedIds s.out).IsChain Renews := by
  intro s
  refine ⟨aborted_step env s e, exists_tieBreaks env events, ?_⟩
  have hstep : ∀ (t : TransportService) (e : TsEvent), IdsRenewed t.ledger →
      IdsRenewed (step env t e).ledger := fun t e h => idsRenewed_step h e
  have hids : IdsRenewed s.ledger := Machine.run_invariant hstep idsRenewed_init events
  have hchain := hids.chain
  rw [show s.ledger.history = s.out.filter TsOut.concernsCaller from rfl, startedIds_filter] at hchain
  exact hchain

def sampleSegmentWait : TsEvent :=
  .frame { snode := 5, dnode := 1, txFlags := 0, rxFlags := 0 } (Mem.ofBytes [0x55, 0xF0, 0]) 3

theorem segmentWait_aborts : ¬∀ (env : TsEnv) (events : List TsEvent) (e : TsEvent),
      let s := Machine.run (step env) init events
      ((step env s e).scb.transmissionAborted ≠ s.scb.transmissionAborted →
          (step env s e).scb.transmissionAborted ≠ 0x11 → ∃ p pCmd cmdLength,
            e = .frame p pCmd cmdLength ∧ cmdType pCmd = commandFirstFragment ∧ s.TieBreaks env p) ∧
        (startedIds s.out).IsChain (· ≠ ·) := by
  intro hall
  obtain ⟨p, pCmd, cmdLength, heq, hfirst, -⟩ :=
    (hall sampleTsEnv [sampleCall] sampleSegmentWait).1 (by decide) (by decide)
  injection heq with _ hcmd _
  rw [← hcmd] at hfirst
  exact absurd hfirst (by decide)

end TransportService

end ZipGateway

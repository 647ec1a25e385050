import ZipGateway.Inclusion.Progress
import ZipGateway.Lib.Byte

/-!
# Every call is a sequence of moves

The application may call the machine from within an action; what it does is a sequence of moves
itself, and when S2 reports the failure of a frame that has just been handed to it, the machine stays
in the state it was in.
-/

set_option maxRecDepth 8000

namespace ZipGateway.Inclusion

section Table

def Transition.credible : Transition → Bool
  | ⟨state, event, .none, new⟩ =>
    new = none ∨ state = new ∧ state ≠ none ∨ event = some .errorWasSent ∧ new = some .errorSent ∨
      state = some .awaitingKexGet ∧ event = some .reject
  | ⟨_, _, .abort, new⟩ => new = some .idle
  | ⟨_, _, .remoteError, new⟩ => new = some .idle
  | ⟨_, _, .resendFrame, new⟩ => new = none
  | ⟨_, _, .resendData, new⟩ => new = none
  | ⟨state, event, .sendKexGet, new⟩ =>
    state = some .idle ∧ event = some .includingStart ∧ new = some .awaitingKexReport
  | ⟨state, event, .kexRepRecv, new⟩ =>
    state = some .awaitingKexReport ∧ event = some .kexReportRecv ∧ new = some .awaitingKeyUserAccept
  | ⟨state, event, .sendKexSet, new⟩ =>
    state = some .awaitingKeyUserAccept ∧ event = some .accept ∧ new = some .awaitingPubKeyB
  | ⟨state, event, .sendPubKeyA, new⟩ =>
    state = some .awaitingPubKeyB ∧ event = some .pubKeyRecvB ∧ new = some .awaitingUserAccept
  | ⟨state, event, .doEcdhCalcA, new⟩ =>
    state = some .awaitingUserAccept ∧ event = some .accept ∧ new = some .awaitingEchoKexSet
  | ⟨state, event, .sendEchoKexReport, new⟩ =>
    state = some .awaitingEchoKexSet ∧ event = some .echoKexSetRecv ∧ new = some .awaitingNetKeyGet
  | ⟨state, _, .sendErrorCancel, new⟩ =>
    (state = some .awaitingKeyUserAccept ∨ state = some .awaitingUserAccept) ∧ new = some .errorSent
  | ⟨state, _, .sendErrorDecrypt, new⟩ => state = some .awaitingEchoKexSet ∧ new = some .errorSent
  | ⟨state, event, .sendNetKeyReport, new⟩ =>
    state = some .awaitingNetKeyGet ∧ event = some .netKeyGetRecv ∧ new = some .awaitingNetKeyVerify
  | ⟨state, event, .sendTransferEnd, new⟩ =>
    state = some .awaitingNetKeyVerify ∧ (event = some .netKeyVerifyFinalRecv ∧ new = some .awaitingTransferEnd ∨
        event = some .netKeyVerifyRecv ∧ new = some .awaitingNetKeyGet)
  | ⟨state, _, .inclusionComplete, new⟩ => state = some .awaitingTransferEnd ∧ new = some .idle
  | ⟨state, _, .checkNoKeys, new⟩ => state = some .awaitingNetKeyGet ∧ new = some .idle
  | ⟨state, event, .joiningStart, new⟩ =>
    state = some .idle ∧ event = some .joiningStart ∧ new = some .awaitingKexGet
  | ⟨state, _, .timeoutTb1Set, new⟩ => state = some .awaitingKexGet ∧ new = some .awaitingKexGet
  | ⟨state, _, .sendKexReport, new⟩ => state = some .awaitingKexGet ∧ new = some .awaitingKexSet
  | ⟨state, _, .sendPubKeyB, new⟩ => state = some .awaitingKexSet ∧ new = some .awaitingPubKeyA
  | ⟨state, _, .pubKeyARecv, new⟩ =>
    state = some .awaitingPubKeyA ∧ new = some .awaitingUserAAccept
  | ⟨state, _, .doEcdhCalcB, new⟩ =>
    state = some .awaitingUserAAccept ∧ new = some .echoKexSetSending
  | ⟨state, _, .sendEchoKexSet, new⟩ =>
    state = some .echoKexSetSending ∧ new = some .echoKexSetSending
  | ⟨state, _, .sendNetKeyGet, new⟩ =>
    (state = some .echoKexSetSending ∨ state = some .keyExchanged) ∧ new = some .awaitingNetKeyReport
  | ⟨state, _, .sendNetKeyVerify, new⟩ =>
    state = some .awaitingNetKeyReport ∧ new = some .keyExchanged
  | ⟨state, _, .sendFinalTransferEnd, new⟩ =>
    (state = some .awaitingNetKeyReport ∨ state = some .keyExchanged) ∧ new = some .sendingFinalTransferEnd
  | ⟨state, _, .joiningComplete, new⟩ =>
    state = some .sendingFinalTransferEnd ∧ new = some .idle
  | ⟨state, _, .joiningNeverStarted, new⟩ => state = some .awaitingKexGet ∧ new = some .idle

theorem credible_of_mem : ∀ row ∈ transitionTable, row.credible := by
  decide

variable (state : State) (event : Event)

theorem findTransition_spec : findTransition state event ∈ transitionTable ∧
      ((findTransition state event).state = some state ∨ (findTransition state event).state = none) ∧
      ((findTransition state event).event = some event ∨ (findTransition state event).event = none) := by
  unfold findTransition
  cases h : transitionTable.find? fun row =>
      (row.state = some state ∨ row.state = none) ∧ (row.event = some event ∨ row.event = none) with
  | none =>
    have hlast : (⟨none, none, .abort, some .idle⟩ : Transition) ∈ transitionTable := by decide
    have hno := List.find?_eq_none.mp h _ hlast
    simp at hno
  | some row =>
    have hfits := List.find?_some h
    simp only [decide_eq_true_eq] at hfits
    exact ⟨List.mem_of_find?_eq_some h, hfits⟩

theorem findTransition_credible : (findTransition state event).credible :=
  credible_of_mem _ (findTransition_spec state event).1

variable {state} {event}

theorem findTransition_idle (hincluding : event ≠ .includingStart) (hjoining : event ≠ .joiningStart) :
    (findTransition .idle event).action = .none ∧ (findTransition .idle event).newState = some .idle := by
  cases event <;> first | exact ⟨rfl, rfl⟩ | contradiction

theorem findTransition_errorWasSent (h : state ≠ .idle) :
    findTransition state .errorWasSent = ⟨none, some .errorWasSent, .none, some .errorSent⟩ := by
  cases state <;> first | rfl | contradiction

theorem findTransition_error (h : state ≠ .idle) :
    findTransition state .error = ⟨none, some .error, .abort, some .idle⟩ := by
  cases state <;> first | rfl | contradiction

end Table

namespace Ctx

def ResendsData (state : State) : Prop :=
  (findTransition state .retry).action = .resendData ∧ (findTransition state .retry).newState = none

structure Tame (fire : List Call → Ctx → Ctx) : Prop where
  moves : ∀ calls s, Moves s.progress (fire calls s).progress
  steady : ∀ s, s.retryCounter = maxRetryCount → ResendsData s.state → (fire [.sendDone false] s).state = s.state

section Sending

variable {env : Env} {fire : List Call → Ctx → Ctx} (s : Ctx)

@[simp]
theorem progress_withRetries (n : UInt8) : (s.withRetries n).progress = s.progress := rfl

@[simp]
theorem progress_withCsaSupport (csa : UInt8) : (s.withCsaSupport csa).progress = s.progress := rfl

@[simp]
theorem progress_withPublicKey (key : Bytes) : (s.withPublicKey key).progress = s.progress := rfl

@[simp]
theorem progress_encryptFor (slot txOptions : UInt8) : (s.encryptFor slot txOptions).progress = s.progress := rfl

@[simp]
theorem progress_keystoreWrite (keyClass : UInt8) (key : Bytes) :
    (s.keystoreWrite keyClass key).progress = s.progress := by
  unfold keystoreWrite
  split_ifs <;> rfl

theorem progress_prepare (cls command : UInt8) (rest : Bytes) : (s.prepare (cls :: command :: rest)).progress =
      { s.progress with
        command := command, key := (s.prepare (cls :: command :: rest)).inclusionBuf 2 } := by
  simp [progress, prepare, Mem.write]

theorem progress_inclusionSendFrame : (s.inclusionSendFrame env).progress = { s.progress with
        log := .sentFrame s.peer s.prepared (env.sendFrame s.nFrame) :: s.log } := by
  unfold inclusionSendFrame
  dsimp only
  split_ifs <;> rfl

theorem releases_prepared {key : UInt8} (h : Releases s.prepared key) :
    s.inclusionBuf 1 = networkKeyReport ∧ s.inclusionBuf 2 = key := by
  have hlength : 2 < s.inclusionBufLength := by
    have hlt := (List.getElem?_eq_some_iff.mp h.2).1
    rwa [prepared, Mem.length_slice] at hlt
  have hcommand := h.1
  have hkey := h.2
  rw [prepared, Mem.getElem?_slice (by omega)] at hcommand hkey
  exact ⟨by simpa using hcommand, by simpa using hkey⟩

variable {s} {o : Progress} (h : Moves o s.progress)

include h

theorem moves_prepare {command : UInt8} (hcommand : command ≠ networkKeyReport) (cls : UInt8)
    (rest : Bytes) : Moves o (s.prepare (cls :: command :: rest)).progress := by
  rw [progress_prepare]
  exact h.tail (.prepare s.progress _ _ hcommand)

theorem moves_inclusionSendFrame : Moves o (s.inclusionSendFrame env).progress := by
  rw [progress_inclusionSendFrame]
  exact h.tail (.sent s.progress _ fun key hkey => releases_prepared s hkey)

theorem moves_s2SendData (hf : Tame fire) : Moves o (s.s2SendData env fire).2.progress := by
  have hsent : Moves o { s.progress with log := .sentData s.peer s.prepared (env.sendData s.nData) :: s.log } :=
    h.tail (.sent s.progress _ fun key hkey => releases_prepared s hkey)
  unfold s2SendData
  cases hresult : env.sendData s.nData with
  | accepted => rw [hresult] at hsent; exact hsent
  | refused => rw [hresult] at hsent; exact hsent
  | failed =>
    rw [hresult] at hsent
    let t : Ctx := { s with
      nData := s.nData + 1, log := .sentData s.peer s.prepared .failed :: s.log }
    have hnested := hf.moves [.sendDone false] t
    exact hsent.trans hnested

theorem moves_inclusionSendData (hf : Tame fire) : Moves o (s.inclusionSendData env fire).progress := by
  have hsent : Moves o (s.s2SendData env fire).2.progress := moves_s2SendData h hf
  unfold inclusionSendData
  split
  · next heq => rw [heq] at hsent; exact hsent
  · next heq => rw [heq] at hsent; exact hsent

theorem moves_evtHandler (hf : Tame fire) {up : Up} (hup : up.isTerminal = false) :
    Moves o (s.evtHandler env fire up).progress := by
  let t : Ctx := { s with nEvent := s.nEvent + 1, log := .event up :: s.log }
  have hnested := hf.moves (env.react s.nEvent up) t
  have hheard := Move.heard s.progress (.event up) hup
  exact (h.tail hheard).trans hnested

omit h

theorem state_inclusionSendData (hf : Tame fire) (hretry : s.retryCounter = maxRetryCount)
    (hresends : ResendsData s.state) : (s.inclusionSendData env fire).state = s.state := by
  have hstate : (s.s2SendData env fire).2.state = s.state := by
    unfold s2SendData
    cases env.sendData s.nData with
    | accepted => rfl
    | refused => rfl
    | failed => exact hf.steady _ hretry hresends
  unfold inclusionSendData
  split
  · next heq => rw [heq] at hstate; exact hstate
  · next heq => rw [heq] at hstate; exact hstate

variable (hstill : o.Still s.progress)

include hstill

theorem moves_inclusionFailedEvtPush (hf : Tame fire) (ho : o.state ≠ .idle) (hs : s.state = .idle) (failType : UInt8) :
    Moves o (s.inclusionFailedEvtPush env fire failType).progress := by
  have hmove := Move.fail o s.progress s.peer failType ho hstill
  rw [← hstill.log] at hmove
  let t : Ctx := { s.restoreKeys with
    nEvent := s.nEvent + 1, log := .event (.inclusionFailed s.peer failType) :: s.log }
  have ht : t.progress = { s.progress with
      state := .idle, temporary := false, network := false,
      log := .event (.inclusionFailed s.peer failType) :: s.log } := by
    rw [← hs]
    rfl
  have hnested := hf.moves (env.react s.nEvent (.inclusionFailed s.peer failType)) t
  rw [ht] at hnested
  exact .head hmove hnested

variable (env fire) in
theorem moves_errorFrame (error : UInt8) : ∃ o', Moves o o' ∧ o'.state = o.state ∧
      o'.Still (s.inclusionFailedFrameSend env fire error nonSecure).progress := by
  have hkexFail : kexFail ≠ networkKeyReport := by decide
  let t : Ctx := ((s.withFailCode error).prepare [commandClassSecurity2, kexFail, error]).withRetries maxRetryCount
  have ht : t.progress = { s.progress with command := kexFail, key := error } :=
    progress_prepare (s.withFailCode error) commandClassSecurity2 kexFail [error]
  let entry : Entry := .sentFrame t.peer t.prepared (env.sendFrame t.nFrame)
  have hsends : Progress.Sends { o with command := kexFail, key := error } entry := by
    intro key hkey
    have hreport := (releases_prepared t hkey).1
    have hcommand : t.inclusionBuf 1 = kexFail := congrArg Progress.command ht
    exact absurd (hcommand.symm.trans hreport) hkexFail
  refine ⟨{ o with command := kexFail, key := error, log := entry :: o.log }, ?_, rfl, ?_⟩
  · exact .head (.prepare o kexFail error hkexFail) (.single (.sent _ entry hsends))
  · have hfailed : s.inclusionFailedFrameSend env fire error nonSecure = t.inclusionSendFrame env :=
      rfl
    rw [hfailed, progress_inclusionSendFrame, ht]
    exact ⟨rfl, rfl, by rw [← hstill.log]; rfl⟩

omit hstill

@[simp]
theorem state_inclusionFailedFrameSend (error : UInt8) :
    (s.inclusionFailedFrameSend env fire error nonSecure).state = s.state := by
  change (inclusionSendFrame env _).state = _
  unfold inclusionSendFrame
  dsimp only
  split_ifs <;> rfl

end Sending

section Nested

variable {env : Env} {fire : List Call → Ctx → Ctx} {s : Ctx} (n : Nat)

theorem process_errorWasSent (h : s.state ≠ .idle) :
    s.process env fire (n + 1) .errorWasSent = s.withState .errorSent := by
  simp only [process, findTransition_errorWasSent h]
  rfl

theorem process_error (h : s.state ≠ .idle) : s.process env fire (n + 1) .error =
      (s.withState .idle).inclusionFailedEvtPush env fire s.kexFailCode := by
  simp only [process, findTransition_error h]
  rfl

theorem process_noKeysGranted (h : s.state = .awaitingNetKeyReport) : s.process env fire (n + 2) .noKeysGranted =
      (s.withState .sendingFinalTransferEnd).sendFinalTransferEnd env fire (process env fire (n + 1)) := by
  have hrow : findTransition .awaitingNetKeyReport .noKeysGranted =
    ⟨some .awaitingNetKeyReport, some .noKeysGranted, .sendFinalTransferEnd, some .sendingFinalTransferEnd⟩ := rfl
  rw [process, h, hrow]
  rfl

variable {o : Progress} (ho : o.state ≠ .idle) (hs : s.state ≠ .idle) (hstill : o.Still s.progress)

include ho hs hstill

theorem moves_errorWasSent (error : UInt8) :
    Moves o ((s.inclusionFailedFrameSend env fire error nonSecure).process env fire (n + 1)
      .errorWasSent).progress := by
  obtain ⟨o', hmoves, hstate, hstill'⟩ := moves_errorFrame env fire hstill error
  rw [process_errorWasSent n (by rwa [state_inclusionFailedFrameSend])]
  refine hmoves.tail (.error _ _ (hstate ▸ ho) rfl ?_)
  exact ⟨hstill'.command, hstill'.key, hstill'.log⟩

theorem moves_error (hf : Tame fire) : Moves o (s.process env fire (n + 1) .error).progress := by
  rw [process_error n hs]
  have hidle : o.Still (s.withState .idle).progress := ⟨hstill.1, hstill.2, hstill.3⟩
  exact moves_inclusionFailedEvtPush hidle hf ho rfl _

end Nested

section Joining

variable {env : Env} {fire : List Call → Ctx → Ctx} {o : Progress} {s : Ctx}

theorem ne_idle_of_isJoining {state : State} (h : state.isJoining) : state ≠ .idle := by
  rintro rfl
  contradiction

variable (ho : o.state.isJoining) (hstill : o.Still s.progress)

include ho hstill

theorem moves_joining {state : State} (hs : s.state = state) (hstate : state.isJoining)
    (hne : state ≠ .awaitingKexGet) : Moves o s.progress := by
  subst hs
  exact .single (.joining o s.progress ho hstate (fun h => absurd h hne) hstill)

theorem moves_sendKexReport (hf : Tame fire) (hs : s.state = .awaitingKexSet) :
    Moves o (s.sendKexReport env fire).progress := by
  have hjoining : Moves o s.keystoreClear.progress := moves_joining ho hstill hs rfl (by decide)
  unfold sendKexReport
  apply moves_inclusionSendFrame
  rw [progress_withRetries]
  refine moves_prepare ?_ (by decide) _ _
  rw [progress_withCsaSupport]
  exact moves_evtHandler hjoining hf rfl

theorem moves_failJoining (n : Nat) (hs : s.state ≠ .idle) (error : UInt8) :
    Moves o (s.failJoining env fire (process env fire (n + 1)) error).progress :=
  moves_errorWasSent n (ne_idle_of_isJoining ho) hs hstill error

theorem moves_answerKexSet (hs : s.state = .awaitingPubKeyA) : Moves o (s.answerKexSet env).progress := by
  unfold answerKexSet
  apply moves_inclusionSendFrame
  rw [progress_withRetries]
  refine moves_prepare ?_ (by decide) _ _
  split_ifs
  · refine moves_joining ho ?_ hs rfl (by decide)
    exact ⟨hstill.1, hstill.2, hstill.3⟩
  · refine moves_joining ho ?_ hs rfl (by decide)
    exact ⟨hstill.1, hstill.2, hstill.3⟩

theorem moves_sendPubKeyB (n : Nat) (hs : s.state = .awaitingPubKeyA) :
    Moves o (s.sendPubKeyB env fire (process env fire (n + 1))).progress := by
  have hne : s.state ≠ .idle := by rw [hs]; decide
  unfold sendPubKeyB
  dsimp only
  split
  · split
    · split
      · split
        · refine moves_failJoining ho ?_ n ?_ _
          · exact ⟨hstill.1, hstill.2, hstill.3⟩
          · exact hne
        · refine moves_answerKexSet ho ?_ ?_
          · exact ⟨hstill.1, hstill.2, hstill.3⟩
          · exact hs
      · refine moves_failJoining ho ?_ n ?_ _
        · exact ⟨hstill.1, hstill.2, hstill.3⟩
        · exact hne
    · refine moves_failJoining ho ?_ n ?_ _
      · exact ⟨hstill.1, hstill.2, hstill.3⟩
      · exact hne
  · exact moves_failJoining ho hstill n hne _

theorem moves_sendEchoKexSet (hf : Tame fire) (hs : s.state = .echoKexSetSending) :
    Moves o (s.sendEchoKexSet env fire).progress := by
  have hjoining : Moves o s.progress := moves_joining ho hstill hs rfl (by decide)
  unfold sendEchoKexSet
  refine moves_s2SendData ?_ hf
  rw [progress_encryptFor]
  refine moves_prepare ?_ (by decide) _ _
  exact hjoining

theorem moves_doEcdhCalcB (hf : Tame fire) (hs : s.state = .echoKexSetSending) :
    Moves o (s.doEcdhCalcB env fire).progress := by
  refine moves_sendEchoKexSet ho ?_ hf hs
  exact ⟨hstill.1, hstill.2, hstill.3⟩

theorem moves_pubKeyARecv (hf : Tame fire) (hs : s.state = .awaitingUserAAccept) :
    Moves o (s.pubKeyARecv env fire).progress := by
  refine moves_evtHandler ?_ hf rfl
  exact moves_joining ho hstill hs rfl (by decide)

theorem moves_sendFinalTransferEnd (hf : Tame fire) (n : Nat) (hs : s.state = .sendingFinalTransferEnd) :
    Moves o (s.sendFinalTransferEnd env fire (process env fire (n + 1))).progress := by
  have hne : s.state ≠ .idle := by rw [hs]; decide
  unfold sendFinalTransferEnd
  split_ifs
  · exact moves_error n (ne_idle_of_isJoining ho) hne hstill hf
  · refine moves_inclusionSendData ?_ hf
    rw [progress_withRetries, progress_encryptFor]
    refine moves_prepare ?_ (by decide) _ _
    exact moves_joining ho hstill hs rfl (by decide)

theorem moves_requestNetKey (hf : Tame fire) (n : Nat) (hs : s.state = .awaitingNetKeyReport) :
    Moves o (s.requestNetKey env fire (process env fire (n + 2))).progress := by
  unfold requestNetKey
  split_ifs
  · rw [process_noKeysGranted n hs]
    refine moves_sendFinalTransferEnd ho ?_ hf n rfl
    exact ⟨hstill.1, hstill.2, hstill.3⟩
  · refine moves_inclusionSendData ?_ hf
    rw [progress_withRetries, progress_encryptFor]
    refine moves_prepare ?_ (by decide) _ _
    refine moves_joining ho ?_ hs rfl (by decide)
    exact ⟨hstill.1, hstill.2, hstill.3⟩

theorem moves_sendNetKeyGet (hf : Tame fire) (n : Nat) (hs : s.state = .awaitingNetKeyReport) :
    Moves o (s.sendNetKeyGet env fire (process env fire (n + 2))).progress := by
  have hne : s.state ≠ .idle := by rw [hs]; decide
  have hne' := ne_idle_of_isJoining ho
  unfold sendNetKeyGet validateEchoKexReport
  split_ifs
  · exact moves_requestNetKey ho hstill hf n hs
  · exact moves_errorWasSent (n + 1) hne' hne hstill _
  · exact moves_error (n + 1) hne' hne hstill hf
  · exact moves_requestNetKey ho hstill hf n hs

theorem moves_sendNetKeyVerify (hf : Tame fire) (n : Nat) (hs : s.state = .keyExchanged) :
    Moves o (s.sendNetKeyVerify env fire (process env fire (n + 1))).progress := by
  have hne : s.state ≠ .idle := by rw [hs]; decide
  unfold sendNetKeyVerify
  split_ifs
  · exact moves_failJoining ho hstill n hne _
  · refine moves_inclusionSendData ?_ hf
    rw [progress_withRetries, progress_encryptFor]
    refine moves_prepare ?_ (by decide) _ _
    let t := s.keystoreWrite (s.buf 2) (s.buf.slice 3 networkKeySize)
    have ht : t.progress = s.progress := progress_keystoreWrite s _ _
    refine moves_joining ho ?_ (congrArg Progress.state ht |>.trans hs) rfl (by decide)
    rw [← ht] at hstill
    exact ⟨hstill.1, hstill.2, hstill.3⟩

end Joining

section Including

variable {env : Env} {fire : List Call → Ctx → Ctx} {s : Ctx}

theorem scheme1_of_supported (b : UInt8) (h : b &&& schemeSupportMask &&& scheme1Support ≠ 0) :
    b &&& schemeSupportMask = scheme1Support := by
  revert b
  decide

theorem curve25519_of_supported (b : UInt8) (h : b &&& curveMask &&& curve25519 ≠ 0) :
    b &&& curveMask = curve25519 := by
  revert b
  decide

variable (env fire s) in
theorem validateReportedSchemes_cases : s.validateReportedSchemes env fire = (true, s.withScheme scheme1Support) ∨
      ∃ scheme, s.validateReportedSchemes env fire =
        (false, (s.withScheme scheme).inclusionFailedFrameSend env fire kexFailKexScheme nonSecure) := by
  unfold validateReportedSchemes
  dsimp only
  split
  · next h =>
    left
    rw [scheme1_of_supported _ h]
  · exact .inr ⟨_, rfl⟩

variable (env fire s) in
theorem validateReportedCurves_cases : s.validateReportedCurves env fire = (true, s.withCurve curve25519) ∨
      ∃ curve, s.validateReportedCurves env fire =
        (false, (s.withCurve curve).inclusionFailedFrameSend env fire kexFailKexCurves nonSecure) := by
  unfold validateReportedCurves
  dsimp only
  split
  · next h =>
    left
    rw [curve25519_of_supported _ h]
  · exact .inr ⟨_, rfl⟩

theorem moves_kexRepRecv (hf : Tame fire) (n : Nat) (hs : s.state = .awaitingKexReport) :
    Moves s.progress ((s.withState .awaitingKeyUserAccept).kexRepRecv env fire
      (process env fire (n + 1))).progress := by
  have hne : s.progress.state ≠ .idle := by
    change s.state ≠ _
    rw [hs]
    decide
  have hnew : State.awaitingKeyUserAccept ≠ .idle := by decide
  unfold kexRepRecv
  rcases validateReportedSchemes_cases env fire (s.withState .awaitingKeyUserAccept) with
    hscheme | ⟨scheme, hscheme⟩
  · rw [hscheme]
    dsimp only
    rcases validateReportedCurves_cases env fire
      ((s.withState .awaitingKeyUserAccept).withScheme scheme1Support) with hcurve | ⟨curve, hcurve⟩
    · rw [hcurve]
      unfold validateReportedKeys
      dsimp only
      split_ifs
      · refine moves_evtHandler ?_ hf rfl
        rw [progress_withCsaSupport]
        exact .single (.reported s.progress _ _ hs)
      · refine moves_errorWasSent n hne ?_ ?_ _
        · exact hnew
        · exact ⟨rfl, rfl, rfl⟩
    · rw [hcurve]
      refine moves_errorWasSent n hne ?_ ?_ _
      · exact hnew
      · exact ⟨rfl, rfl, rfl⟩
  · rw [hscheme]
    refine moves_errorWasSent n hne ?_ ?_ _
    · exact hnew
    · exact ⟨rfl, rfl, rfl⟩

theorem moves_sendPubKeyA (hf : Tame fire) (hs : s.state = .awaitingPubKeyB) :
    Moves s.progress ((s.withState .awaitingUserAccept).sendPubKeyA env fire).progress := by
  unfold sendPubKeyA
  apply moves_inclusionSendFrame
  rw [progress_withRetries]
  refine moves_prepare ?_ (by decide) _ _
  refine moves_evtHandler ?_ hf rfl
  rw [progress_withPublicKey]
  exact .single (.challenge s.progress hs)

structure HeardEcho (s : Ctx) (src : Connection) (frame : Bytes) : Prop where
  heard : s.progress.Heard src frame
  buf : s.buf = Mem.ofBytes frame
  secure : src.classId = tempKeySlot
  command : frame.getD 1 0 = kexSet
  echo : frame.getD 2 0 &&& echoOn ≠ 0

theorem csaOn_or_zero (b : UInt8) : b &&& csaOn = csaOn ∨ b &&& csaOn = 0 := by
  revert b
  decide

theorem csaBit_of_mode {t : Ctx} {frame : Bytes} (hbuf : t.buf = Mem.ofBytes frame)
    (hmode : ¬(decide ((t.mode = .csa ∧ ¬(decide (t.buf 2 &&& csaOn = csaOn) = true)) ∨
      (t.mode = .ssa ∧ decide (t.buf 2 &&& csaOn = csaOn) = true)) = true)) :
    frame.getD 2 0 &&& csaOn = if t.mode = .csa then csaOn else 0 := by
  have hbit : t.buf 2 = frame.getD 2 0 := congrFun hbuf 2
  rw [hbit] at hmode
  cases hm : t.mode with
  | csa => simpa [hm] using hmode
  | ssa =>
    have hnot : ¬frame.getD 2 0 &&& csaOn = csaOn := by simpa [hm] using hmode
    simpa using (csaOn_or_zero _).resolve_left hnot

theorem moves_sendEchoKexReport (hf : Tame fire) (n : Nat) (hs : s.state = .awaitingEchoKexSet)
    {src : Connection} {frame : Bytes} (hheard : s.HeardEcho src frame) :
    Moves s.progress ((s.withState .awaitingNetKeyGet).sendEchoKexReport env fire
      (process env fire (n + 1))).progress := by
  have hne : s.progress.state ≠ .idle := by
    change s.state ≠ _
    rw [hs]
    decide
  unfold sendEchoKexReport validateEchoKexSet
  dsimp only
  split_ifs
  · next h =>
    obtain ⟨hscheme, hcurve, hkeys, hmode⟩ := h
    refine moves_inclusionSendData ?_ hf
    rw [progress_withRetries, progress_encryptFor]
    change Moves s.progress (((s.withState .awaitingNetKeyGet).withExchange 0).prepare
      (commandClassSecurity2 :: kexReport :: _)).progress
    refine moves_prepare (.single ?_) (by decide) _ _
    refine Move.echo s.progress src frame hs ⟨hheard.heard, hheard.secure, hheard.command, hheard.echo, ?_, ?_, ?_, ?_⟩
    · exact csaBit_of_mode hheard.buf hmode
    · exact (hscheme.trans (congrFun hheard.buf 3)).symm
    · exact (hcurve.trans (congrFun hheard.buf 4)).symm
    · exact (hkeys.trans (congrFun hheard.buf 5)).symm
  · refine moves_errorWasSent n hne ?_ ?_ _
    · change State.awaitingNetKeyGet ≠ _
      decide
    · exact ⟨rfl, rfl, rfl⟩

structure HeardGet (s : Ctx) (src : Connection) (frame : Bytes) : Prop where
  heard : s.progress.Heard src frame
  buf : s.buf = Mem.ofBytes frame
  secure : src.classId = tempKeySlot
  command : frame.getD 1 0 = networkKeyGet

theorem progress_prepareNetKeyReport (key : UInt8) : (s.prepareNetKeyReport key).progress =
      { s.progress with command := networkKeyReport, key := key } := by
  unfold prepareNetKeyReport
  dsimp only
  split <;> simp [progress, prepare, Mem.write]

theorem moves_loadReportedS0Key {o : Progress} (h : Moves o s.progress)
    (hs : s.state = .awaitingNetKeyVerify) : Moves o s.loadReportedS0Key.progress := by
  unfold loadReportedS0Key
  split_ifs
  · exact h.tail (.load s.progress hs)
  · exact h

theorem moves_sendNetKeyReport (hf : Tame fire) (n : Nat) (hs : s.state = .awaitingNetKeyGet)
    {src : Connection} {frame : Bytes} (hheard : s.HeardGet src frame) :
    Moves s.progress ((s.withState .awaitingNetKeyVerify).sendNetKeyReport env fire
      (process env fire (n + 1))).progress := by
  have hne : s.progress.state ≠ .idle := by
    change s.state ≠ _
    rw [hs]
    decide
  unfold sendNetKeyReport validateRequestedKey
  dsimp only
  split_ifs with hkey
  · have hbuf : frame.getD 2 0 = s.buf 2 := (congrFun hheard.buf 2).symm
    have hrequested : s.progress.Requested src frame (s.buf 2) :=
      ⟨hheard.heard, hheard.secure, hheard.command, hbuf, hkey.1, hkey.2⟩
    let t := ((s.withState .awaitingNetKeyVerify).withRequested (s.buf 2)).reportRequestedKey
    have ht : t.progress = { s.progress with
        state := .awaitingNetKeyVerify, keyRequested := s.buf 2,
        keyExchange := s.keyExchange ||| s.buf 2, command := networkKeyReport, key := s.buf 2 } :=
      progress_prepareNetKeyReport (s.buf 2)
    have hrelease : Moves s.progress t.progress := by
      rw [ht]
      exact .single (.release s.progress src frame _ hs hrequested)
    have hstate : t.state = .awaitingNetKeyVerify := congrArg Progress.state ht
    have hresends : ResendsData t.state := by
      rw [hstate]
      exact ⟨rfl, rfl⟩
    have hsteady : (t.inclusionSendData env fire).state = t.state :=
      state_inclusionSendData hf rfl hresends
    exact moves_loadReportedS0Key (moves_inclusionSendData hrelease hf) (hsteady.trans hstate)
  · refine moves_errorWasSent n hne ?_ ?_ _
    · change State.awaitingNetKeyVerify ≠ _
      decide
    · exact ⟨rfl, rfl, rfl⟩

variable (env) in
theorem moves_sendTransferEnd (hf : Tame fire) (hs : s.state = .awaitingNetKeyVerify)
    {src : Connection} {frame : Bytes} (hheard : s.progress.Confirmed src frame) :
    Moves s.progress ((s.withState (if s.keyExchange = s.keyGranted then .awaitingTransferEnd
      else .awaitingNetKeyGet)).sendTransferEnd env fire).progress := by
  unfold sendTransferEnd
  refine moves_inclusionSendData ?_ hf
  rw [progress_withRetries, progress_encryptFor]
  refine moves_prepare (.single ?_) (by decide) _ _
  exact Move.verify s.progress src frame hs hheard

theorem moves_inclusionComplete (hf : Tame fire)
    (hs : s.state = .awaitingTransferEnd ∨ s.state = .awaitingNetKeyGet ∧ s.keyGranted = 0) :
    Moves s.progress ((s.withState .idle).inclusionComplete env fire).progress := by
  have hne : s.progress.state ≠ .idle := by
    change s.state ≠ _
    rcases hs with hs | ⟨hs, -⟩ <;> rw [hs] <;> decide
  unfold inclusionComplete
  split_ifs
  · let t : Ctx := { (s.withState .idle).restoreKeys with
      nEvent := s.nEvent + 1, log := .event (.inclusionComplete s.peer s.keyExchange) :: s.log }
    have hnested := hf.moves (env.react s.nEvent (.inclusionComplete s.peer s.keyExchange)) t
    exact .head (Move.complete s.progress s.peer rfl hs) hnested
  · have hstill : s.progress.Still (s.withState .idle).progress := ⟨rfl, rfl, rfl⟩
    obtain ⟨o', hmoves, hstate, hstill'⟩ := moves_errorFrame env fire hstill kexFailKeyVerify
    exact hmoves.trans (moves_inclusionFailedEvtPush hstill' hf (hstate ▸ hne) (state_inclusionFailedFrameSend _) _)

theorem moves_checkNoKeys (hf : Tame fire) (hs : s.state = .awaitingNetKeyGet) :
    Moves s.progress ((s.withState .idle).checkNoKeys env fire).progress := by
  have hne : s.progress.state ≠ .idle := by
    change s.state ≠ _
    rw [hs]
    decide
  unfold checkNoKeys
  split_ifs with hgranted
  · have hstill : s.progress.Still (s.withState .idle).progress := ⟨rfl, rfl, rfl⟩
    exact moves_inclusionFailedEvtPush hstill hf hne rfl _
  · exact moves_inclusionComplete hf (.inr ⟨hs, by simpa [withState] using hgranted⟩)

theorem moves_joined (hf : Tame fire) (hs : s.state.isJoining) {up : Up}
    (hup : (∃ peer keys, up = .joiningComplete peer keys) ∨ ∃ peer keys, up = .neverStarted peer keys) :
    Moves s.progress ((s.withState .idle).restoreKeys.evtHandler env fire up).progress := by
  let t : Ctx := { (s.withState .idle).restoreKeys with
    nEvent := s.nEvent + 1, log := .event up :: s.log }
  have hnested := hf.moves (env.react s.nEvent up) t
  exact .head (Move.joined s.progress up hs hup) hnested


end Including

section Events

variable {env : Env} {fire : List Call → Ctx → Ctx} {s : Ctx}

def Backed (s : Ctx) : Event → Prop
  | .echoKexSetRecv => ∃ src frame, s.HeardEcho src frame
  | .netKeyGetRecv => ∃ src frame, s.HeardGet src frame
  | .netKeyVerifyRecv => s.keyExchange ≠ s.keyGranted ∧ ∃ src frame, s.progress.Confirmed src frame
  | .netKeyVerifyFinalRecv =>
    s.keyExchange = s.keyGranted ∧ ∃ src frame, s.progress.Confirmed src frame
  | .reject => s.state ≠ .awaitingKexGet
  | .accept | .includingStart | .joiningStart => False
  | _ => True

theorem processEvent_eq (event : Event) : s.processEvent env fire event =
      (s.enter (findTransition s.state event).newState).perform env fire (process env fire 2)
        (findTransition s.state event).action := rfl

theorem processEvent_idle {event : Event} (hs : s.state = .idle) (hincluding : event ≠ .includingStart)
    (hjoining : event ≠ .joiningStart) : s.processEvent env fire event = s := by
  obtain ⟨haction, hnew⟩ := findTransition_idle hincluding hjoining
  rw [processEvent_eq, hs, haction, hnew]
  change s.withState .idle = s
  rw [← hs]
  rfl

variable (env fire) in
theorem moves_sendError (hs : s.state ≠ .idle) (error : UInt8) :
    Moves s.progress ((s.withState .errorSent).inclusionFailedFrameSend env fire error nonSecure).progress := by
  have hstill : s.progress.Still (s.withState .errorSent).progress := ⟨rfl, rfl, rfl⟩
  obtain ⟨o', hmoves, hstate, hstill'⟩ := moves_errorFrame env fire hstill error
  exact hmoves.tail (.error _ _ (hstate ▸ hs) (state_inclusionFailedFrameSend _) hstill')

theorem moves_event (hf : Tame fire) {event : Event} (hbacked : s.Backed event) :
    Moves s.progress (s.processEvent env fire event).progress := by
  by_cases hidle : s.state = .idle
  · rw [processEvent_idle hidle (by rintro rfl; exact hbacked) (by rintro rfl; exact hbacked)]
    exact .refl
  obtain ⟨-, hstate, hevent⟩ := findTransition_spec s.state event
  have hcredible := findTransition_credible s.state event
  rw [processEvent_eq]
  generalize findTransition s.state event = row at *
  obtain ⟨state, event', action, new⟩ := row
  have hfrom : ∀ x, state = some x → s.state = x := by
    rintro x rfl
    have hx : x = s.state := by simpa using hstate
    exact hx.symm
  have hby : ∀ e, event' = some e → event = e := by
    rintro e rfl
    have he : e = event := by simpa using hevent
    exact he.symm
  have hjoin : ∀ x, state = some x → x.isJoining → s.progress.state.isJoining := by
    intro x hx hjoining
    change s.state.isJoining
    rw [hfrom x hx]
    exact hjoining
  have hstill : ∀ state, s.progress.Still (s.withState state).progress := fun _ => ⟨rfl, rfl, rfl⟩
  clear hstate hevent
  cases action <;> simp only [Transition.credible, decide_eq_true_eq] at hcredible
  case none =>
    rcases hcredible with rfl | ⟨rfl, hsome⟩ | ⟨hsent, rfl⟩ | ⟨hstate, hreject⟩
    · exact .refl
    · obtain ⟨x, rfl⟩ := Option.ne_none_iff_exists'.mp hsome
      have hsame : s.enter (some x) = s := by
        rw [← hfrom x rfl]
        rfl
      change Moves s.progress (s.enter (some x)).progress
      rw [hsame]
      exact .refl
    · exact .single (.error _ _ hidle rfl ⟨rfl, rfl, rfl⟩)
    · obtain rfl := hby _ hreject
      exact absurd (hfrom _ hstate) hbacked
  case abort =>
    subst hcredible
    exact moves_inclusionFailedEvtPush (hstill .idle) hf hidle rfl _
  case remoteError =>
    subst hcredible
    exact moves_inclusionFailedEvtPush (hstill .idle) hf hidle rfl _
  case resendFrame =>
    subst hcredible
    exact moves_inclusionSendFrame .refl
  case resendData =>
    subst hcredible
    exact moves_inclusionSendData .refl hf
  case sendKexGet => exact absurd (hfrom _ hcredible.1) hidle
  case joiningStart => exact absurd (hfrom _ hcredible.1) hidle
  case kexRepRecv =>
    obtain ⟨hstate, -, rfl⟩ := hcredible
    exact moves_kexRepRecv hf 1 (hfrom _ hstate)
  case sendKexSet =>
    obtain rfl := hby _ hcredible.2.1
    exact hbacked.elim
  case doEcdhCalcA =>
    obtain rfl := hby _ hcredible.2.1
    exact hbacked.elim
  case sendPubKeyA =>
    obtain ⟨hstate, -, rfl⟩ := hcredible
    exact moves_sendPubKeyA hf (hfrom _ hstate)
  case sendEchoKexReport =>
    obtain ⟨hstate, hecho, rfl⟩ := hcredible
    obtain rfl := hby _ hecho
    obtain ⟨src, frame, hheard⟩ := hbacked
    exact moves_sendEchoKexReport hf 1 (hfrom _ hstate) hheard
  case sendErrorCancel =>
    obtain ⟨-, rfl⟩ := hcredible
    exact moves_sendError env fire hidle _
  case sendErrorDecrypt =>
    obtain ⟨-, rfl⟩ := hcredible
    exact moves_sendError env fire hidle _
  case sendNetKeyReport =>
    obtain ⟨hstate, hget, rfl⟩ := hcredible
    obtain rfl := hby _ hget
    obtain ⟨src, frame, hheard⟩ := hbacked
    exact moves_sendNetKeyReport hf 1 (hfrom _ hstate) hheard
  case sendTransferEnd =>
    obtain ⟨hstate, ⟨hverify, rfl⟩ | ⟨hverify, rfl⟩⟩ := hcredible
    · obtain rfl := hby _ hverify
      obtain ⟨hfinal, src, frame, hconfirmed⟩ := hbacked
      have hmoves := moves_sendTransferEnd env hf (hfrom _ hstate) hconfirmed
      rw [if_pos hfinal] at hmoves
      exact hmoves
    · obtain rfl := hby _ hverify
      obtain ⟨hmore, src, frame, hconfirmed⟩ := hbacked
      have hmoves := moves_sendTransferEnd env hf (hfrom _ hstate) hconfirmed
      rw [if_neg hmore] at hmoves
      exact hmoves
  case inclusionComplete =>
    obtain ⟨hstate, rfl⟩ := hcredible
    exact moves_inclusionComplete hf (.inl (hfrom _ hstate))
  case checkNoKeys =>
    obtain ⟨hstate, rfl⟩ := hcredible
    exact moves_checkNoKeys hf (hfrom _ hstate)
  case timeoutTb1Set =>
    obtain ⟨hstate, rfl⟩ := hcredible
    have hsame : s.enter (some .awaitingKexGet) = s := by
      rw [← hfrom _ hstate]
      rfl
    change Moves s.progress (s.enter (some .awaitingKexGet)).progress
    rw [hsame]
    exact .refl
  case sendKexReport =>
    obtain ⟨hstate, rfl⟩ := hcredible
    exact moves_sendKexReport (hjoin _ hstate rfl) (hstill .awaitingKexSet) hf rfl
  case sendPubKeyB =>
    obtain ⟨hstate, rfl⟩ := hcredible
    exact moves_sendPubKeyB (hjoin _ hstate rfl) (hstill .awaitingPubKeyA) 1 rfl
  case pubKeyARecv =>
    obtain ⟨hstate, rfl⟩ := hcredible
    exact moves_pubKeyARecv (hjoin _ hstate rfl) (hstill .awaitingUserAAccept) hf rfl
  case doEcdhCalcB =>
    obtain ⟨hstate, rfl⟩ := hcredible
    exact moves_doEcdhCalcB (hjoin _ hstate rfl) (hstill .echoKexSetSending) hf rfl
  case sendEchoKexSet =>
    obtain ⟨hstate, rfl⟩ := hcredible
    exact moves_sendEchoKexSet (hjoin _ hstate rfl) (hstill .echoKexSetSending) hf rfl
  case sendNetKeyGet =>
    obtain ⟨hstate, rfl⟩ := hcredible
    have hjoining : s.progress.state.isJoining := by
      rcases hstate with hstate | hstate <;> exact hjoin _ hstate rfl
    exact moves_sendNetKeyGet hjoining (hstill .awaitingNetKeyReport) hf 0 rfl
  case sendNetKeyVerify =>
    obtain ⟨hstate, rfl⟩ := hcredible
    exact moves_sendNetKeyVerify (hjoin _ hstate rfl) (hstill .keyExchanged) hf 1 rfl
  case sendFinalTransferEnd =>
    obtain ⟨hstate, rfl⟩ := hcredible
    have hjoining : s.progress.state.isJoining := by
      rcases hstate with hstate | hstate <;> exact hjoin _ hstate rfl
    exact moves_sendFinalTransferEnd hjoining (hstill .sendingFinalTransferEnd) hf 1 rfl
  case joiningComplete =>
    obtain ⟨hstate, rfl⟩ := hcredible
    exact moves_joined hf (hjoin _ hstate rfl) (.inl ⟨_, _, rfl⟩)
  case joiningNeverStarted =>
    obtain ⟨hstate, rfl⟩ := hcredible
    exact moves_joined hf (hjoin _ hstate rfl) (.inr ⟨_, _, rfl⟩)

end Events

section Calls

variable {env : Env} {fire : List Call → Ctx → Ctx} {s : Ctx}

theorem findTransition_accept {state : State} (hkey : state ≠ .awaitingKeyUserAccept)
    (huser : state ≠ .awaitingUserAccept) (huserA : state ≠ .awaitingUserAAccept)
    (hidle : state ≠ .idle) :
    findTransition state .accept = ⟨none, none, .abort, some .idle⟩ := by
  cases state <;> first | rfl | contradiction

theorem prepared_prepare (frame : Bytes) : (s.prepare frame).prepared = frame :=
  Mem.slice_write_self s.inclusionBuf 0 frame

theorem progress_sendKexSet : (s.sendKexSet env).progress = { s.progress with
        command := kexSet, key := if s.mode = .csa then csaOn else 0,
        log := .sentFrame s.peer (kexSetFrame s.mode s.keyGranted) (env.sendFrame s.nFrame) :: s.log } := by
  let t := s.prepare (kexSetFrame s.mode s.keyGranted)
  have hsent : (s.sendKexSet env).progress = { t.progress with
        log := .sentFrame s.peer t.prepared (env.sendFrame s.nFrame) :: s.log } :=
    progress_inclusionSendFrame (t.withRetries maxRetryCount)
  have ht : t.progress = { s.progress with command := kexSet, key := if s.mode = .csa then csaOn else 0 } := by
    simp [t, progress, prepare, Mem.write, kexSetFrame]
  rw [hsent, prepared_prepare, ht]

theorem moves_accept (hf : Tame fire) {mode : Mode} {granted : UInt8}
    (haccepts : Progress.Accepts { s.progress with mode := mode, keyGranted := granted } s.mode s.keyGranted) :
    Moves { s.progress with mode := mode, keyGranted := granted } (s.processEvent env fire .accept).progress := by
  by_cases hidle : s.state = .idle
  · rw [processEvent_idle hidle (by decide) (by decide)]
    exact .single (.idle _ _ hidle hidle ⟨rfl, rfl, rfl⟩ ⟨rfl, rfl⟩)
  by_cases hkey : s.state = .awaitingKeyUserAccept
  · rw [processEvent_eq, hkey]
    change Moves _ ((s.withState .awaitingPubKeyB).sendKexSet env).progress
    rw [progress_sendKexSet]
    exact .single (.offer _ s.mode s.keyGranted _ _ hkey haccepts)
  by_cases huser : s.state = .awaitingUserAccept
  · rw [processEvent_eq, huser]
    exact .single (.acknowledge _ s.mode s.keyGranted huser haccepts)
  by_cases huserA : s.state = .awaitingUserAAccept
  · rw [processEvent_eq, huserA]
    change Moves _ ((s.withState .echoKexSetSending).doEcdhCalcB env fire).progress
    refine moves_doEcdhCalcB ?_ ?_ hf rfl
    · change s.state.isJoining
      rw [huserA]
      rfl
    · exact ⟨rfl, rfl, rfl⟩
  · rw [processEvent_eq, findTransition_accept hkey huser huserA hidle]
    change Moves _ ((s.withState .idle).inclusionFailedEvtPush env fire _).progress
    refine moves_inclusionFailedEvtPush ?_ hf hidle rfl _
    exact ⟨rfl, rfl, rfl⟩

theorem moves_includingStart (conn : Connection) : Moves s.progress (s.includingStart env fire conn).progress := by
  unfold includingStart
  split_ifs with hidle
  · let t := (((s.note .started).withPeer { conn with txOptions := 0 }).withMode .ssa).withFailCode 0
    have hstart : t.processEvent env fire .includingStart = (t.withState .awaitingKexReport).sendKexGet env := by
      have hstate : t.state = .idle := hidle
      rw [processEvent_eq, hstate]
      rfl
    let t' := (t.withState .awaitingKexReport).prepare [commandClassSecurity2, kexGet]
    have ht' : t'.progress = { s.progress with
        state := .awaitingKexReport, rNode := conn.rNode, mode := .ssa, command := kexGet,
        key := t'.inclusionBuf 2, log := .started :: s.log } :=
      progress_prepare (t.withState .awaitingKexReport) commandClassSecurity2 kexGet []
    have hmove : Moves s.progress t'.progress := by
      rw [ht']
      exact .single (.start s.progress conn.rNode .ssa _ hidle)
    change Moves s.progress (t.processEvent env fire .includingStart).progress
    rw [hstart]
    exact moves_inclusionSendFrame (s := t'.withRetries maxRetryCount) hmove
  · exact .refl

theorem findTransition_joiningStart {state : State} (hidle : state ≠ .idle) :
    findTransition state .joiningStart = ⟨none, none, .abort, some .idle⟩ := by
  cases state <;> first | rfl | contradiction

theorem moves_joiningStart (hf : Tame fire) (conn : Connection) (csa : UInt8) :
    Moves s.progress (s.joiningStartCall env fire conn csa).progress := by
  unfold joiningStartCall
  dsimp only
  by_cases hidle : s.state = .idle
  · have hjoin : ∀ t : Ctx, t.progress = { s.progress with
        rNode := conn.rNode, mode := modeOfCsa csa, log := .joined :: s.log } →
        Moves s.progress (t.processEvent env fire .joiningStart).progress := by
      intro t ht
      have hstate : t.state = .idle := (congrArg Progress.state ht).trans hidle
      have hprogress : (t.processEvent env fire .joiningStart).progress =
          { t.progress with state := .awaitingKexGet } := by
        rw [processEvent_eq, hstate]
        rfl
      rw [hprogress, ht]
      exact .single (.join s.progress conn.rNode (modeOfCsa csa) hidle)
    rw [if_pos hidle]
    split_ifs
    all_goals exact hjoin _ rfl
  · have habort : ∀ t : Ctx, t.state = s.state → s.progress.Still t.progress →
        Moves s.progress (t.processEvent env fire .joiningStart).progress := by
      intro t ht hstill
      rw [processEvent_eq, ht, findTransition_joiningStart hidle]
      change Moves _ ((t.withState .idle).inclusionFailedEvtPush env fire _).progress
      refine moves_inclusionFailedEvtPush ?_ hf hidle rfl _
      exact ⟨hstill.1, hstill.2, hstill.3⟩
    rw [if_neg hidle]
    split_ifs
    all_goals exact habort _ rfl ⟨rfl, rfl, rfl⟩

theorem moves_reject (hf : Tame fire) {entry : Entry} (hfound : entry.found? = some s.state)
    (hentry : entry.isRejection) :
    Moves s.progress ((s.note entry).processEvent env fire .reject).progress := by
  by_cases hkexGet : s.state = .awaitingKexGet
  · have hstate : (s.note entry).state = .awaitingKexGet := hkexGet
    rw [processEvent_eq, hstate]
    exact .single (.cancel s.progress entry hkexGet (hkexGet ▸ hfound) hentry)
  · have hhears : s.progress.Hears entry := by
      cases entry <;> simp_all [Entry.found?, Entry.isRejection, Progress.Hears, progress]
    exact .head (.heard s.progress entry hhears) (moves_event (s := s.note entry) hf hkexGet)

theorem moves_keyGrant (hf : Tame fire) (accept keys csa : UInt8) :
    Moves s.progress (s.keyGrant env fire accept keys csa).progress := by
  unfold keyGrant
  split_ifs with haccept
  · let entry : Entry := .keyGrant s.state accept keys csa
    let t := ((s.note entry).withMode (modeOfCsa csa)).withGranted keys
    have hhears : Move s.progress { s.progress with log := entry :: s.log } :=
      .heard s.progress entry ⟨rfl, fun _ => haccept⟩
    have haccepts : Progress.Accepts { t.progress with mode := s.mode, keyGranted := s.keyGranted }
        t.mode t.keyGranted := .inl ⟨csa, s.log, by rw [← haccept]; rfl⟩
    exact .head hhears (moves_accept hf haccepts)
  · refine moves_reject hf ?_ ?_
    · rfl
    · simpa [Entry.isRejection] using haccept

theorem moves_challengeResponse (hf : Tame fire) (accept : UInt8) (response : Bytes) :
    Moves s.progress (s.challengeResponse env fire accept response).progress := by
  unfold challengeResponse
  split_ifs with haccept
  · let entry : Entry := .challenge s.state accept
    let t := (s.note entry).withPublicKey response
    have hhears : Move s.progress { s.progress with log := entry :: s.log } :=
      .heard s.progress entry ⟨rfl, fun _ => haccept⟩
    have haccepts : Progress.Accepts { t.progress with mode := s.mode, keyGranted := s.keyGranted }
        t.mode t.keyGranted := .inr ⟨⟨s.log, by rw [← haccept]; rfl⟩, rfl, rfl⟩
    exact .head hhears (moves_accept hf haccepts)
  · refine moves_reject hf ?_ ?_
    · rfl
    · simpa [Entry.isRejection] using haccept

theorem moves_sendDone (hf : Tame fire) (status : Bool) : Moves s.progress (s.sendDone env fire status).progress := by
  unfold sendDone
  split_ifs
  · change Moves (s.withRetries maxRetryCount).progress _
    refine moves_event hf ?_
    trivial
  all_goals
    refine moves_event hf ?_
    trivial

theorem moves_notifyTimeout (hf : Tame fire) : Moves s.progress (s.notifyTimeout env fire).progress := by
  unfold notifyTimeout
  split_ifs
  all_goals
    refine moves_event hf ?_
    trivial

theorem moves_decryptionFailure (hf : Tame fire) (src : Connection) :
    Moves s.progress (s.decryptionFailure env fire src).progress := by
  unfold decryptionFailure
  split_ifs
  · refine moves_event hf ?_
    trivial
  · exact .refl

theorem moves_commandsSupportedGet (classes : Bytes) : Moves s.progress (s.commandsSupportedGet classes).progress := by
  have hprogress : (s.commandsSupportedGet classes).progress =
      (s.prepare (commandClassSecurity2 :: security2CommandsSupportedReport :: classes)).progress :=
    rfl
  rw [hprogress]
  exact moves_prepare .refl (by decide) _ _

def FrameSays (s : Ctx) : Event → Prop
  | .echoKexSetRecv => s.buf 1 = kexSet ∧ s.buf 2 &&& echoOn ≠ 0
  | .netKeyGetRecv => s.buf 1 = networkKeyGet
  | .netKeyVerifyRecv => s.buf 1 = networkKeyVerify ∧ s.keyExchange ≠ s.keyGranted
  | .netKeyVerifyFinalRecv => s.buf 1 = networkKeyVerify ∧ s.keyExchange = s.keyGranted
  | .accept | .reject | .includingStart | .joiningStart => False
  | _ => True

theorem frameSays_frameEvent : s.FrameSays s.frameEvent := by
  unfold frameEvent
  dsimp only
  split
  · exact True.intro
  split
  · split <;> exact True.intro
  split
  · next hset =>
    split
    · next hecho => exact ⟨hset, hecho⟩
    · exact True.intro
  split
  · exact True.intro
  split
  · split <;> exact True.intro
  split
  · next hget => exact hget
  split
  · exact True.intro
  split
  · next hverify =>
    split
    · next hfinal => exact ⟨hverify, hfinal⟩
    · next hmore => exact ⟨hverify, hmore⟩
  split
  · split <;> exact True.intro
  · exact True.intro

theorem verifyAccepted {src : Connection} (hclass : s.peer.classId = src.classId) (hverify : s.buf 1 = networkKeyVerify)
    (haccepted : s.encryptionAccepted (frameRule env (s.buf 1 - kexGet).toNat)) :
    verifyClassAccepted s.keyRequested s.keyExchange src.classId := by
  have hrule : frameRule env (networkKeyVerify - kexGet).toNat =
    ⟨2, singleRuleSupport, networkKeySlot, networkKeySlot⟩ := rfl
  rw [hverify, hrule] at haccepted
  simpa [encryptionAccepted, cryptRule, singleRuleSupport, echoSupport, hclass] using haccepted

theorem backed_frameEvent {src : Connection} {frame : Bytes} (hheard : s.progress.Heard src frame)
    (hbuf : s.buf = Mem.ofBytes frame) (hclass : s.peer.classId = src.classId)
    (haccepted : s.encryptionAccepted (frameRule env (s.buf 1 - kexGet).toNat)) :
    s.Backed s.frameEvent := by
  have hcommand : frame.getD 1 0 = s.buf 1 := (congrFun hbuf 1).symm
  have hflags : frame.getD 2 0 = s.buf 2 := (congrFun hbuf 2).symm
  have hmeans := frameSays_frameEvent (s := s)
  generalize s.frameEvent = event at hmeans ⊢
  cases event
  case echoKexSetRecv =>
    obtain ⟨hset, hecho⟩ := hmeans
    refine ⟨src, frame, hheard, hbuf, ?_, hcommand.trans hset, by rwa [hflags]⟩
    have hrule : frameRule env (kexSet - kexGet).toNat = ⟨6, echoSupport, nonSecure, tempKeySlot⟩ :=
      rfl
    rw [hset, hrule] at haccepted
    simpa [encryptionAccepted, cryptRule, hecho, echoSupport, dualRuleSupport, tempKeySlot,
      networkKeySlot, hclass, eq_comm] using haccepted
  case netKeyGetRecv =>
    refine ⟨src, frame, hheard, hbuf, ?_, hcommand.trans hmeans⟩
    have hrule : frameRule env (networkKeyGet - kexGet).toNat = ⟨3, singleRuleSupport, tempKeySlot, tempKeySlot⟩ := rfl
    rw [hmeans, hrule] at haccepted
    simpa [encryptionAccepted, cryptRule, singleRuleSupport, echoSupport, dualRuleSupport,
      tempKeySlot, networkKeySlot, hclass, eq_comm] using haccepted
  case netKeyVerifyRecv =>
    obtain ⟨hverify, hmore⟩ := hmeans
    refine ⟨hmore, src, frame, hheard, ?_, hcommand.trans hverify⟩
    exact verifyAccepted hclass hverify haccepted
  case netKeyVerifyFinalRecv =>
    obtain ⟨hverify, hfinal⟩ := hmeans
    refine ⟨hfinal, src, frame, hheard, ?_, hcommand.trans hverify⟩
    exact verifyAccepted hclass hverify haccepted
  case accept => exact hmeans
  case reject => exact hmeans.elim
  case includingStart => exact hmeans
  case joiningStart => exact hmeans
  all_goals exact True.intro

theorem moves_postEventInternal (hf : Tame fire) {src : Connection} {frame : Bytes}
    (hheard : s.progress.Heard src frame) (hbuf : s.buf = Mem.ofBytes frame)
    (hclass : s.peer.classId = src.classId) :
    Moves s.progress (s.postEventInternal env fire).progress := by
  unfold postEventInternal
  dsimp only
  split_ifs with hskip hlength haccepted
  · exact .refl
  · refine moves_event hf ?_
    trivial
  · exact moves_event hf (backed_frameEvent hheard hbuf hclass haccepted)
  · have hidle : s.state ≠ .idle := fun h => hskip (.inr h)
    exact moves_errorWasSent 2 hidle hidle ⟨rfl, rfl, rfl⟩ _

theorem moves_postPeerEvent (hf : Tame fire) {src : Connection} {frame : Bytes} (hbuf : s.buf = Mem.ofBytes frame) :
    Moves s.progress (s.postPeerEvent env fire src frame).progress := by
  unfold postPeerEvent
  split_ifs with hpeer
  · let entry : Entry := .received s.state s.keyRequested s.keyExchange src frame
    let t := (s.note entry).withPeer { s.peer with classId := src.classId }
    have hhears : s.progress.Hears entry := ⟨rfl, rfl, rfl, hpeer.symm⟩
    have hheard : t.progress.Heard src frame := ⟨s.log, rfl⟩
    have hposted : Moves t.progress (t.postEventInternal env fire).progress :=
      moves_postEventInternal hf hheard hbuf rfl
    exact .head (.heard s.progress entry hhears) hposted
  · exact .refl

theorem moves_postEvent (hf : Tame fire) (src : Connection) (frame : Bytes) :
    Moves s.progress (s.postEvent env fire src frame).progress := by
  let t : Ctx := { s with buf := Mem.ofBytes frame, length := frame.length }
  unfold postEvent
  dsimp only
  split_ifs with hmulticast hkexGet
  · exact .refl
  · have hjoining : s.state.isJoining := by
      change s.state = _ at hkexGet
      rw [hkexGet]
      rfl
    have hpeer : Move s.progress (t.withPeer src).progress :=
      .joining _ _ hjoining hjoining (fun _ => ⟨hkexGet, rfl, rfl⟩) ⟨rfl, rfl, rfl⟩
    have hposted : Moves (t.withPeer src).progress
        ((t.withPeer src).postPeerEvent env fire src frame).progress := moves_postPeerEvent hf rfl
    exact .head hpeer hposted
  · exact moves_postPeerEvent (s := t) hf rfl

theorem moves_call (hf : Tame fire) (c : Call) : Moves s.progress (s.call env fire c).progress := by
  cases c with
  | init schemes curves keys =>
    simp only [call, init]
    split_ifs <;> exact .refl
  | includingStart conn => exact moves_includingStart conn
  | joiningStart conn csa => exact moves_joiningStart hf conn csa
  | keyGrant accept keys csa => exact moves_keyGrant hf accept keys csa
  | challengeResponse accept response => exact moves_challengeResponse hf accept response
  | neighborDiscoveryComplete =>
    refine moves_event hf ?_
    trivial
  | abort =>
    refine moves_reject hf ?_ ?_
    · rfl
    · rfl
  | postEvent src frame => exact moves_postEvent hf src frame
  | notifyTimeout => exact moves_notifyTimeout hf
  | sendDone status => exact moves_sendDone hf status
  | decryptionFailure src => exact moves_decryptionFailure hf src
  | restoreKeys => exact .single (.restored s.progress)
  | commandsSupportedGet classes => exact moves_commandsSupportedGet classes

theorem state_sendDone (hf : Tame fire) (hretry : s.retryCounter = maxRetryCount)
    (hresends : ResendsData s.state) : (s.sendDone env fire false).state = s.state := by
  have hne : s.state ≠ .echoKexSetSending := by
    intro h
    rw [h] at hresends
    exact absurd hresends.1 (by decide)
  have hdone : s.sendDone env fire false = s.processEvent env fire .retry := by
    unfold sendDone
    rw [hretry, if_neg (by decide), if_pos ⟨by decide, hne⟩]
    rfl
  rw [hdone, processEvent_eq, hresends.1, hresends.2]
  exact state_inclusionSendData hf hretry hresends

end Calls

section Knot

variable (env : Env)

theorem moves_foldl {f : Ctx → Call → Ctx} (hf : ∀ s c, Moves s.progress (f s c).progress)
    (calls : List Call) (s : Ctx) : Moves s.progress (calls.foldl f s).progress := by
  induction calls generalizing s with
  | nil => exact .refl
  | cons c calls ih => exact (hf s c).trans (ih (f s c))

theorem tame_fire (depth : Nat) : Tame (fire env depth) := by
  let R : List Call → Ctx → Ctx → Prop := fun calls s t =>
    Moves s.progress t.progress ∧ (calls = [.sendDone false] → s.retryCounter = maxRetryCount →
      ResendsData s.state → t.state = s.state)
  have hR : ∀ calls s, R calls s (fire env depth calls s) := by
    refine Machine.reenterWith_rule (fun _ _ => ⟨.refl, fun _ _ _ => rfl⟩) ?_ depth
    intro callback hcallback calls s
    have hf : Tame callback :=
      ⟨fun calls s => (hcallback calls s).1, fun s => (hcallback [.sendDone false] s).2 rfl⟩
    refine ⟨moves_foldl (fun _ c => moves_call hf c) calls s, ?_⟩
    rintro rfl hretry hresends
    exact state_sendDone hf hretry hresends
  exact ⟨fun calls s => (hR calls s).1, fun s => (hR [.sendDone false] s).2 rfl⟩

theorem moves_run (depth : Nat) (s : Ctx) (calls : List Call) : Moves s.progress (run env depth s calls).progress :=
  moves_foldl (fun _ c => moves_call (tame_fire env depth) c) calls s

end Knot

end Ctx

end ZipGateway.Inclusion

import ZipGateway.S2.Account
import ZipGateway.S2.Spans

/-!
# What the accounts are made of

The ledger of a context is what the accounts of its sends depend on: the state of the send machine,
the frames that are under way, and the acceptances, completions and overlaps in the log. Everything below the
events of the send machine leaves it alone, table lookups, ciphers and parsers alike; the one
exception is an encapsulation that reveals a lost group, which makes the idle machine wait.
-/

namespace ZipGateway.S2

def Out.done : Out → Option Done
  | .sendDoneEvent send status origin => some ⟨send, status, origin⟩
  | _ => none

def Out.encrypted : Out → Option SpanState
  | .encryptAndSend span => some span
  | _ => none

def Out.isEntry : Out → Bool
  | .accepted .. | .sendDoneEvent .. | .inclusionSendFrame .. | .encryptAndSend .. => true
  | _ => false

def Out.isOverlap : Out → Bool
  | .accepted outstanding => outstanding != []
  | .inclusionSendFrame fsm .. => fsm.pending
  | _ => false

def ledger (s : S2) : Ledger where
  fsm := s.fsm
  inFlight := s.inFlight
  nAccepted := s.nAccepted
  done := s.out.filterMap Out.done
  overlap := s.out.any Out.isOverlap
  encrypted := s.out.filterMap Out.encrypted

theorem fsm_ledger (s : S2) : s.ledger.fsm = s.fsm := rfl

theorem fsm_of_ledger {s t : S2} (h : t.ledger = s.ledger) : t.fsm = s.fsm :=
  congrArg Ledger.fsm h

/-! ## Small updates -/

theorem ledger_log {s : S2} {o : Out} (ho : Out.isEntry o = false) : (s.log o).ledger = s.ledger := by
  have hdone : Out.done o = none := by
    cases o <;> simp_all [Out.isEntry, Out.done]
  have haccepted : Out.isAccepted o = false := by
    cases o <;> simp_all [Out.isEntry, Out.isAccepted]
  have hoverlap : Out.isOverlap o = false := by
    cases o <;> simp_all [Out.isEntry, Out.isOverlap]
  have hencrypted : Out.encrypted o = none := by
    cases o <;> simp_all [Out.isEntry, Out.encrypted]
  simp [ledger, log, nAccepted, List.filterMap_cons_none hdone, haccepted, hoverlap,
    List.filterMap_cons_none hencrypted]

@[simp]
theorem ledger_setSpan (s : S2) (i : SpanRef) (span : Span) : (s.setSpan i span).ledger = s.ledger := rfl

@[simp]
theorem ledger_setMpan (s : S2) (i : MpanRef) (mpan : Mpan) : (s.setMpan i mpan).ledger = s.ledger := rfl

@[simp]
theorem ledger_ctrDrbgGenerate (env : Env) (s : S2) : (s.ctrDrbgGenerate env).2.ledger = s.ledger := rfl

@[simp]
theorem ledger_setPeer (s : S2) (con : Connection) (buf : Bytes) : (s.setPeer con buf).ledger = s.ledger := rfl

@[simp]
theorem ledger_dropPayload (s : S2) (flags : UInt8) : (s.dropPayload flags).ledger = s.ledger := by
  unfold dropPayload
  split <;> rfl

/-! ## The tables -/

section Tables

variable (env : Env) (s : S2)

@[simp]
theorem ledger_findSpanByNode (con : Connection) : (s.findSpanByNode env con).2.ledger = s.ledger := by
  unfold findSpanByNode
  split <;> simp

@[simp]
theorem ledger_findMpanByGroupId (ownerId : NodeId) (groupId : UInt8) (createNew : Bool) :
    (s.findMpanByGroupId env ownerId groupId createNew).2.ledger = s.ledger := by
  unfold findMpanByGroupId
  split
  · rfl
  · split <;> simp

@[simp]
theorem ledger_spanOk (con : Connection) : (s.spanOk env con).2.ledger = s.ledger := by
  simp [spanOk]

@[simp]
theorem ledger_verifySeq (con : Connection) (seq : UInt8) : (s.verifySeq env con seq).2.ledger = s.ledger := by
  simp only [verifySeq]
  split <;> simp

@[simp]
theorem ledger_setNodeMos (node : NodeId) : (s.setNodeMos node).ledger = s.ledger := by
  unfold setNodeMos
  repeat' split
  all_goals rfl

@[simp]
theorem ledger_freeMpan (ownerId : NodeId) (groupId : UInt8) : (s.freeMpan ownerId groupId).ledger = s.ledger := by
  unfold freeMpan
  split <;> rfl

@[simp]
theorem ledger_sendNonceReport (con : Connection) (flags : UInt8) :
    (s.sendNonceReport env con flags).ledger = s.ledger := by
  simp only [sendNonceReport]
  split <;> rw [ledger_log rfl] <;> simp

@[simp]
theorem ledger_storeNonce (i : SpanRef) (buf : Mem) (len : Nat) : (s.storeNonce i buf len).ledger = s.ledger := by
  unfold storeNonce
  split <;> rfl

@[simp]
theorem ledger_storeMos (buf : Mem) (len : Nat) : (s.storeMos buf len).ledger = s.ledger := by
  unfold storeMos
  split <;> simp

@[simp]
theorem ledger_registerNonce (buf : Mem) (len : Nat) : (s.registerNonce env buf len).2.ledger = s.ledger := by
  simp only [registerNonce]
  split <;> simp

/-! The retry counter is only touched by the send machine. -/

theorem retry_findSpanByNode (con : Connection) : (s.findSpanByNode env con).2.retry = s.retry := by
  unfold findSpanByNode
  split <;> rfl

theorem retry_verifySeq (con : Connection) (seq : UInt8) : (s.verifySeq env con seq).2.retry = s.retry := by
  simp only [verifySeq]
  split <;> exact retry_findSpanByNode env s con

theorem retry_setNodeMos (node : NodeId) : (s.setNodeMos node).retry = s.retry := by
  unfold setNodeMos
  repeat' split
  all_goals rfl

theorem retry_storeNonce (i : SpanRef) (buf : Mem) (len : Nat) : (s.storeNonce i buf len).retry = s.retry := by
  unfold storeNonce
  split <;> rfl

theorem retry_storeMos (buf : Mem) (len : Nat) : (s.storeMos buf len).retry = s.retry := by
  unfold storeMos
  split
  · exact retry_setNodeMos s _
  · rfl

theorem retry_registerNonce (buf : Mem) (len : Nat) : (s.registerNonce env buf len).2.retry = s.retry := by
  simp only [registerNonce]
  split
  · rw [retry_storeMos, retry_storeNonce, retry_findSpanByNode, retry_verifySeq]
  · exact retry_verifySeq env s s.peer (buf 2)

theorem retry_dropPayload (flags : UInt8) : (s.dropPayload flags).retry = s.retry := by
  unfold dropPayload
  split <;> rfl

end Tables

/-! ## Frames out -/

section Encrypt

variable (env : Env) (s : S2)

@[simp]
theorem ledger_addSn (i : SpanRef) (h : Header) : (s.addSn env i h).1.ledger = s.ledger := by
  simp only [addSn]
  split
  · rw [ledger_log rfl]
    simp
  · rfl

@[simp]
theorem ledger_addMgrp (h : Header) : (s.addMgrp h).1.ledger = s.ledger := by
  unfold addMgrp
  split
  · dsimp only
    repeat' split
    all_goals rfl
  · rfl

@[simp]
theorem ledger_addMos (h : Header) : (s.addMos h).1.ledger = s.ledger := by
  unfold addMos
  repeat' split
  · exact (ledger_log rfl).trans rfl
  · rfl
  · rfl

theorem ledger_addMpanExtension (draft : MpanDraft) (i : Fin mosListLength) :
    (addMpanExtension env draft i).s.ledger = draft.s.ledger := by
  simp only [addMpanExtension]
  split
  · split
    · exact (ledger_log rfl).trans rfl
    · rfl
  · rfl

theorem ledger_foldl_addMpanExtension (entries : List (Fin mosListLength)) (draft : MpanDraft) :
    (entries.foldl (addMpanExtension env) draft).s.ledger = draft.s.ledger := by
  induction entries generalizing draft with
  | nil => rfl
  | cons i entries ih => rw [List.foldl_cons, ih, ledger_addMpanExtension]

@[simp]
theorem ledger_addMpanExtensions (msg : Mem) (ext : Nat) : (s.addMpanExtensions env msg ext).1.ledger = s.ledger := by
  simp [addMpanExtensions, ledger_foldl_addMpanExtension]

theorem ledger_encrypt : (s.encrypt env).2.ledger =
    { s.ledger with encrypted := slotState s.spanTable s.peer :: s.ledger.encrypted } := by
  have hworkbuf : ∀ (t : S2) (m : Mem), { t with workbuf := m }.ledger = t.ledger :=
    fun _ _ => rfl
  simp only [encrypt, encryptHeader, drawNonce, hworkbuf, ledger_setSpan,
    ledger_addMpanExtensions, ledger_addMos, ledger_addMgrp, ledger_addSn]
  rw [state_findSpanByNode, ← ledger_findSpanByNode env s s.peer]
  rfl

theorem fsm_encrypt : (s.encrypt env).2.fsm = s.fsm := by
  rw [← fsm_ledger, ledger_encrypt]
  rfl

@[simp]
theorem ledger_encryptMulti (m : MpanRef) : (s.encryptMulti env m).2.ledger = s.ledger := rfl

end Encrypt

/-! ## Frames in -/

section Decrypt

variable (env : Env)

theorem ledger_clearExtension {s : S2} {locals : Locals} {con : Connection} {span : Option SpanRef}
    {msg : Mem} {ext : Nat} {r : S2 × Locals}
    (hr : s.clearExtension env locals con span msg ext = some r) : r.1.ledger = s.ledger := by
  simp only [clearExtension] at hr
  split_ifs at hr
  · cases span with
    | none =>
      cases hr
      rfl
    | some i =>
      dsimp only at hr
      split_ifs at hr
      all_goals
        cases hr
      · rw [ledger_log rfl, ledger_setSpan]
      · rfl
  all_goals
    cases hr
  · rw [ledger_log rfl, ledger_findMpanByGroupId]
  · rw [ledger_log rfl, ledger_setNodeMos]
  · rfl

@[simp]
theorem ledger_parseClear (con : Connection) (span : Option SpanRef) (msg : Mem) (len fuel : Nat)
    (s : S2) (locals : Locals) :
    (parseClear env con span msg len fuel s locals).2.1.ledger = s.ledger := by
  induction fuel generalizing s locals with
  | zero => rfl
  | succ fuel ih =>
    simp only [parseClear]
    split
    · rfl
    · split
      · rfl
      · rename_i r hr
        have hledger := ledger_clearExtension env hr
        split
        · rw [ih, hledger]
        · exact hledger

theorem ledger_encryptedExtension {s : S2} {con : Connection} {span : Option SpanRef} {msg : Mem}
    {ext : Nat} {r : S2 × Connection}
    (hr : s.encryptedExtension env con span msg ext = some r) : r.1.ledger = s.ledger := by
  unfold encryptedExtension at hr
  split at hr
  · cases span with
    | none => cases hr
    | some i =>
      dsimp only at hr
      split at hr
      · split at hr
        · cases hr
          rw [ledger_log rfl, ledger_setMpan, ledger_findMpanByGroupId]
        · cases hr
      · cases hr
  · split at hr
    · cases hr
    · cases hr
      rfl

@[simp]
theorem ledger_parseEncrypted (span : Option SpanRef) (msg : Mem) (base decryptLen fuel : Nat)
    (s : S2) (con : Connection) (hdrLen : Nat) :
    (parseEncrypted env span msg base decryptLen fuel s con hdrLen).2.1.ledger = s.ledger := by
  induction fuel generalizing s con hdrLen with
  | zero => rfl
  | succ fuel ih =>
    simp only [parseEncrypted]
    split
    · rfl
    · split
      · rfl
      · rename_i r hr
        have hledger := ledger_encryptedExtension env hr
        split
        · rw [ih, hledger]
        · exact hledger

@[simp]
theorem ledger_authFail (s : S2) (con : Connection) (span : Option SpanRef)
    (mpan : Option MpanRef) : (s.authFail env con span mpan).s.ledger = s.ledger := by
  simp only [authFail, Decrypted.failed]
  cases mpan <;> cases span <;> dsimp only <;> split <;> simp

/-- What opening an encapsulation may do to the ledger: the idle machine may have begun to wait for a
frame with which to report a lost group. -/
def SameLedger (s t : S2) : Prop :=
  t.ledger = s.ledger ∨ s.fsm.free ∧ t.ledger = { s.ledger with fsm := .isMosWaitReply }

theorem SameLedger.of_ledger {s t : S2} (h : t.ledger = s.ledger) : SameLedger s t :=
  .inl h

theorem SameLedger.of_left {s s' t : S2} (h : SameLedger s' t) (hs : s.ledger = s'.ledger) : SameLedger s t := by
  have hfsm : s.fsm = s'.fsm := fsm_of_ledger hs
  unfold SameLedger at h ⊢
  rwa [hs, hfsm]

theorem SameLedger.of_right {s t t' : S2} (h : SameLedger s t) (ht : t'.ledger = t.ledger) : SameLedger s t' := by
  unfold SameLedger at h ⊢
  rwa [ht]

theorem sameLedger_gotEncMsgMos (s : S2) (con : Connection) : SameLedger s (s.gotEncMsgMos con) := by
  unfold gotEncMsgMos
  split
  all_goals
    first
    | exact .of_ledger rfl
    | exact .inr ⟨by simp [*, FsmState.free], rfl⟩

theorem sameLedger_acceptSinglecast (s : S2) (con : Connection) (i : SpanRef)
    (mpan : Option MpanRef) : SameLedger s (s.acceptSinglecast con i mpan).2 := by
  unfold acceptSinglecast
  cases mpan with
  | none => exact .of_ledger rfl
  | some m =>
    dsimp only
    split
    · exact (sameLedger_gotEncMsgMos _ _).of_left rfl
    · exact .of_ledger rfl

theorem SameLedger.of_attemptClass {s t : S2} (i : SpanRef) (aad text : Bytes)
    (h : SameLedger (s.attemptClass env i aad text).2.2 t) : SameLedger s t := by
  simp only [attemptClass] at h
  split at h
  · exact h.of_left (ledger_log rfl).symm
  · exact h

theorem sameLedger_tryClasses (locals : Locals) (con : Connection) (i : SpanRef) (aad : Bytes)
    (n : Nat) (s : S2) (text : Bytes) :
    SameLedger s (tryClasses env locals con i aad n s text).2.2.2 := by
  induction n generalizing s text with
  | zero => exact .of_ledger rfl
  | succ n ih =>
    simp only [tryClasses]
    apply SameLedger.of_attemptClass env i aad text
    split
    · exact sameLedger_acceptSinglecast _ _ _ _
    · split
      · exact .of_ledger rfl
      · exact (ih _ _).of_left rfl

theorem sameLedger_decryptSinglecast (s : S2) (locals : Locals) (con : Connection) (i : SpanRef) (aad text : Bytes) :
    SameLedger s (s.decryptSinglecast env locals con i aad text).2.2.2 := by
  simp only [decryptSinglecast]
  split
  · exact (sameLedger_tryClasses env locals con i aad nSecClass _ text).of_left rfl
  · exact sameLedger_tryClasses env locals con i aad nSecClass s text

@[simp]
theorem ledger_finishDecrypt (span : Option SpanRef) (mpan : Option MpanRef) (msg : Mem)
    (hdrLen : Nat) (aad : Bytes) (decryptLen : Nat) (text : Bytes) (con : Connection) (s : S2) :
    (finishDecrypt env span mpan msg hdrLen aad decryptLen text con s).s.ledger = s.ledger := by
  simp only [finishDecrypt]
  split
  · exact ledger_authFail env s con span mpan
  · split
    · split <;> exact ledger_parseEncrypted env span _ hdrLen decryptLen decryptLen s con 0
    · rfl

@[simp]
theorem ledger_parseHeader (s : S2) (con : Connection) (span : Option SpanRef) (msg : Mem)
    (len : Nat) : (s.parseHeader env con span msg len).2.1.ledger = s.ledger := by
  simp only [parseHeader]
  split
  · exact ledger_parseClear env con span msg len len _ _
  · rfl

theorem sameLedger_decryptBody (s : S2) (con : Connection) (span : Option SpanRef) (msg : Mem)
    (len : Nat) : SameLedger s (s.decryptBody env con span msg len).s := by
  have hledger := ledger_parseHeader env s con span msg len
  simp only [decryptBody]
  split
  · cases span with
    | some i =>
      simp only [decryptSpan]
      split
      · refine SameLedger.of_right ?_ (ledger_finishDecrypt ..)
        exact (sameLedger_decryptSinglecast ..).of_left hledger.symm
      · exact .of_ledger ((ledger_authFail ..).trans hledger)
    | none =>
      simp only [decryptGroup]
      split
      · split
        · refine SameLedger.of_right ?_ (ledger_finishDecrypt ..)
          refine SameLedger.of_left ?_ hledger.symm
          exact .of_ledger (ledger_log rfl)
        · exact .of_ledger ((ledger_authFail ..).trans hledger)
      · exact .of_ledger ((ledger_authFail ..).trans hledger)
  · exact .of_ledger hledger

theorem sameLedger_decryptMsg (s : S2) (con : Connection) (msg : Mem) (len : Nat) :
    SameLedger s (s.decryptMsg env con msg len).s := by
  simp only [decryptMsg]
  split
  · exact .of_ledger rfl
  · split
    · exact sameLedger_decryptBody env s con none msg len
    · split
      · exact (sameLedger_decryptBody ..).of_left (by simp)
      · exact .of_ledger (by simp [Decrypted.failed])

end Decrypt

end ZipGateway.S2

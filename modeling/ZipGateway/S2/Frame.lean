import ZipGateway.S2.Decrypt

/-!
# Views

A view is a part of the context, or a value computed from it, that does not depend on the tables, the
buffers the frames are built in, and the log entries about them. Looking up an entry, building a header and
parsing one then leave it as it is. Opening an encapsulation does so too when the view does not see the
attempts to decrypt and the machine beginning to wait for a frame.
-/

namespace ZipGateway.S2

def Out.isQuiet : Out → Bool
  | .sendFrameNoCb .. | .attach .. | .recognise .. => true
  | _ => false

variable {β : Type*} {v : S2 → β}

structure FrameView (v : S2 → β) : Prop where
  update : ∀ (s : S2) spanTable mpanTable mosList mpan workbuf nRandom nDecrypt, v { s with
      spanTable := spanTable, mpanTable := mpanTable, mosList := mosList, mpan := mpan
      workbuf := workbuf, nRandom := nRandom, nDecrypt := nDecrypt } = v s
  log : ∀ (s : S2) (o : Out), Out.isQuiet o → v (s.log o) = v s

structure DecryptFrameView (v : S2 → β) : Prop extends FrameView v where
  attempt : ∀ (s : S2) multicast key nonce aad text n, v (s.log (.ccmDecrypt multicast key nonce aad text n)) = v s
  rest : ∀ (s : S2) con, v (s.gotEncMsgMos con) = v s

namespace FrameView

section Tables

variable (h : FrameView v) (env : Env) (s : S2)
include h

theorem setSpan (i : SpanRef) (span : Span) : v (s.setSpan i span) = v s :=
  h.update s _ s.mpanTable s.mosList s.mpan s.workbuf s.nRandom s.nDecrypt

theorem setMpan (m : MpanRef) (mpan : Mpan) : v (s.setMpan m mpan) = v s :=
  h.update s s.spanTable _ s.mosList s.mpan s.workbuf s.nRandom s.nDecrypt

theorem pointMpan (mpan : Option MpanRef) : v { s with mpan := mpan } = v s :=
  h.update s s.spanTable s.mpanTable s.mosList mpan s.workbuf s.nRandom s.nDecrypt

theorem setMosList (mosList : Fin mosListLength → MosEntry) : v { s with mosList := mosList } = v s :=
  h.update s s.spanTable s.mpanTable mosList s.mpan s.workbuf s.nRandom s.nDecrypt

theorem setWorkbuf (workbuf : Mem) : v { s with workbuf := workbuf } = v s :=
  h.update s s.spanTable s.mpanTable s.mosList s.mpan workbuf s.nRandom s.nDecrypt

theorem ctrDrbgGenerate : v (s.ctrDrbgGenerate env).2 = v s :=
  h.update s s.spanTable s.mpanTable s.mosList s.mpan s.workbuf _ s.nDecrypt

theorem findSpanByNode (con : Connection) : v (s.findSpanByNode env con).2 = v s := by
  unfold S2.findSpanByNode
  split
  · rfl
  · rw [h.setSpan, h.ctrDrbgGenerate]

theorem findMpanByGroupId (ownerId : NodeId) (groupId : UInt8) (createNew : Bool) :
    v (s.findMpanByGroupId env ownerId groupId createNew).2 = v s := by
  unfold S2.findMpanByGroupId
  split
  · rfl
  · split
    · rw [h.setMpan, h.ctrDrbgGenerate, h.ctrDrbgGenerate]
    · rfl

theorem spanOk (con : Connection) : v (s.spanOk env con).2 = v s :=
  h.findSpanByNode env s con

theorem verifySeq (con : Connection) (seq : UInt8) : v (s.verifySeq env con seq).2 = v s := by
  simp only [S2.verifySeq]
  split
  · rw [h.setSpan, h.findSpanByNode]
  · rw [h.findSpanByNode]

theorem setNodeMos (node : NodeId) : v (s.setNodeMos node) = v s := by
  unfold S2.setNodeMos
  split
  · split
    · split
      · exact h.setMosList s _
      · rfl
    · rfl
  · rfl

theorem freeMpan (ownerId : NodeId) (groupId : UInt8) : v (s.freeMpan ownerId groupId) = v s := by
  unfold S2.freeMpan
  split
  · exact h.setMpan s _ _
  · rfl

theorem sendNonceReport (con : Connection) (flags : UInt8) : v (s.sendNonceReport env con flags) = v s := by
  simp only [S2.sendNonceReport]
  split
  · rw [h.log _ _ rfl, h.setSpan, h.ctrDrbgGenerate, h.findSpanByNode]
  · rw [h.log _ _ rfl, h.setSpan, h.findSpanByNode]

theorem storeNonce (i : SpanRef) (buf : Mem) (len : Nat) : v (s.storeNonce i buf len) = v s := by
  unfold S2.storeNonce
  split
  · exact h.setSpan s _ _
  · rfl

theorem storeMos (buf : Mem) (len : Nat) : v (s.storeMos buf len) = v s := by
  unfold S2.storeMos
  split
  · exact h.setNodeMos s _
  · rfl

theorem registerNonce (buf : Mem) (len : Nat) : v (s.registerNonce env buf len).2 = v s := by
  simp only [S2.registerNonce]
  split
  · rw [h.storeMos, h.storeNonce, h.findSpanByNode, h.verifySeq]
  · rw [h.verifySeq]

end Tables

section Encrypt

variable (h : FrameView v) (env : Env) (s : S2)
include h

theorem addSn (i : SpanRef) (header : Header) : v (s.addSn env i header).1 = v s := by
  simp only [S2.addSn]
  split
  · rw [h.log _ _ rfl, h.setSpan, h.ctrDrbgGenerate]
  · rfl

theorem addMgrp (header : Header) : v (s.addMgrp header).1 = v s := by
  have hlog := fun groupId => h.log s (.attach (.mgrp groupId)) rfl
  unfold S2.addMgrp
  split
  · dsimp only
    split_ifs
    · exact h.setMpan s _ _
    · rw [h.setMpan, hlog]
    · rfl
    · exact hlog _
    · rfl
  · rfl

theorem addMos (header : Header) : v (s.addMos header).1 = v s := by
  unfold S2.addMos
  split
  · dsimp only
    split_ifs
    · rw [h.log _ _ rfl, h.pointMpan, h.setMpan]
    · rfl
  · rfl

theorem encryptHeader (i : SpanRef) : v (s.encryptHeader env i).1 = v s := by
  simp only [S2.encryptHeader]
  rw [h.addMos, h.addMgrp, h.addSn]

theorem addMpanExtension (draft : MpanDraft) (i : Fin mosListLength) :
    v (S2.addMpanExtension env draft i).s = v draft.s := by
  simp only [S2.addMpanExtension]
  split
  · split
    · rw [h.log _ _ rfl]
      exact h.setMosList draft.s _
    · rfl
  · rfl

theorem addMpanExtensions (msg : Mem) (ext : Nat) : v (s.addMpanExtensions env msg ext).1 = v s := by
  have hloop : ∀ (entries : List (Fin mosListLength)) (draft : MpanDraft),
      v (entries.foldl (S2.addMpanExtension env) draft).s = v draft.s := by
    intro entries
    induction entries with
    | nil => exact fun draft => rfl
    | cons i entries ih =>
      intro draft
      rw [List.foldl_cons, ih, h.addMpanExtension env]
  exact hloop _ _

theorem drawNonce (i : SpanRef) : v (s.drawNonce env i).2 = v s :=
  h.setSpan s _ _

theorem encrypt : v (s.encrypt env).2 = v ((s.findSpanByNode env s.peer).2.log
    (.encryptAndSend ((s.findSpanByNode env s.peer).2.spanTable (s.findSpanByNode env s.peer).1).state)) := by
  simp only [S2.encrypt]
  rw [h.setWorkbuf, h.drawNonce, h.addMpanExtensions, h.encryptHeader]

theorem encryptMulti (m : MpanRef) : v (s.encryptMulti env m).2 = v s := by
  simp only [S2.encryptMulti]
  rw [h.setWorkbuf, h.setMpan]

end Encrypt

section Decrypt

variable (h : FrameView v) (env : Env)
include h

theorem clearExtension {s : S2} {locals : Locals} {con : Connection} {span : Option SpanRef} {msg : Mem}
    {ext : Nat} {r : S2 × Locals} (hr : s.clearExtension env locals con span msg ext = some r) :
    v r.1 = v s := by
  simp only [S2.clearExtension] at hr
  split_ifs at hr
  · cases span with
    | none =>
      cases hr
      rfl
    | some i =>
      dsimp only at hr
      split_ifs at hr
      all_goals
        cases hr
      · rw [h.log _ _ rfl, h.setSpan]
      · rfl
  all_goals
    cases hr
  · rw [h.log _ _ rfl, h.findMpanByGroupId]
  · rw [h.log _ _ rfl, h.setNodeMos]
  · rfl

theorem parseClear (con : Connection) (span : Option SpanRef) (msg : Mem) (len fuel : Nat) (s : S2)
    (locals : Locals) : v (S2.parseClear env con span msg len fuel s locals).2.1 = v s := by
  induction fuel generalizing s locals with
  | zero => rfl
  | succ fuel ih =>
    simp only [S2.parseClear]
    split
    · rfl
    · split
      · rfl
      next r hr =>
        have hext := h.clearExtension env hr
        split
        · rw [ih, hext]
        · exact hext

theorem parseHeader (s : S2) (con : Connection) (span : Option SpanRef) (msg : Mem) (len : Nat) :
    v (s.parseHeader env con span msg len).2.1 = v s := by
  have hcount : v { s with nDecrypt := s.nDecrypt + 1 } = v s :=
    h.update s s.spanTable s.mpanTable s.mosList s.mpan s.workbuf s.nRandom _
  simp only [S2.parseHeader]
  split
  · rw [h.parseClear, hcount]
  · exact hcount

theorem encryptedExtension {s : S2} {con : Connection} {span : Option SpanRef} {msg : Mem} {ext : Nat}
    {r : S2 × Connection} (hr : s.encryptedExtension env con span msg ext = some r) : v r.1 = v s := by
  unfold S2.encryptedExtension at hr
  split at hr
  · cases span with
    | none => cases hr
    | some i =>
      dsimp only at hr
      split at hr
      · split at hr
        · cases hr
          rw [h.log _ _ rfl, h.setMpan, h.findMpanByGroupId]
        · cases hr
      · cases hr
  · split at hr
    · cases hr
    · cases hr
      rfl

theorem parseEncrypted (span : Option SpanRef) (msg : Mem) (base decryptLen fuel : Nat) (s : S2)
    (con : Connection) (hdrLen : Nat) :
    v (S2.parseEncrypted env span msg base decryptLen fuel s con hdrLen).2.1 = v s := by
  induction fuel generalizing s con hdrLen with
  | zero => rfl
  | succ fuel ih =>
    simp only [S2.parseEncrypted]
    split
    · rfl
    · split
      · rfl
      next r hr =>
        have hext := h.encryptedExtension env hr
        split
        · rw [ih, hext]
        · exact hext

theorem authFail (s : S2) (con : Connection) (span : Option SpanRef) (mpan : Option MpanRef) :
    v (s.authFail env con span mpan).s = v s := by
  have hreport : ∀ (t : S2) (flags : UInt8), v t = v s →
      v (if Connection.isMulticast con then t else t.sendNonceReport env con flags) = v s := by
    intro t flags ht
    split
    · exact ht
    · exact (h.sendNonceReport env t con flags).trans ht
  cases mpan with
  | none =>
    cases span with
    | none => exact hreport s _ rfl
    | some i => exact hreport _ _ (h.setSpan s _ _)
  | some m =>
    have hmpan := h.setMpan s m { s.mpanTable m with state := .mos }
    cases span with
    | none => exact hreport _ _ hmpan
    | some i => exact hreport _ _ ((h.setSpan _ _ _).trans hmpan)

theorem finishDecrypt (span : Option SpanRef) (mpan : Option MpanRef) (msg : Mem) (hdrLen : Nat) (aad : Bytes)
    (decryptLen : Nat) (text : Bytes) (con : Connection) (s : S2) :
    v (S2.finishDecrypt env span mpan msg hdrLen aad decryptLen text con s).s = v s := by
  simp only [S2.finishDecrypt]
  split
  · exact h.authFail env s con span mpan
  · split
    · split <;> exact h.parseEncrypted env span _ hdrLen decryptLen decryptLen s con 0
    · rfl

end Decrypt

end FrameView

namespace DecryptFrameView

variable (h : DecryptFrameView v) (env : Env)
include h

theorem acceptSinglecast (s : S2) (con : Connection) (i : SpanRef) (mpan : Option MpanRef) :
    v (s.acceptSinglecast con i mpan).2 = v s := by
  unfold S2.acceptSinglecast
  cases mpan with
  | none => exact h.setSpan s _ _
  | some m =>
    dsimp only
    split
    · rw [h.rest, h.pointMpan, h.setSpan]
    · rw [h.setMpan, h.setSpan]

theorem attemptClass (s : S2) (i : SpanRef) (aad text : Bytes) : v (s.attemptClass env i aad text).2.2 = v s := by
  simp only [S2.attemptClass]
  split
  · rw [h.attempt, h.drawNonce]
  · rfl

theorem tryClasses (locals : Locals) (con : Connection) (i : SpanRef) (aad : Bytes) (n : Nat) (s : S2)
    (text : Bytes) : v (S2.tryClasses env locals con i aad n s text).2.2.2 = v s := by
  induction n generalizing s text with
  | zero => rfl
  | succ n ih =>
    simp only [S2.tryClasses]
    split
    · rw [h.acceptSinglecast, h.attemptClass]
    · split
      · exact h.attemptClass env s i aad text
      · rw [ih, h.setSpan, h.attemptClass]

theorem decryptSinglecast (s : S2) (locals : Locals) (con : Connection) (i : SpanRef) (aad text : Bytes) :
    v (s.decryptSinglecast env locals con i aad text).2.2.2 = v s := by
  simp only [S2.decryptSinglecast]
  split
  · rw [h.tryClasses, h.setWorkbuf]
  · exact h.tryClasses env locals con i aad nSecClass s text

theorem decryptMulticast (s : S2) (con : Connection) (m : MpanRef) (aad text : Bytes) :
    v (s.decryptMulticast env con m aad text).2.2.2 = v s := by
  simp only [S2.decryptMulticast]
  rw [h.attempt, h.setMpan]

theorem decryptBody (s : S2) (con : Connection) (span : Option SpanRef) (msg : Mem) (len : Nat) :
    v (s.decryptBody env con span msg len).s = v s := by
  have hparse := h.parseHeader env s con span msg len
  simp only [S2.decryptBody]
  split
  · cases span with
    | some i =>
      simp only [decryptSpan]
      split
      · rw [h.finishDecrypt, h.decryptSinglecast, hparse]
      · rw [h.authFail, hparse]
    | none =>
      simp only [decryptGroup]
      split
      · split
        · rw [h.finishDecrypt, h.decryptMulticast, hparse]
        · rw [h.authFail, hparse]
      · rw [h.authFail, hparse]
  · exact hparse

theorem decryptMsg (s : S2) (con : Connection) (msg : Mem) (len : Nat) : v (s.decryptMsg env con msg len).s = v s := by
  simp only [S2.decryptMsg]
  split
  · rfl
  · split
    · exact h.decryptBody env s con none msg len
    · split
      · rw [h.decryptBody, h.findSpanByNode, h.verifySeq]
      · exact h.verifySeq env s con _

end DecryptFrameView

end ZipGateway.S2

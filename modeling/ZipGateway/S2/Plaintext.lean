import ZipGateway.S2.Accounting
import ZipGateway.S2.Frame
import ZipGateway.S2.Layout

/-!
# Empty plaintexts

A retransmission may have lost its payload: after a report of MOS alone, and after a reply of a node that
reported MOS, the machine only wants to send the MPAN. Whether it has one to send is another matter, and
without one the plaintext is empty.
-/

namespace ZipGateway

open Function (update update_of_ne update_self)

def Env.onEmpty (env : Env) (answer : Block → Block → Bytes → Bytes) : Env :=
  { env with
    ccmEncryptAndAuth := fun key nonce aad text =>
      if text = [] then answer key nonce aad else env.ccmEncryptAndAuth key nonce aad text }

namespace S2

structure CcmCall where
  key    : Block
  nonce  : Block
  aad    : Bytes
  text   : Bytes
  msg    : Mem
  hdrLen : Nat
  s      : S2

def CcmCall.seal (c : CcmCall) (ciphertext : Bytes) : Bytes × S2 :=
  let msg := c.msg.write c.hdrLen ciphertext
  (msg.slice 0 (ciphertext.length + c.hdrLen), { c.s with workbuf := msg })

section Call

variable (env : Env)

def ccmCall (s : S2) : CcmCall :=
  let i := (s.findSpanByNode env s.peer).1
  let s := (s.findSpanByNode env s.peer).2
  let s := s.log (.encryptAndSend (s.spanTable i).state)
  let r := s.encryptHeader env i
  let hdrLen := r.2.hdrLen
  let mpans := r.1.addMpanExtensions env r.2.finish hdrLen
  let s := mpans.1
  let shdrLen := mpans.2.2
  let msg :=
    if shdrLen = 0 then mpans.2.1
    else mpans.2.1.write 3 [mpans.2.1 3 ||| encapsulationEncryptedExtension]
  let msg := msg.write (hdrLen + shdrLen) (s.buf.slice 0 s.length)
  let aad := s.makeAad s.peer.lNode s.peer.rNode msg hdrLen (s.length + shdrLen + hdrLen + authTagLen)
  let nonce := (s.drawNonce env i).1
  let s := (s.drawNonce env i).2
  { key    := (s.sg s.peer.classId).encKey
    nonce  := nonce
    aad    := aad
    text   := msg.slice hdrLen (s.length + shdrLen)
    msg    := msg
    hdrLen := hdrLen
    s      := s }

def ccmCallMulti (s : S2) (m : MpanRef) : CcmCall :=
  let mpan := s.mpanTable m
  let msg := s.workbuf.write 0 [commandClassSecurity2, security2MessageEncapsulation, 0xFF, encapsulationExtension,
      3, exthdrCriticalFlag ||| exthdrTypeMgrp, mpan.groupId]
  let msg := msg.write 7 (s.buf.slice 0 s.length)
  { key    := (s.sg mpan.classId).encKey
    nonce  := env.aes128EcbEncrypt mpan.innerState (s.sg mpan.classId).mpanKey
    aad    := s.makeAad s.peer.lNode s.peer.rNode msg 7 (s.length + 7 + authTagLen)
    text   := msg.slice 7 s.length
    msg    := msg
    hdrLen := 7
    s      := s.setMpan m (nextMpanState mpan) }

def CcmCall.answer (c : CcmCall) : Bytes :=
  env.ccmEncryptAndAuth c.key c.nonce c.aad c.text

theorem encrypt_eq_seal (s : S2) : s.encrypt env = (s.ccmCall env).seal ((s.ccmCall env).answer env) := by
  simp only [encrypt, ccmCall, CcmCall.seal, CcmCall.answer]

theorem encryptMulti_eq_seal (s : S2) (m : MpanRef) :
    s.encryptMulti env m = (s.ccmCallMulti env m).seal ((s.ccmCallMulti env m).answer env) := by
  simp only [encryptMulti, ccmCallMulti, CcmCall.seal, CcmCall.answer, setMpan]

end Call

/-! ## When the plaintext is empty -/

/-- A group of which the peer reported MOS has an MPAN of ours to send, other than the one that the MOS
extension gives up. -/
def MpanLeft (s : S2) : Prop :=
  ∃ k m, (s.mosList k).nodeId = s.peer.rNode ∧ s.mpanMatches 0 (s.mosList k).groupId (s.mpanTable m) ∧
    ¬(s.mpan = some m ∧ (s.mpanTable m).state = .mos)

section Empty

variable (env : Env) (s : S2)

theorem mpansOf_eq_nil_iff : s.mpansOf = [] ↔
    ∀ k m, (s.mosList k).nodeId = s.peer.rNode → s.mpanMatches 0 (s.mosList k).groupId (s.mpanTable m) = false := by
  have hnone : ∀ k, s.mpanOf k = none ↔
      ∀ m, (s.mosList k).nodeId = s.peer.rNode → s.mpanMatches 0 (s.mosList k).groupId (s.mpanTable m) = false := by
    intro k
    unfold mpanOf
    split
    next hpeer => simp [lookupMpan, hpeer]
    next hpeer => simp [hpeer]
  rw [mpansOf, List.filterMap_eq_nil_iff]
  constructor
  · intro h k m
    exact (hnone k).mp (h k (List.mem_finRange k)) m
  · intro h k _
    exact (hnone k).mpr fun m => h k m

theorem mpanLeft_addSn (i : SpanRef) (h : Header) : (s.addSn env i h).1.MpanLeft ↔ s.MpanLeft := by
  unfold addSn
  split <;> rfl

theorem mpanLeft_setMpan (m : MpanRef) : (s.setMpan m (nextMpanState (s.mpanTable m))).MpanLeft ↔ s.MpanLeft := by
  have hentry : ∀ j, (update s.mpanTable m (nextMpanState (s.mpanTable m)) j).state = (s.mpanTable j).state ∧
      ∀ groupId, s.mpanMatches 0 groupId (update s.mpanTable m (nextMpanState (s.mpanTable m)) j) =
        s.mpanMatches 0 groupId (s.mpanTable j) := by
    intro j
    by_cases hj : j = m
    · subst hj
      rw [update_self]
      simp [nextMpanState, mpanMatches]
    · rw [update_of_ne hj]
      exact ⟨rfl, fun _ => rfl⟩
  unfold MpanLeft
  apply exists_congr
  intro k
  apply exists_congr
  intro j
  change _ ∧ s.mpanMatches 0 _ (update s.mpanTable m (nextMpanState (s.mpanTable m)) j) = true ∧
    ¬(_ ∧ (update s.mpanTable m (nextMpanState (s.mpanTable m)) j).state = .mos) ↔ _
  rw [(hentry j).1, (hentry j).2]
  rfl

theorem mpanLeft_addMgrp (h : Header) : (s.addMgrp h).1.MpanLeft ↔ s.MpanLeft := by
  unfold addMgrp
  split
  · dsimp only
    split_ifs
    · exact mpanLeft_setMpan s _
    · exact mpanLeft_setMpan (s.log _) _
    all_goals rfl
  · rfl

theorem mpansOf_addMos (h : Header) : (s.addMos h).1.mpansOf = [] ↔ ¬s.MpanLeft := by
  unfold addMos MpanLeft
  cases hm : s.mpan with
  | none =>
    simp only [mpansOf_eq_nil_iff, reduceCtorEq, false_and, not_false_eq_true, and_true, not_exists, not_and,
      Bool.not_eq_true]
  | some m =>
    dsimp only
    split
    next hmos =>
      have hdropped : ∀ groupId, s.mpanMatches 0 groupId { s.mpanTable m with state := .notUsed } = false := by
        intro groupId
        simp [mpanMatches]
      rw [mpansOf_eq_nil_iff]
      push Not
      apply forall_congr'
      intro k
      apply forall_congr'
      intro j
      apply imp_congr_right
      intro hpeer
      change s.mpanMatches 0 _ (update s.mpanTable m { s.mpanTable m with state := .notUsed } j) = false ↔ _
      by_cases hj : j = m
      · subst hj
        rw [update_self, hdropped]
        simp [hmos]
      · have hother : ¬(some m = some j ∧ (s.mpanTable j).state = .mos) :=
          fun hgiven => hj (Option.some.inj hgiven.1).symm
        rw [update_of_ne hj, ← Bool.not_eq_true]
        exact ⟨fun hmiss hmatch => absurd hmatch hmiss, fun hgiven hmatch => hother (hgiven hmatch)⟩
    next hmos =>
      rw [mpansOf_eq_nil_iff]
      push Not
      apply forall_congr'
      intro k
      apply forall_congr'
      intro j
      apply imp_congr_right
      intro hpeer
      have hkept : ¬(some m = some j ∧ (s.mpanTable j).state = .mos) := by
        rintro ⟨heq, hstate⟩
        exact hmos (Option.some.inj heq ▸ hstate)
      rw [← Bool.not_eq_true]
      exact ⟨fun hmiss hmatch => absurd hmatch hmiss, fun hgiven hmatch => hkept (hgiven hmatch)⟩

theorem mpansOf_headed (i : SpanRef) : (s.headed env i).mpansOf = [] ↔ ¬s.MpanLeft := by
  simp only [headed, encryptHeader]
  rw [mpansOf_addMos, mpanLeft_addMgrp, mpanLeft_addSn]
  rfl

theorem mpanLeft_findSpanByNode (con : Connection) : (s.findSpanByNode env con).2.MpanLeft ↔ s.MpanLeft := by
  unfold findSpanByNode
  split <;> rfl

theorem text_ccmCall_eq_nil_iff : (s.ccmCall env).text = [] ↔ s.length = 0 ∧ ¬s.MpanLeft := by
  have hfind := config_findSpanByNode env s s.peer
  rw [← mpanLeft_findSpanByNode env s s.peer, ← mpansOf_headed env _ (s.findSpanByNode env s.peer).1,
    ← List.length_eq_zero_iff]
  simp only [ccmCall]
  generalize s.findSpanByNode env s.peer = r at *
  have hconfig := config_encryptHeader env (r.2.log (.encryptAndSend (r.2.spanTable r.1).state)) r.1
  have hheaded : r.2.headed env r.1 =
      ((r.2.log (.encryptAndSend (r.2.spanTable r.1).state)).encryptHeader env r.1).1 := rfl
  rw [hheaded]
  generalize (r.2.log (.encryptAndSend (r.2.spanTable r.1).state)).encryptHeader env r.1 = h at *
  have hadded := mpanExtensionsAdded env h.1 h.2.finish h.2.hdrLen
  generalize h.1.addMpanExtensions env h.2.finish h.2.hdrLen = mpans at *
  have hlength : (mpans.1.drawNonce env r.1).2.length = s.length := by
    have hsame := congrArg Config.length (hadded.config.trans (hconfig.trans hfind))
    exact hsame
  rw [Mem.length_slice, hlength, hadded.length, Nat.add_eq_zero_iff, Nat.mul_eq_zero, List.length_eq_zero_iff]
  simp

theorem text_ccmCallMulti_eq_nil_iff (m : MpanRef) : (s.ccmCallMulti env m).text = [] ↔ s.length = 0 := by
  rw [← List.length_eq_zero_iff]
  simp [ccmCallMulti]

end Empty

section OnEmpty

variable (env : Env) (answer : Block → Block → Bytes → Bytes)

theorem findSpanByNode_onEmpty : findSpanByNode (env.onEmpty answer) = findSpanByNode env := by rfl

theorem findMpanByGroupId_onEmpty : findMpanByGroupId (env.onEmpty answer) = findMpanByGroupId env := by rfl

theorem spanOk_onEmpty : spanOk (env.onEmpty answer) = spanOk env := by rfl

theorem verifySeq_onEmpty : verifySeq (env.onEmpty answer) = verifySeq env := by rfl

theorem registerNonce_onEmpty : registerNonce (env.onEmpty answer) = registerNonce env := by rfl

theorem addSn_onEmpty : addSn (env.onEmpty answer) = addSn env := by rfl

theorem addMpanExtension_onEmpty : addMpanExtension (env.onEmpty answer) = addMpanExtension env := by rfl

theorem drawNonce_onEmpty : drawNonce (env.onEmpty answer) = drawNonce env := by rfl

theorem ccmCall_onEmpty (s : S2) : s.ccmCall (env.onEmpty answer) = s.ccmCall env := by
  simp only [ccmCall, encryptHeader, addMpanExtensions, findSpanByNode_onEmpty, addSn_onEmpty,
    addMpanExtension_onEmpty, drawNonce_onEmpty]
  rfl

theorem ccmCallMulti_onEmpty (s : S2) (m : MpanRef) :
    s.ccmCallMulti (env.onEmpty answer) m = s.ccmCallMulti env m := by rfl

theorem clearExtension_onEmpty : clearExtension (env.onEmpty answer) = clearExtension env := by rfl

theorem encryptedExtension_onEmpty : encryptedExtension (env.onEmpty answer) = encryptedExtension env := by rfl

theorem attemptClass_onEmpty : attemptClass (env.onEmpty answer) = attemptClass env := by rfl

theorem authFail_onEmpty : authFail (env.onEmpty answer) = authFail env := by rfl

theorem decryptMulticast_onEmpty : decryptMulticast (env.onEmpty answer) = decryptMulticast env := by rfl

theorem parseClear_onEmpty (con : Connection) (span : Option SpanRef) (msg : Mem) (len fuel : Nat) (s : S2)
    (locals : Locals) :
    parseClear (env.onEmpty answer) con span msg len fuel s locals = parseClear env con span msg len fuel s locals := by
  induction fuel generalizing s locals with
  | zero => rfl
  | succ fuel ih => simp only [parseClear, clearExtension_onEmpty, ih]

theorem parseEncrypted_onEmpty (span : Option SpanRef) (msg : Mem) (base decryptLen fuel : Nat) (s : S2)
    (con : Connection) (hdrLen : Nat) :
    parseEncrypted (env.onEmpty answer) span msg base decryptLen fuel s con hdrLen =
      parseEncrypted env span msg base decryptLen fuel s con hdrLen := by
  induction fuel generalizing s con hdrLen with
  | zero => rfl
  | succ fuel ih => simp only [parseEncrypted, encryptedExtension_onEmpty, ih]

theorem tryClasses_onEmpty (locals : Locals) (con : Connection) (i : SpanRef) (aad : Bytes) (n : Nat) (s : S2)
    (text : Bytes) :
    tryClasses (env.onEmpty answer) locals con i aad n s text = tryClasses env locals con i aad n s text := by
  induction n generalizing s text with
  | zero => rfl
  | succ n ih =>
    have hinstantiate : (env.onEmpty answer).nextNonceInstantiate = env.nextNonceInstantiate := rfl
    simp only [tryClasses, attemptClass_onEmpty, hinstantiate, ih]

theorem decryptMsg_onEmpty (s : S2) (con : Connection) (msg : Mem) (len : Nat) :
    s.decryptMsg (env.onEmpty answer) con msg len = s.decryptMsg env con msg len := by
  have hstack : (env.onEmpty answer).stack = env.stack := rfl
  simp only [decryptMsg, decryptBody, decryptSpan, decryptGroup, decryptSinglecast, finishDecrypt, parseHeader,
    verifySeq_onEmpty, findSpanByNode_onEmpty, authFail_onEmpty, decryptMulticast_onEmpty, parseClear_onEmpty,
    parseEncrypted_onEmpty, tryClasses_onEmpty, hstack]
  rfl

theorem sendRaw_onEmpty : sendRaw (env.onEmpty answer) = sendRaw env := by rfl

theorem sendNonceGet_onEmpty : sendNonceGet (env.onEmpty answer) = sendNonceGet env := by rfl

theorem timeout_onEmpty : timeout (env.onEmpty answer) = timeout env := by rfl

theorem answer_onEmpty (c : CcmCall) (h : c.text ≠ []) : c.answer (env.onEmpty answer) = c.answer env :=
  if_neg h

theorem encrypt_onEmpty (s : S2) (h : s.length ≠ 0 ∨ s.MpanLeft) : s.encrypt (env.onEmpty answer) = s.encrypt env := by
  have htext : (s.ccmCall env).text ≠ [] := by
    rw [Ne, text_ccmCall_eq_nil_iff]
    tauto
  rw [encrypt_eq_seal, encrypt_eq_seal, ccmCall_onEmpty, answer_onEmpty env answer _ htext]

theorem encryptMulti_onEmpty (s : S2) (m : MpanRef) (h : s.length ≠ 0) :
    s.encryptMulti (env.onEmpty answer) m = s.encryptMulti env m := by
  have htext : (s.ccmCallMulti env m).text ≠ [] := by
    rwa [Ne, text_ccmCallMulti_eq_nil_iff]
  rw [encryptMulti_eq_seal, encryptMulti_eq_seal, ccmCallMulti_onEmpty, answer_onEmpty env answer _ htext]

end OnEmpty

/-! ## The send machine -/

section Machine

variable (env : Env) (answer : Block → Block → Bytes → Bytes) (callback : S2 → S2)

theorem sendMsgStateEnter_onEmpty (s : S2) (h : s.length ≠ 0 ∨ s.MpanLeft) :
    s.sendMsgStateEnter (env.onEmpty answer) callback = s.sendMsgStateEnter env callback := by
  simp only [sendMsgStateEnter, encryptAndSend, sendRaw_onEmpty]
  split
  · rw [encrypt_onEmpty]
    exact h
  · rw [encrypt_onEmpty]
    exact h

theorem encryptAndSendMulti_onEmpty (s : S2) (m : MpanRef) (h : s.length ≠ 0) :
    s.encryptAndSendMulti (env.onEmpty answer) callback m = s.encryptAndSendMulti env callback m := by
  have hframe : sendFrame (env.onEmpty answer) = sendFrame env := rfl
  simp only [encryptAndSendMulti, encryptMulti_onEmpty env answer s m h, hframe]

variable {buf : Bytes} (hbuf : buf.length ≠ 0)
include hbuf

theorem sendMsg_onEmpty (s : S2) (con : Connection) :
    s.sendMsg (env.onEmpty answer) callback con buf = s.sendMsg env callback con buf := by
  have henter := sendMsgStateEnter_onEmpty env answer callback
    { (s.spanOk env con).2.setPeer con buf with retry := 2 } (.inl hbuf)
  simp only [sendMsg, spanOk_onEmpty, sendNonceGet_onEmpty, henter]

theorem sendMulticast_onEmpty (s : S2) (con : Connection) :
    s.sendMulticast (env.onEmpty answer) callback con buf = s.sendMulticast env callback con buf := by
  have hlength : ((s.setPeer con buf).findMpanByGroupId env 0 con.rNode.toUInt8 true).2.length = buf.length :=
    by
      unfold findMpanByGroupId
      split
      · rfl
      · split <;> rfl
  unfold sendMulticast
  rw [findMpanByGroupId_onEmpty]
  split
  · dsimp only
    split
    · apply encryptAndSendMulti_onEmpty
      exact hlength ▸ hbuf
    · rfl
  · dsimp only
    split
    · apply encryptAndSendMulti_onEmpty
      exact hlength ▸ hbuf
    · rfl
  · rfl

omit hbuf

theorem sendDataAllCast_onEmpty (s : S2) (con : Connection) (buf : Bytes) (cast : Cast) :
    s.sendDataAllCast (env.onEmpty answer) callback con buf cast = s.sendDataAllCast env callback con buf cast := by
  unfold sendDataAllCast
  split
  · rfl
  next haccept =>
    have hbuf : buf.length ≠ 0 := fun hzero => haccept (.inl hzero)
    cases cast with
    | sendMulticast => exact sendMulticast_onEmpty env answer callback hbuf _ con
    | sendMsg => exact sendMsg_onEmpty env answer callback hbuf _ con
    | sendFollowUp => simp only [findMpanByGroupId_onEmpty, sendMsg_onEmpty env answer callback hbuf]

theorem sendData_onEmpty (s : S2) (con : Connection) (buf : Bytes) :
    s.sendData (env.onEmpty answer) callback con buf = s.sendData env callback con buf := by
  simp only [sendData, sendDataAllCast_onEmpty]

theorem call_onEmpty : call (env.onEmpty answer) callback = call env callback := by
  funext s c
  cases c with
  | sendData con buf => exact sendData_onEmpty env answer callback s con buf
  | sendDataMulticast con buf => exact sendDataAllCast_onEmpty env answer callback s con buf .sendMulticast
  | sendDataWithKeyset con longRange buf | sendDataMulticastWithKeyset con longRange buf
  | sendDataFollowUpWithKeyset con longRange buf =>
    simp only [call, sendDataWithKeyset, sendDataAllCast_onEmpty]
  | _ => rfl

theorem callback_zero : S2.callback env 0 = fun s => s := rfl

theorem callback_succ (depth : Nat) (s : S2) : S2.callback env (depth + 1) s =
    (env.react s.nCallback).foldl (call env (S2.callback env depth)) (nextCalls env s).2 := rfl

theorem callback_onEmpty (depth : Nat) : S2.callback (env.onEmpty answer) depth = S2.callback env depth := by
  induction depth with
  | zero => rw [callback_zero, callback_zero]
  | succ depth ih =>
    funext s
    have hreact : (env.onEmpty answer).react = env.react := rfl
    have hnext : nextCalls (env.onEmpty answer) s = nextCalls env s := rfl
    rw [callback_succ, callback_succ, ih, call_onEmpty, hreact, hnext]

end Machine

/-! ## Events -/

/-- A nonce report or a reply only makes the machine send again when it has payload left or an MPAN to send. -/
def Feeds (env : Env) (s : S2) : Event → Prop
  | .receive con buf len =>
    (buf 1 = security2NonceReport → ReportAccepted env s con buf len →
      let r := s.registerNonce env buf len
      let t := if s.fsm = .verifyingDelivery then r.2.dropPayload r.1 else r.2
      t.length ≠ 0 ∨ t.MpanLeft) ∧
    (buf 1 = security2MessageEncapsulation → ReplyAccepted env s con buf len →
      let d := s.decryptMsg env con buf len
      d.s.isNodeMos d.con.rNode → d.s.retry > 0 → d.s.MpanLeft)
  | _ => True

section Events

variable (env : Env) (answer : Block → Block → Bytes → Bytes) (callback : S2 → S2) (s : S2)

theorem gotNonceRaport_onEmpty (con : Connection) (buf : Mem) (len : Nat) (h : ReportAccepted env s con buf len →
      let r := s.registerNonce env buf len
      let t := if s.fsm = .verifyingDelivery then r.2.dropPayload r.1 else r.2
      t.length ≠ 0 ∨ t.MpanLeft) :
    s.gotNonceRaport (env.onEmpty answer) callback con buf len = s.gotNonceRaport env callback con buf len := by
  unfold gotNonceRaport
  rw [registerNonce_onEmpty]
  cases hfsm : s.fsm with
  | waitNonceRaport =>
    dsimp only
    split
    next hpeer =>
      split
      next hflags =>
        have hfed := h ⟨hpeer, .inl ⟨hfsm, hflags⟩⟩
        rw [hfsm] at hfed
        exact sendMsgStateEnter_onEmpty env answer callback _ hfed
      next => rfl
    next => rfl
  | verifyingDelivery =>
    dsimp only
    split
    next hpeer =>
      split
      next => rfl
      next hflags =>
        split
        next => rfl
        next hretry =>
          rw [retry_dropPayload, retry_registerNonce] at hretry
          have hfed := h ⟨hpeer, .inr ⟨hfsm, hflags, hretry⟩⟩
          rw [hfsm] at hfed
          exact sendMsgStateEnter_onEmpty env answer callback _ hfed
    next => rfl
  | _ => rfl

theorem gotEncMsg_onEmpty (con : Connection)
    (h : s.fsm = .verifyingDelivery → s.isPeernode con → s.isNodeMos con.rNode → s.retry > 0 → s.MpanLeft) :
    s.gotEncMsg (env.onEmpty answer) callback con = s.gotEncMsg env callback con := by
  unfold gotEncMsg
  cases hfsm : s.fsm with
  | verifyingDelivery =>
    dsimp only
    split
    next hpeer =>
      split
      next hmos =>
        have hleft := h hfsm hpeer hmos.1 hmos.2
        exact sendMsgStateEnter_onEmpty env answer callback _ (.inr hleft)
      next => rfl
    next => rfl
  | _ => rfl

theorem deliver_onEmpty (src : Connection) (plainText : Mem) (len : Nat) :
    s.deliver (env.onEmpty answer) callback src plainText len = s.deliver env callback src plainText len := by
  have hcommands : (env.onEmpty answer).commandsSupported = env.commandsSupported := rfl
  simp only [deliver, securityCommand, hcommands, sendData_onEmpty]

theorem messageEncapsulation_onEmpty (src : Connection) (buf : Mem) (len : Nat) (h : ReplyAccepted env s src buf len →
      let d := s.decryptMsg env src buf len
      d.s.isNodeMos d.con.rNode → d.s.retry > 0 → d.s.MpanLeft) :
    s.messageEncapsulation (env.onEmpty answer) callback src buf len =
      s.messageEncapsulation env callback src buf len := by
  simp only [messageEncapsulation, decryptMsg_onEmpty, deliver_onEmpty]
  cases hrc : (s.decryptMsg env src buf len).rc with
  | authOk =>
    dsimp only
    rw [gotEncMsg_onEmpty]
    intro hfsm hpeer
    exact h ⟨hrc, hfsm, hpeer⟩
  | _ => rfl

theorem step_onEmpty (depth : Nat) (e : Event) (h : Feeds env s e) :
    s.step (env.onEmpty answer) depth e = s.step env depth e := by
  cases e with
  | call c =>
    simp only [step]
    rw [callback_onEmpty, call_onEmpty]
  | sendFrameDone status time =>
    simp only [step]
    rw [callback_onEmpty]
  | timeout =>
    simp only [step]
    rw [callback_onEmpty, timeout_onEmpty]
  | receive con buf len =>
    simp only [step]
    rw [callback_onEmpty]
    unfold applicationCommandHandler
    split_ifs with hclass hget hreport hencap
    · rfl
    · rfl
    · exact gotNonceRaport_onEmpty env answer _ s con buf len (h.1 hreport)
    · exact messageEncapsulation_onEmpty env answer _ s con buf len (h.2 hencap)
    · rfl

end Events

/-! ## Runs -/

/-- The cipher is not asked to encrypt an empty plaintext: the run is the same whatever it would answer. -/
def NeverEmpty (env : Env) (depth : Nat) (s : S2) (events : List Event) : Prop :=
  ∀ answer, Machine.run (step (env.onEmpty answer) depth) s events = Machine.run (step env depth) s events

section Runs

variable (env : Env) (depth : Nat) (home : UInt32) (sg : UInt8 → SecGroup) (loadedKeys : UInt8)
  (spanTable : SpanRef → Span)

theorem run_onEmpty (answer : Block → Block → Bytes → Bytes) (s : S2) (events : List Event)
    (h : Machine.Admissible (step env depth) (Feeds env) s events) :
    Machine.run (step (env.onEmpty answer) depth) s events = Machine.run (step env depth) s events := by
  induction events generalizing s with
  | nil => rw [Machine.run_nil, Machine.run_nil]
  | cons e events ih =>
    have hstep := step_onEmpty env answer s depth e h.1
    rw [Machine.run_cons, Machine.run_cons, hstep]
    exact ih _ h.2

/-- In a run whose nonce reports and replies feed the machine, no plaintext is empty. -/
theorem never_empty (events : List Event)
    (h : Machine.Admissible (step env depth) (Feeds env) (start home sg loadedKeys spanTable) events) :
    NeverEmpty env depth (start home sg loadedKeys spanTable) events :=
  fun answer => run_onEmpty env depth answer _ events h

def mosReport : List Event :=
  [ .call (.sendData (sampleCon txoptionVerifyDelivery) [0x20, 0x02]),
    .receive (sampleCon 0) (.ofBytes [0x9F, 0x02, 5, 0x02]) 4 ]

theorem not_never_empty : ¬∀ (env : Env) (depth : Nat) (home : UInt32) (sg : UInt8 → SecGroup) (loadedKeys : UInt8)
      (spanTable : SpanRef → Span) (events : List Event),
      NeverEmpty env depth (start home sg loadedKeys spanTable) events := by
  intro hall
  have hsame := hall sampleEnv 0 0 (init 0).sg 1 sampleStart.spanTable mosReport fun _ _ _ => [1]
  have hdiffer : (Machine.run (step (sampleEnv.onEmpty fun _ _ _ => [1]) 0)
        (start 0 (init 0).sg 1 sampleStart.spanTable) mosReport).out ≠
      (Machine.run (step sampleEnv 0) (start 0 (init 0).sg 1 sampleStart.spanTable) mosReport).out := by
    decide
  exact hdiffer (congrArg S2.out hsame)

theorem never_empty_sosReport : NeverEmpty sampleEnv 0 (start 0 (init 0).sg 1 sampleStart.spanTable)
      [ .call (.sendData (sampleCon txoptionVerifyDelivery) [0x20, 0x02]),
        .receive (sampleCon 0) (.ofBytes ([0x9F, 0x02, 5, 0x01] ++ List.replicate 16 0)) 20 ] := by
  apply never_empty
  refine ⟨trivial, ⟨fun _ _ => .inl ?_, fun hencap => ?_⟩, trivial⟩
  · decide
  · exact absurd hencap (by decide)

end Runs

end S2

end ZipGateway

import ZipGateway.S2.RoundTrip

/-!
# One side of an exchange

What the events of a singlecast exchange do to one node, when no group is involved and nothing is
refused or called back: a message, a request for a nonce, the report with it, an encapsulation.
-/

namespace ZipGateway.S2

open Function (update update_idem update_self)

structure View where
  sg : UInt8 → SecGroup
  loadedKeys : UInt8
  myHomeId : UInt32
  mpan : Option MpanRef
  mosList : Fin mosListLength → MosEntry
  spanTable : SpanRef → Span
  peer : Connection
  buf : Mem
  length : Nat
  transmitted : List (Connection × Bytes)
  nAccepted : Nat

def view (s : S2) : View where
  sg := s.sg
  loadedKeys := s.loadedKeys
  myHomeId := s.myHomeId
  mpan := s.mpan
  mosList := s.mosList
  spanTable := s.spanTable
  peer := s.peer
  buf := s.buf
  length := s.length
  transmitted := s.transmitted
  nAccepted := s.nAccepted

variable {msg : Mem} {seq : UInt8}

theorem view_log {s : S2} {o : Out} (htransmitted : Out.transmitted o = none)
    (haccepted : Out.isAccepted o = false) : (s.log o).view = s.view := by
  simp [view, log, transmitted, nAccepted, List.filterMap_cons_none htransmitted, haccepted]

structure Ungrouped (s : S2) : Prop where
  mpan : s.mpan = none
  mosList : ∀ k, (s.mosList k).nodeId = 0

theorem Ungrouped.of_view {s t : S2} (h : Ungrouped s) (hview : t.view = s.view) : Ungrouped t := by
  refine ⟨?_, fun k => ?_⟩
  · exact (congrArg View.mpan hview).trans h.mpan
  · rw [show t.mosList = s.mosList from congrArg View.mosList hview]
    exact h.mosList k

/-! ## Encrypting -/

section Encrypting

variable (env : Env) {s : S2} {i : SpanRef}

theorem Ungrouped.clearExtensions_eq (h : Ungrouped s) : s.clearExtensions env i = s.snExtensions env i := by
  simp [clearExtensions, mgrpExtensions, mosExtensions, h.mpan]

theorem addMpanExtensions_none (h : ∀ k, (s.mosList k).nodeId ≠ s.peer.rNode) (msg : Mem)
    (ext : Nat) : s.addMpanExtensions env msg ext = (s, msg, 0) := by
  have hfold : (List.finRange mosListLength).foldl (addMpanExtension env)
      { s := s, msg := msg, p := ext, k := 0 } = { s := s, msg := msg, p := ext, k := 0 } := by
    generalize List.finRange mosListLength = entries
    induction entries with
    | nil => rfl
    | cons k entries ih =>
      rw [List.foldl_cons]
      have hsame : addMpanExtension env { s := s, msg := msg, p := ext, k := 0 } k =
          { s := s, msg := msg, p := ext, k := 0 } := by
        simp only [addMpanExtension, h k, if_false]
      rw [hsame, ih]
  simp only [addMpanExtensions, hfold, if_true, Nat.zero_mul]

theorem view_addSn (h₀ : Header) : (s.addSn env i h₀).1.view =
      { s.view with spanTable := update s.spanTable i (s.spanUsed env i) } := by
  have htable := spanTable_addSn env s i h₀
  unfold addSn at htable ⊢
  split at htable
  · rename_i hremote
    rw [if_pos hremote, ← htable]
    rfl
  · rename_i hremote
    rw [if_neg hremote, ← htable]
    rfl

theorem Ungrouped.view_encryptHeader (h : Ungrouped s) : (s.encryptHeader env i).1.view =
      { s.view with spanTable := update s.spanTable i (s.spanUsed env i) } := by
  have hview := fun h₀ => view_addSn env (s := s) (i := i) h₀
  have hmpan : ∀ h₀, (s.addSn env i h₀).1.mpan = none := fun h₀ =>
    (congrArg View.mpan (hview h₀)).trans h.mpan
  simp only [encryptHeader, addMgrp, addMos, hmpan]
  exact hview _

theorem view_drawNonce : (s.drawNonce env i).2.view = { s.view with
        spanTable := update s.spanTable i
          { s.spanTable i with d := (env.nextNonceGenerate (s.spanTable i).d).2 } } := rfl

theorem view_encrypt (h : Ungrouped s) (hpeer : s.peer.rNode ≠ 0) (hslot : slot s.spanTable s.peer = some i) :
    (s.encrypt env).2.view = { s.view with
        spanTable := update s.spanTable i
          { s.spanUsed env i with d := (env.nextNonceGenerate (s.spanUsed env i).d).2 } } := by
  have hfind := findSpanByNode_of_slot env s s.peer hslot
  have hlog : (s.log (.encryptAndSend (s.spanTable i).state)).view = s.view := view_log rfl rfl
  have hheader := (h.of_view hlog).view_encryptHeader env (i := i)
  simp only [encrypt, hfind]
  generalize (s.log (.encryptAndSend (s.spanTable i).state)).encryptHeader env i = r at *
  have hmos : r.1.mosList = s.mosList := congrArg View.mosList hheader
  have hr : r.1.peer = s.peer := congrArg View.peer hheader
  have htable : r.1.spanTable = update s.spanTable i (s.spanUsed env i) :=
    congrArg View.spanTable hheader
  have hadded := addMpanExtensions_none env (s := r.1)
    (fun k => by rw [hmos, hr, h.mosList k]; exact hpeer.symm) r.2.finish r.2.hdrLen
  rw [hadded]
  change (r.1.drawNonce env i).2.view = _
  rw [view_drawNonce, hheader, hlog, htable, update_self, update_idem]

end Encrypting

/-! ## Sending -/

section Sending

variable (env : Env) {s : S2} {i : SpanRef}

def Span.sent (span : Span) : Span :=
  { span with txSeq := span.txSeq + 1 }

def spanSent (s : S2) (i : SpanRef) : Span :=
  Span.sent { s.spanUsed env i with d := (env.nextNonceGenerate (s.spanUsed env i).d).2 }

theorem view_sendFrame (hok : env.sendFrame s.nFrame = true) (frame : Bytes) :
    (s.sendFrame env (.send s.nAccepted) (.sendFrame s.peer frame)).1 = true ∧
      (s.sendFrame env (.send s.nAccepted) (.sendFrame s.peer frame)).2.view =
        { s.view with transmitted := (s.peer, frame) :: s.transmitted } ∧
      (s.sendFrame env (.send s.nAccepted) (.sendFrame s.peer frame)).2.fsm = s.fsm := by
  simp only [sendFrame, hok, if_true]
  refine ⟨trivial, rfl, ?_⟩
  trivial

theorem view_sendRaw (hsend : ∀ n, env.sendFrame n = true) (hslot : slot s.spanTable s.peer = some i) (frame : Bytes) :
    (s.sendRaw env id frame).view = { s.view with
          transmitted := (s.peer, frame) :: s.transmitted
          spanTable := update s.spanTable i (Span.sent (s.spanTable i)) } ∧
      (s.sendRaw env id frame).fsm = s.fsm := by
  obtain ⟨hok, hview, hfsm⟩ := view_sendFrame env (s := s) (hsend s.nFrame) frame
  simp only [sendRaw]
  generalize s.sendFrame env (.send s.nAccepted) (.sendFrame s.peer frame) = r at *
  have htable : r.2.spanTable = s.spanTable := congrArg View.spanTable hview
  have hpeer : r.2.peer = s.peer := congrArg View.peer hview
  have hfind := findSpanByNode_of_slot env r.2 r.2.peer (by rw [htable, hpeer]; exact hslot)
  rw [if_pos hok, hfind]
  refine ⟨?_, hfsm⟩
  rw [← htable]
  exact congrArg (fun v : View => { v with
    spanTable := update r.2.spanTable i (Span.sent (r.2.spanTable i)) }) hview

def entered (s : S2) : S2 :=
  if s.peer.txOptions &&& txoptionVerifyDelivery ≠ 0 then
    { s with fsm := .verifyingDelivery }.log (.setTimeout sendDataTimeout)
  else
    { s with fsm := .sendingMsg }

theorem view_entered : s.entered.view = s.view := by
  unfold entered
  split
  · exact view_log rfl rfl
  · rfl

theorem fsm_entered : s.entered.fsm = .verifyingDelivery ∨ s.entered.fsm = .sendingMsg := by
  unfold entered
  split
  · exact .inl rfl
  · exact .inr rfl

structure Sent (env : Env) (s : S2) (i : SpanRef) (s' : S2) : Prop where
  view : s'.view = { s.view with
      transmitted := (s.peer, (s.entered.encrypt env).1) :: s.transmitted
      spanTable := update s.spanTable i (s.spanSent env i) }
  fsm : s'.fsm = s.entered.fsm

theorem spanUsed_entered : s.entered.spanUsed env i = s.spanUsed env i := by
  unfold entered
  split <;> rfl

theorem slot_update_used {con : Connection} (hslot : slot s.spanTable con = some i) (d : SpanData) :
    slot (update s.spanTable i { s.spanUsed env i with d := d }) con = some i := by
  refine slot_setSpan hslot ?_ ?_ ?_
  · unfold spanUsed
    split <;> rfl
  · unfold spanUsed
    split <;> rfl
  · unfold spanUsed
    split
    · simp
    · exact state_ne_notUsed hslot

theorem sendMsgStateEnter_eq (callback : S2 → S2) : s.sendMsgStateEnter env callback =
      { s.entered.encryptAndSend env callback with
        retry := (s.entered.encryptAndSend env callback).retry - 1 } := rfl

theorem view_retry (s : S2) (retry : UInt8) : { s with retry := retry }.view = s.view := rfl

theorem view_sendRaw_of_encrypt (hsend : ∀ n, env.sendFrame n = true)
    (hslot : slot s.spanTable s.peer = some i) {r : Bytes × S2}
    (hr : r.2.view = { s.view with
        spanTable := update s.spanTable i
          { s.spanUsed env i with d := (env.nextNonceGenerate (s.spanUsed env i).d).2 } }) :
    (r.2.sendRaw env id r.1).view = { s.view with
          transmitted := (s.peer, r.1) :: s.transmitted
          spanTable := update s.spanTable i (s.spanSent env i) } ∧
      (r.2.sendRaw env id r.1).fsm = r.2.fsm := by
  have htable : r.2.spanTable = update s.spanTable i
      { s.spanUsed env i with d := (env.nextNonceGenerate (s.spanUsed env i).d).2 } :=
    congrArg View.spanTable hr
  have hpeer : r.2.peer = s.peer := congrArg View.peer hr
  have htransmitted : r.2.transmitted = s.transmitted := congrArg View.transmitted hr
  have hslot' : slot r.2.spanTable r.2.peer = some i := by
    rw [htable, hpeer]
    exact slot_update_used env hslot _
  obtain ⟨hraw, hfsm⟩ := view_sendRaw env hsend hslot' r.1
  refine ⟨?_, hfsm⟩
  rw [hraw, hr, htable, hpeer, htransmitted, update_self, update_idem]
  rfl

theorem sent_sendMsgStateEnter (hsend : ∀ n, env.sendFrame n = true) (h : Ungrouped s)
    (hpeer : s.peer.rNode ≠ 0) (hslot : slot s.spanTable s.peer = some i) :
    Sent env s i (s.sendMsgStateEnter env id) := by
  have hview := view_entered (s := s)
  have htable : s.entered.spanTable = s.spanTable := congrArg View.spanTable hview
  have hpeer' : s.entered.peer = s.peer := congrArg View.peer hview
  have hslot' : slot s.entered.spanTable s.entered.peer = some i := by
    rw [htable, hpeer']
    exact hslot
  have hencrypt := view_encrypt env (h.of_view hview) (hpeer' ▸ hpeer) hslot'
  have hfsm : (s.entered.encrypt env).2.fsm = s.entered.fsm :=
    fsm_encrypt env s.entered
  rw [hview, htable, spanUsed_entered] at hencrypt
  obtain ⟨hraw, hrawFsm⟩ := view_sendRaw_of_encrypt env hsend hslot hencrypt
  rw [sendMsgStateEnter_eq, encryptAndSend]
  exact ⟨(view_retry _ _).trans hraw, hrawFsm.trans hfsm⟩

def sentAs (con : Connection) : Connection :=
  if isLrNode con.rNode then convertNormalToLrKeyclass con else con

theorem nodes_sentAs (con : Connection) : (sentAs con).lNode = con.lNode ∧ (sentAs con).rNode = con.rNode := by
  unfold sentAs convertNormalToLrKeyclass
  repeat' split
  all_goals exact ⟨rfl, rfl⟩

def prepared (s : S2) (con : Connection) (buf : Bytes) : S2 :=
  { (s.log (.accepted s.inFlight)).setPeer con buf with retry := 2 }

theorem view_prepared (con : Connection) (buf : Bytes) : (s.prepared con buf).view = { s.view with
        peer := con, buf := .ofBytes buf, length := buf.length, nAccepted := s.nAccepted + 1 } := by
  have hcount : (s.log (.accepted s.inFlight)).nAccepted = s.nAccepted + 1 := by
    rw [nAccepted, log, List.countP_cons_of_pos rfl]
    rfl
  rw [← hcount]
  rfl

def asking (s : S2) (con : Connection) (buf : Bytes) : S2 :=
  { s.prepared con buf with fsm := .waitNonceRaport }

theorem sendMsg_of_idle {con : Connection} (buf : Bytes) (hidle : s.fsm = .idle)
    (hslot : slot s.spanTable con = some i) :
    s.sendMsg env id con buf =
      if (s.spanTable i).state.usable && (s.spanTable i).classId == con.classId then
        { s.setPeer con buf with retry := 2 }.sendMsgStateEnter env id
      else
        ({ s.setPeer con buf with fsm := .waitNonceRaport, retry := 2 }.sendNonceGet env id).log
          (.setTimeout sendDataTimeout) := by
  simp only [sendMsg, hidle, spanOk, findSpanByNode_of_slot env s con hslot]

theorem sendData_of_refused {con : Connection} {buf : Bytes}
    (h : buf.length = 0 ∨ buf.length > 1280 ∨ s.isSendDataBusy = true) :
    s.sendData env id con buf = s := by
  simp only [sendData, sendDataAllCast, h, if_true]

section Accepted

variable {con : Connection} {buf : Bytes} (hidle : s.fsm = .idle)
  (hbuf : ¬(buf.length = 0 ∨ buf.length > 1280)) (hslot : slot s.spanTable con = some i)

include hidle hbuf hslot

theorem sendData_of_accepted : s.sendData env id con buf =
      if (s.spanTable i).state.usable && (s.spanTable i).classId == (sentAs con).classId then
        (s.prepared (sentAs con) buf).sendMsgStateEnter env id
      else
        ((s.asking (sentAs con) buf).sendNonceGet env id).log (.setTimeout sendDataTimeout) := by
  have hnotBusy : ¬(buf.length = 0 ∨ buf.length > 1280 ∨ s.isSendDataBusy = true) := by
    have hfree : s.isSendDataBusy = false := by simp [isSendDataBusy, hidle]
    simpa [hfree] using hbuf
  have hnodes := nodes_sentAs con
  have hslot' : slot (s.log (.accepted s.inFlight)).spanTable (sentAs con) = some i := by
    rw [slot_congr hnodes.1 hnodes.2]
    exact hslot
  rw [sendData, sendDataAllCast, if_neg hnotBusy]
  exact sendMsg_of_idle env buf hidle hslot'

end Accepted

theorem view_sendNonceGet (hsend : ∀ n, env.sendFrame n = true) (hslot : slot s.spanTable s.peer = some i) :
    (s.sendNonceGet env id).view = { s.view with
          transmitted := (s.peer, [commandClassSecurity2, security2NonceGet, (s.spanTable i).txSeq]) :: s.transmitted
          spanTable := update s.spanTable i (Span.sent (s.spanTable i)) } ∧
      (s.sendNonceGet env id).fsm = s.fsm := by
  simp only [sendNonceGet, findSpanByNode_of_slot env s s.peer hslot]
  exact view_sendRaw env hsend hslot _

end Sending

/-! ## The nonce exchange -/

section Nonce

variable (env : Env) {s : S2} {i : SpanRef} {con : Connection}

def Hears (span : Span) (seq : UInt8) : Prop :=
  span.state = .noSeq ∨ span.rxSeq - seq ≥ seqDuplWindowSize

theorem hears_succ (span : Span) : Hears span (span.rxSeq + 1) := by
  refine .inr ?_
  rw [show span.rxSeq - (span.rxSeq + 1) = 255 by grind]
  decide

theorem verifySeq_fresh (hslot : slot s.spanTable con = some i) (hhears : Hears (s.spanTable i) seq) :
    s.verifySeq env con seq = (true, s.heardSeq i seq) := by
  simp only [verifySeq, findSpanByNode_of_slot env s con hslot]
  unfold Hears at hhears
  rw [if_pos hhears]
  rfl

theorem slot_heardSeq (hslot : slot s.spanTable con = some i) (seq : UInt8) :
    slot (s.heardSeq i seq).spanTable con = some i :=
  slot_setSpan hslot rfl rfl (state_ne_notUsed hslot)

def spanReporting (span : Span) (seq : UInt8) (entropy : Block) : Span :=
  { span with
    rxSeq := seq, state := .sosLocalNonce, d := { span.d with rNonce := entropy }
    txSeq := span.txSeq + 1 }

def nonceReport (seq : UInt8) (entropy : Block) : Bytes :=
  [commandClassSecurity2, security2NonceReport, seq, nonceReportSos] ++ entropy.toList

theorem sendNonceReport_sos (hslot : slot s.spanTable con = some i) : s.sendNonceReport env con nonceReportSos =
      ({ s with nRandom := s.nRandom + 1 }.setSpan i { s.spanTable i with
          state := .sosLocalNonce, d := { (s.spanTable i).d with rNonce := env.random s.nRandom }
          txSeq := (s.spanTable i).txSeq + 1 }).log
        (.sendFrameNoCb con (nonceReport (s.spanTable i).txSeq (env.random s.nRandom))) := by
  simp only [sendNonceReport, findSpanByNode_of_slot env s con hslot]
  rfl

theorem view_nonceGet (hcon : con.isMulticast = false) (hslot : slot s.spanTable con = some i)
    (hmsg : msg.slice 0 3 = [commandClassSecurity2, security2NonceGet, seq])
    (hhears : Hears (s.spanTable i) seq) :
    (s.applicationCommandHandler env id con msg 3).view = { s.view with
          transmitted :=
            (con, nonceReport (s.spanTable i).txSeq (env.random s.nRandom)) :: s.transmitted
          spanTable := update s.spanTable i (spanReporting (s.spanTable i) seq (env.random s.nRandom)) } ∧
      (s.applicationCommandHandler env id con msg 3).fsm = s.fsm := by
  have hzero : msg 0 = commandClassSecurity2 := Mem.eq_of_slice_zero hmsg rfl
  have hone : msg 1 = security2NonceGet := Mem.eq_of_slice_zero hmsg rfl
  have htwo : msg 2 = seq := Mem.eq_of_slice_zero hmsg rfl
  have hslot' := slot_heardSeq hslot seq
  have hspan : (s.heardSeq i seq).spanTable i = { s.spanTable i with rxSeq := seq } := by
    simp [heardSeq]
  simp only [applicationCommandHandler, hzero, hone, ne_eq, not_true_eq_false, if_false, if_true,
    nonceGet, hcon, Bool.false_eq_true, not_false_eq_true, true_and, Nat.le_refl, htwo,
    verifySeq_fresh env hslot hhears, sendNonceReport_sos env hslot', hspan]
  refine ⟨?_, rfl⟩
  simp only [view, log, setSpan, heardSeq, update_idem]
  rfl

def spanReported (span : Span) (seq : UInt8) (entropy : Block) : Span :=
  { span with
    rxSeq := seq, state := .sosRemoteNonce, d := { span.d with rNonce := entropy } }

theorem nonceReport_bytes {entropy : Block} (hmsg : msg.slice 0 20 = nonceReport seq entropy) :
    msg 0 = commandClassSecurity2 ∧ msg 1 = security2NonceReport ∧ msg 2 = seq ∧
      msg 3 = nonceReportSos ∧ Block.ofBytes (msg.slice 4 16) = entropy := by
  refine ⟨Mem.eq_of_slice_zero hmsg rfl, Mem.eq_of_slice_zero hmsg rfl,
    Mem.eq_of_slice_zero hmsg rfl, Mem.eq_of_slice_zero hmsg rfl, ?_⟩
  have hdrop := Mem.drop_slice msg 0 16 4
  rw [hmsg] at hdrop
  rw [show msg.slice 4 16 = entropy.toList from hdrop.symm]
  exact block_ofBytes_toList entropy

def registered (s : S2) (i : SpanRef) (seq : UInt8) (entropy : Block) : S2 :=
  s.setSpan i (spanReported (s.spanTable i) seq entropy)

theorem gotNonceRaport_eq (hwait : s.fsm = .waitNonceRaport) (hl : con.lNode = s.peer.lNode)
    (hr : con.rNode = s.peer.rNode) (hslot : slot s.spanTable s.peer = some i) {entropy : Block}
    (hmsg : msg.slice 0 20 = nonceReport seq entropy) (hhears : Hears (s.spanTable i) seq) :
    s.applicationCommandHandler env id con msg 20 = (s.registered i seq entropy).sendMsgStateEnter env id := by
  obtain ⟨hzero, hone, htwo, hthree, hentropy⟩ := nonceReport_bytes hmsg
  have hpeer : s.isPeernode con = true := by simp [isPeernode, hl, hr]
  have hslot' : slot (s.heardSeq i seq).spanTable (s.heardSeq i seq).peer = some i :=
    slot_heardSeq hslot seq
  have hregister : s.registerNonce env msg 20 = (nonceReportSos, s.registered i seq entropy) := by
    simp only [registerNonce, htwo, verifySeq_fresh env hslot hhears, if_true,
      findSpanByNode_of_slot env _ _ hslot', storeNonce, storeMos, hthree, hentropy]
    rw [if_neg (by decide), if_pos (by decide)]
    simp only [registered, heardSeq, setSpan, update_self, update_idem]
    rfl
  simp only [applicationCommandHandler, hzero, hone, ne_eq, not_true_eq_false, if_false,
    show security2NonceReport ≠ security2NonceGet by decide, if_true, gotNonceRaport, hwait, hpeer,
    hregister]
  rw [if_pos (by decide)]

end Nonce

/-! ## Opening a message -/

section Opening

variable {env env' : Env} {s t : S2} {con : Connection} {i j : SpanRef}

theorem Ungrouped.mpanExtensions_eq (h : Ungrouped s) (env : Env) (i : SpanRef) (hpeer : s.peer.rNode ≠ 0) :
    s.mpanExtensions env i = [] := by
  have hlog : (s.log (.encryptAndSend (s.spanTable i).state)).view = s.view := view_log rfl rfl
  have hheader := (h.of_view hlog).view_encryptHeader env (i := i)
  have hmos : (s.headed env i).mosList = s.mosList := congrArg View.mosList hheader
  have hr : (s.headed env i).peer = s.peer := congrArg View.peer hheader
  have hnone : ∀ k, (s.headed env i).mpanOf k = none := by
    intro k
    rw [mpanOf, hmos, hr, h.mosList k, if_neg hpeer.symm]
  rw [mpanExtensions, mpansOf]
  exact List.filterMap_eq_nil_iff.mpr fun k _ => hnone k

theorem noGroup_snExtensions {e : Extension} (he : e ∈ s.snExtensions env i) : ¬Extension.IsGroup e := by
  unfold snExtensions at he
  split at he
  · rw [List.mem_singleton.mp he]
    rintro (hmos | ⟨groupId, hmgrp⟩)
    · cases hmos
    · cases hmgrp
  · cases he

theorem nAccepted_decryptMsg (env : Env) (t : S2) (con : Connection) (msg : Mem) (len : Nat) :
    (t.decryptMsg env con msg len).s.nAccepted = t.nAccepted := by
  obtain hledger | ⟨-, hledger⟩ := sameLedger_decryptMsg env t con msg len
  · exact congrArg Ledger.nAccepted hledger
  · exact congrArg Ledger.nAccepted hledger

theorem spanHeard_eq (env : Env) (s : S2) (i : SpanRef) (es : List Extension) :
    ∃ state d, s.spanHeard env i es = { s.spanTable i with state := state, d := d } := by
  rcases es with _ | ⟨e, es⟩
  · exact ⟨_, _, rfl⟩
  · cases e <;> exact ⟨_, _, rfl⟩

theorem view_of_config {table : SpanRef → Span} (hconfig : s.config = t.config)
    (hmpan : s.mpan = t.mpan) (hmosList : s.mosList = t.mosList)
    (htransmitted : s.transmitted = t.transmitted) (hcount : s.nAccepted = t.nAccepted)
    (htable : s.spanTable = table) : s.view = { t.view with spanTable := table } := by
  have hpeer : s.peer = t.peer := congrArg Config.peer hconfig
  have hbuf : s.buf = t.buf := congrArg Config.buf hconfig
  have hlength : s.length = t.length := congrArg Config.length hconfig
  have hsg : s.sg = t.sg := congrArg Config.sg hconfig
  have hhome : s.myHomeId = t.myHomeId := congrArg Config.myHomeId hconfig
  have hkeys : s.loadedKeys = t.loadedKeys := congrArg Config.loadedKeys hconfig
  simp only [view, hpeer, hbuf, hlength, hsg, hhome, hkeys, hmpan, hmosList, htransmitted, hcount, htable]

theorem Synchronised.of_view {s' t' : S2} (h : Synchronised s t con i j) (hs : s'.view = s.view) (ht : t'.view = t.view)
    (hfsm : t'.fsm = t.fsm ∨ t'.fsm = .idle) : Synchronised s' t' con i j := by
  have hpeer : s'.peer = s.peer := congrArg View.peer hs
  have htable : s'.spanTable = s.spanTable := congrArg View.spanTable hs
  have hhome : s'.myHomeId = s.myHomeId := congrArg View.myHomeId hs
  have hsg : s'.sg = s.sg := congrArg View.sg hs
  have htable' : t'.spanTable = t.spanTable := congrArg View.spanTable ht
  have hhome' : t'.myHomeId = t.myHomeId := congrArg View.myHomeId ht
  have hsg' : t'.sg = t.sg := congrArg View.sg ht
  have hkeys' : t'.loadedKeys = t.loadedKeys := congrArg View.loadedKeys ht
  refine ⟨?_, ?_, h.singlecast, ?_, ?_, ?_, ?_, ?_, ?_, ?_⟩
  · rw [hpeer]
    exact h.lNode
  · rw [hpeer]
    exact h.rNode
  · rw [htable, hpeer]
    exact h.sender
  · rw [htable']
    exact h.receiver
  · rw [hhome, hhome']
    exact h.home
  · rw [hsg, hsg', hpeer]
    exact h.group
  · have hloaded := h.loaded
    unfold classLoaded at hloaded ⊢
    rw [hkeys', hpeer]
    exact hloaded
  · rw [htable, htable']
    exact h.fresh
  · unfold SpansMeet
    rw [htable, htable', hpeer]
    rcases h.spans with hboth | ⟨hremote, hlocal, hnonce, hfrom, hto, hsearch⟩
    · exact .inl hboth
    · refine .inr ⟨hremote, hlocal, hnonce, hfrom, hto, ?_⟩
      rcases hfsm with hsame | hidle
      · rw [hsame]
        exact hsearch
      · exact .inl hidle

/-- What a node without groups makes of a message it can open. -/
structure Received (env' : Env) (s t : S2) (con : Connection) (i j : SpanRef)
    (generator : UInt8 → SpanData) (classId : UInt8) (d : Decrypted) : Prop where
  rc : d.rc = .authOk
  con_eq : d.con = { con with classId := classId }
  plainText : d.plainText.slice 0 d.plainTextLen = s.buf.slice 0 s.length
  view : d.s.view = { t.view with
      spanTable := update t.spanTable j { t.spanTable j with
          rxSeq := (s.spanTable i).txSeq, state := .negotiated, classId := classId
          d := (env'.nextNonceGenerate (generator classId)).2 } }
  fsm : d.s.fsm = t.fsm

theorem Synchronised.received (h : Synchronised s t con i j) (henv : SameCiphers env env')
    {len : Nat} (harrives : Arrives env s i msg len) (hown : OpensOnlyOwn env env' s t i)
    (hs : Ungrouped s) (hpeer : s.peer.rNode ≠ 0) (hlen : s.length ≠ 0) :
    ∃ generator classId, Received env' s t con i j generator classId (t.decryptMsg env' con msg len) ∧
      generator s.peer.classId = (s.spanUsed env i).d ∧ t.classLoaded classId ∧
      (t.sg classId).encKey = (s.draft env i).key := by
  have hclear := hs.clearExtensions_eq env (i := i)
  have hmpans := hs.mpanExtensions_eq env i hpeer
  have hfew : (s.clearExtensions env i).length ≤ 2 := by
    rw [hclear, snExtensions]
    split <;> simp
  have hplainLen := length_plain env s i
  rw [hmpans, List.length_nil, Nat.mul_zero, Nat.zero_add] at hplainLen
  have hplain : (s.draft env i).plain ≠ [] := by
    rw [ne_eq, ← List.length_eq_zero_iff, hplainLen]
    exact hlen
  obtain ⟨r, w, classId, s', rest, hopened⟩ := h.opened henv harrives hown hfew hplain
  obtain ⟨locals, hparsed, hlocals⟩ := hopened.parsed
  obtain ⟨generator, hfound, hgenerator⟩ := hopened.found
  obtain ⟨hmpan, hmosList, hmpan'⟩ := hparsed.noGroup (by
    rw [hclear]
    exact fun e he => noGroup_snExtensions he)
  rw [hlocals] at hmpan'
  have hdecoded := harrives.decoded rest
  have hpayload := hdecoded.payload
  rw [hmpans, List.length_nil, Nat.mul_zero, Nat.add_zero] at hpayload
  have heq := hopened.finish_eq hplain
  dsimp only at heq
  rw [if_neg (fun hflag => hdecoded.flag.mp hflag hmpans), hmpan', if_pos rfl] at heq
  have hsearched : s'.spanTable = update r.1.spanTable j { r.1.spanTable j with
        classId := classId, d := (env'.nextNonceGenerate (generator classId)).2 } :=
    hfound.spanTable
  have hspan : ∃ state d, s'.spanTable j = { t.spanTable j with
        rxSeq := (s.spanTable i).txSeq, classId := classId, state := state, d := d } ∧
      d = (env'.nextNonceGenerate (generator classId)).2 := by
    obtain ⟨state, d, hheard⟩ := spanHeard_eq env' (t.heardSeq j (s.spanTable i).txSeq) j (s.clearExtensions env i)
    refine ⟨state, _, ?_, rfl⟩
    rw [hsearched, update_self, hparsed.spanTable, update_self, hheard]
    simp [heardSeq]
  obtain ⟨state, d, hspan, rfl⟩ := hspan
  have htable : s'.spanTable = update t.spanTable j (s'.spanTable j) := by
    rw [hsearched, update_self, hparsed.spanTable, update_idem]
    simp only [heardSeq, setSpan, update_idem]
  have hconfig : s'.config = t.config := hfound.attempted.config.trans hparsed.config
  have hcount := nAccepted_decryptMsg env' t con msg len
  refine ⟨generator, classId, ⟨?_, ?_, ?_, ?_, ?_⟩, hgenerator, ?_, ?_⟩
  · rw [heq]
  · rw [heq]
    simp [acceptSinglecast, hspan]
  · rw [heq]
    dsimp only
    rw [Mem.slice_shift, hplainLen]
    exact hpayload
  · have hs' : (t.decryptMsg env' con msg len).s = s'.setSpan j { s'.spanTable j with state := .negotiated } := by
      rw [heq]
      rfl
    rw [hs'] at hcount ⊢
    refine view_of_config hconfig (hfound.attempted.mpan.trans hmpan) (hfound.attempted.mosList.trans hmosList)
      (hfound.attempted.transmitted.trans hparsed.transmitted) hcount ?_
    simp only [setSpan]
    rw [htable, update_idem, update_self, hspan]
  · rw [heq]
    exact congrArg Config.fsm hconfig
  · have hloaded := hfound.loaded
    unfold classLoaded at hloaded ⊢
    rw [← show r.1.loadedKeys = t.loadedKeys from congrArg Config.loadedKeys hparsed.config]
    exact hloaded
  · rw [← hfound.key]
    exact congrArg (fun config : Config => (config.sg classId).encKey) hparsed.config.symm

end Opening

/-! ## What the node does with it -/

section Handling

variable (env : Env) {s : S2} {con : Connection}

inductive AfterMessage : FsmState → FsmState → Prop
  | same (fsm : FsmState) : AfterMessage fsm fsm
  | verified : AfterMessage .verifyingDelivery .idle

theorem AfterMessage.ne {fsm fsm' other : FsmState} (h : AfterMessage fsm fsm') (hne : fsm ≠ other)
    (hidle : .idle ≠ other) : fsm' ≠ other := by
  cases h with
  | same => exact hne
  | verified => exact hidle

theorem view_postSendDoneEvent (s : S2) (status : TxStatus) (origin : Origin) :
    (s.postSendDoneEvent id status origin).view = s.view ∧ (s.postSendDoneEvent id status origin).fsm = s.fsm := by
  simp only [postSendDoneEvent, id_eq]
  exact ⟨(view_log rfl rfl).trans (view_log rfl rfl), rfl⟩

theorem view_gotEncMsg (h : Ungrouped s) (hcon : con.rNode ≠ 0) :
    (s.gotEncMsg env id con).view = s.view ∧ AfterMessage s.fsm (s.gotEncMsg env id con).fsm := by
  have hmos : s.isNodeMos con.rNode = false := by
    simp only [isNodeMos, List.any_eq_false, beq_iff_eq, h.mosList]
    exact fun _ _ heq => hcon heq.symm
  unfold gotEncMsg
  split
  · rename_i hfsm
    split
    · simp only [hmos, Bool.false_eq_true, false_and, if_false]
      obtain ⟨hview, hidle⟩ := view_postSendDoneEvent { s.log .stopTimeout with fsm := .idle } .verified .reply
      have hlog : (s.log .stopTimeout).view = s.view := view_log rfl rfl
      refine ⟨hview.trans hlog, ?_⟩
      rw [hidle, hfsm]
      exact .verified
    · exact ⟨rfl, .same _⟩
  · exact ⟨rfl, .same _⟩

theorem deliver_cases (hcon : con.isMulticast = false) (plainText : Mem) (len : Nat) :
    (∃ buf length, (s.deliver env id con plainText len).view = { s.view with buf := buf, length := length } ∧
      (s.deliver env id con plainText len).fsm = s.fsm) ∨
    ∃ buf, ¬(buf.length = 0 ∨ buf.length > 1280) ∧ s.deliver env id con plainText len = s.sendData env id con buf := by
  unfold deliver
  split
  · exact .inl ⟨s.buf, s.length, rfl, rfl⟩
  · split
    · simp only [securityCommand, hcon, Bool.false_eq_true, if_false]
      split
      · split
        · exact .inl ⟨s.buf, s.length, rfl, rfl⟩
        · rename_i hshort
          refine .inr ⟨_, ?_, rfl⟩
          simp only [List.length_append, List.length_cons, List.length_nil]
          omega
      · exact .inl ⟨_, _, view_log rfl rfl, rfl⟩
    · exact .inl ⟨s.buf, s.length, view_log rfl rfl, rfl⟩

theorem applicationCommandHandler_opened {len : Nat}
    (hcommand : msg 0 = commandClassSecurity2 ∧ msg 1 = security2MessageEncapsulation)
    (hrc : (s.decryptMsg env con msg len).rc = .authOk)
    (hcon : (s.decryptMsg env con msg len).con.isMulticast = false)
    (hungrouped : Ungrouped (s.decryptMsg env con msg len).s)
    (hnode : (s.decryptMsg env con msg len).con.rNode ≠ 0) :
    ∃ t buf length, t.view = { (s.decryptMsg env con msg len).s.view with
        buf := buf, length := length } ∧
      AfterMessage (s.decryptMsg env con msg len).s.fsm t.fsm ∧
      (s.applicationCommandHandler env id con msg len = t ∨ ∃ answer, ¬(answer.length = 0 ∨ answer.length > 1280) ∧
          s.applicationCommandHandler env id con msg len =
            t.sendData env id (s.decryptMsg env con msg len).con answer) := by
  have heq : s.applicationCommandHandler env id con msg len =
      ((s.decryptMsg env con msg len).s.gotEncMsg env id (s.decryptMsg env con msg len).con).deliver
        env id (s.decryptMsg env con msg len).con (s.decryptMsg env con msg len).plainText
        (s.decryptMsg env con msg len).plainTextLen := by
    simp only [applicationCommandHandler, hcommand.1, hcommand.2, ne_eq, not_true_eq_false,
      if_false, show security2MessageEncapsulation ≠ security2NonceGet by decide,
      show security2MessageEncapsulation ≠ security2NonceReport by decide, if_true,
      messageEncapsulation, hrc]
  rw [heq]
  generalize s.decryptMsg env con msg len = d at *
  obtain ⟨hview, hafter⟩ := view_gotEncMsg env hungrouped hnode
  rcases deliver_cases env hcon d.plainText d.plainTextLen with
    ⟨buf, length, hdeliver, hfsm⟩ | ⟨answer, hanswer, hdeliver⟩
  · refine ⟨_, buf, length, hdeliver.trans ?_, ?_, .inl rfl⟩
    · rw [hview]
    · rw [hfsm]
      exact hafter
  · exact ⟨_, d.s.buf, d.s.length, hview, hafter, .inr ⟨answer, hanswer, hdeliver⟩⟩

/-! The completion of a frame without a fault, and the expiry of the timer, as long as no nonce is
awaited, do nothing but end a send. -/

theorem view_sendDone (s : S2) (time : Nat) (origin : Origin) : (s.sendDone id .ok time origin).view = s.view ∧
      ((s.sendDone id .ok time origin).fsm = s.fsm ∨
        s.fsm = .sendingMsg ∧ (s.sendDone id .ok time origin).fsm = .idle) := by
  unfold sendDone
  split
  · exact ⟨view_log rfl rfl, .inl rfl⟩
  · exact ⟨view_log rfl rfl, .inl rfl⟩
  · rw [if_pos rfl]
    exact ⟨view_log rfl rfl, .inl rfl⟩
  · rw [if_pos rfl]
    exact ⟨view_log rfl rfl, .inl rfl⟩
  · rename_i hfsm
    obtain ⟨hview, hidle⟩ := view_postSendDoneEvent { s with fsm := .idle } .ok origin
    exact ⟨hview, .inr ⟨hfsm, hidle⟩⟩
  · exact ⟨rfl, .inl rfl⟩

theorem view_sendFrameDone (s : S2) (time : Nat) : (s.sendFrameDoneNotify id .ok time).view = s.view ∧
      ((s.sendFrameDoneNotify id .ok time).fsm = s.fsm ∨
        s.fsm = .sendingMsg ∧ (s.sendFrameDoneNotify id .ok time).fsm = .idle) :=
  view_sendDone { s with inFlight := s.inFlight.tail } time (.frameDone s.inFlight.head?)

theorem view_timeout (hwait : s.fsm ≠ .waitNonceRaport) (hmos : s.fsm ≠ .isMosWaitReply) :
    (s.timeout env id).view = s.view ∧ ((s.timeout env id).fsm = s.fsm ∨
        s.fsm = .verifyingDelivery ∧ (s.timeout env id).fsm = .idle) := by
  unfold timeout
  split
  · rename_i hfsm
    exact absurd hfsm hmos
  · rename_i hfsm
    exact absurd hfsm hwait
  · rename_i hfsm
    obtain ⟨hview, hidle⟩ := view_postSendDoneEvent { s with fsm := .idle } .ok .timeout
    exact ⟨hview, .inr ⟨hfsm, hidle⟩⟩
  · exact ⟨rfl, .inl rfl⟩

end Handling

end ZipGateway.S2

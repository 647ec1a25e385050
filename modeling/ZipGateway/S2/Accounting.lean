import ZipGateway.S2.Ledger

/-!
# The send machine keeps accounts

Every event of the machine, and every call its callbacks make, is a sequence of entries in the
account of its sends, so what holds of all accounts holds after every run.
-/

namespace ZipGateway.S2

open Account (Entry Reaches)

def Reached (allowed : Policy) (i : Account × List Done) (s : S2) : Prop :=
  Reaches allowed i.1 ⟨s.ledger, i.2, false⟩

def Started (allowed : Policy) (i : Account × List Done) (s : S2) : Prop :=
  Reaches allowed i.1 ⟨s.ledger, i.2, true⟩

/-- What every policy here allows: to end a send by the refusal of its frame, by an authenticated
reply or by the timer, and to encrypt with an entry that is in step. -/
structure Sane (allowed : Policy) : Prop where
  refused : allowed.origin .refused
  reply : allowed.origin .reply
  timeout : allowed.origin .timeout
  usable : ∀ state, state.usable → allowed.span state

section

variable {allowed : Policy} {a : Account} {r : List Done} {s t : S2}

theorem Reached.of_ledger (h : Reached allowed (a, r) s) (hledger : t.ledger = s.ledger) :
    Reached allowed (a, r) t := by
  unfold Reached at h ⊢
  rwa [hledger]

theorem Started.of_ledger (h : Started allowed (a, r) s) (hledger : t.ledger = s.ledger) :
    Started allowed (a, r) t := by
  unfold Started at h ⊢
  rwa [hledger]

theorem Reached.entry {r' : List Done} (h : Reached allowed (a, r) s)
    (hentry : Entry allowed ⟨s.ledger, r, false⟩ ⟨t.ledger, r', false⟩) :
    Reached allowed (a, r') t :=
  h.tail hentry

theorem Started.enter (fsm : FsmState) (h : Started allowed (a, r) s)
    (hfsm : fsm.pending) (hledger : t.ledger = { s.ledger with fsm := fsm }) :
    Reached allowed (a, r) t := by
  unfold Reached
  rw [hledger]
  exact h.tail (.enter (.inl rfl) hfsm)

theorem Reached.of_sameLedger (h : Reached allowed (a, r) s) (hsame : SameLedger s t) :
    Reached allowed (a, r) t := by
  obtain hledger | ⟨hfree, hledger⟩ := hsame
  · exact h.of_ledger hledger
  · have hrest : Reached allowed (a, r) { s with fsm := .isMosWaitReply } :=
      h.entry (.rest hfree rfl)
    exact hrest.of_ledger hledger

theorem started_log_accepted (h : Reached allowed (a, r) s) (hfree : s.fsm.free) :
    Started allowed (a, r) (s.log (.accepted s.inFlight)) := by
  have hn : (s.log (.accepted s.inFlight)).nAccepted = s.nAccepted + 1 :=
    List.countP_cons_of_pos rfl
  have hledger : (s.log (.accepted s.inFlight)).ledger = { s.ledger with
        nAccepted := s.ledger.nAccepted + 1
        overlap := s.ledger.inFlight != [] || s.ledger.overlap } := by
    simp only [ledger, hn]
    rfl
  unfold Started
  rw [hledger]
  exact h.tail (.accept hfree)

end

/-! ## The send machine -/

section Machine

variable {env : Env} {callback : S2 → S2} {allowed : Policy}
variable (hcallback : Machine.Keeps (Reached allowed) callback)
include hcallback

variable {a : Account} {r : List Done} {s : S2}

theorem reached_callback_log {o : Out} (ho : Out.isEntry o = false)
    (h : Reached allowed (a, r) s) : Reached allowed (a, r) (callback (s.log o)) :=
  hcallback _ _ (h.of_ledger (ledger_log ho))

theorem reached_postSendDoneEvent (status : TxStatus) (origin : Origin)
    (h : Reached allowed (a, ⟨s.nAccepted, status, origin⟩ :: r) s) :
    Reached allowed (a, r) (s.postSendDoneEvent callback status origin) := by
  unfold postSendDoneEvent
  apply hcallback
  exact (reached_callback_log hcallback rfl h).entry .report

theorem reached_complete (status : TxStatus) (origin : Origin)
    (hpending : s.fsm.pending) (horigin : ∀ frame, origin ≠ .frameDone frame)
    (hallowed : allowed.origin origin) (h : Reached allowed (a, r) s) :
    Reached allowed (a, r) (s.complete callback status origin) := by
  apply reached_postSendDoneEvent hcallback
  exact h.entry (.complete hpending horigin hallowed)

theorem reached_sendDone (status : TxStatus) (time : Nat) (origin : Origin) (hcomplete : s.fsm.pending →
      Reached allowed (a, r) (s.complete callback status origin))
    (h : Reached allowed (a, r) s) :
    Reached allowed (a, r) (s.sendDone callback status time origin) := by
  unfold sendDone
  cases hfsm : s.fsm with
  | idle | isMosWaitReply => exact reached_callback_log hcallback rfl h
  | waitNonceRaport | verifyingDelivery =>
    dsimp only
    split
    · exact h.of_ledger (ledger_log rfl)
    · exact hcomplete (by simp [hfsm, FsmState.pending])
  | sendingMsg => exact hcomplete (by simp [hfsm, FsmState.pending])
  | sendingMulticast => exact h

theorem reached_refused (hallowed : Sane allowed) (h : Reached allowed (a, r) s) :
    Reached allowed (a, r) (s.sendDone callback .fail 0 .refused) := by
  refine reached_sendDone hcallback .fail 0 .refused (fun hpending => ?_) h
  exact reached_complete hcallback .fail .refused hpending (by simp) hallowed.refused h

theorem reached_sendFrameDoneNotify (status : TxStatus) (time : Nat)
    (hallowed : allowed.origin (.frameDone s.inFlight.head?)) (h : Reached allowed (a, r) s) :
    Reached allowed (a, r) (s.sendFrameDoneNotify callback status time) := by
  refine reached_sendDone hcallback status time _ (fun hpending => ?_) (h.entry .frameDone)
  apply reached_postSendDoneEvent hcallback
  exact h.entry (.completeByFrame hpending hallowed)

omit hcallback in
theorem ledger_sendFrame (env : Env) (s : S2) {out : Bool → Out} (owner : FrameOwner)
    (hout : ∀ ok, Out.isEntry (out ok) = false) :
    (s.sendFrame env owner out).2.ledger = { s.ledger with
        inFlight := if env.sendFrame s.nFrame then s.inFlight ++ [owner] else s.inFlight } := by
  rw [← ledger_log (s := s) (hout (env.sendFrame s.nFrame))]
  rfl

omit hcallback in
theorem reached_sendFrame {out : Bool → Out} (hout : ∀ ok, Out.isEntry (out ok) = false)
    (hpending : s.fsm.pending) (h : Reached allowed (a, r) s) :
    Reached allowed (a, r) (s.sendFrame env (.send s.nAccepted) out).2 := by
  have hledger := ledger_sendFrame env s (.send s.nAccepted) hout
  cases hok : env.sendFrame s.nFrame with
  | false =>
    rw [hok] at hledger
    exact h.of_ledger hledger
  | true =>
    rw [hok] at hledger
    refine h.entry ?_
    rw [hledger]
    exact .send hpending

theorem reached_sendRaw (hallowed : Sane allowed) (frame : Bytes)
    (hpending : s.fsm.pending) (h : Reached allowed (a, r) s) :
    Reached allowed (a, r) (s.sendRaw env callback frame) := by
  have hframe : Reached allowed (a, r) (s.sendFrame env (.send s.nAccepted) (.sendFrame s.peer frame)).2 :=
    reached_sendFrame (fun _ => rfl) hpending h
  simp only [sendRaw]
  split
  · exact hframe.of_ledger (by simp)
  · exact reached_refused hcallback hallowed hframe

theorem reached_sendNonceGet (hallowed : Sane allowed) (hpending : s.fsm.pending)
    (h : Reached allowed (a, r) s) : Reached allowed (a, r) (s.sendNonceGet env callback) := by
  have hledger := ledger_findSpanByNode env s s.peer
  apply reached_sendRaw hcallback hallowed
  · rwa [fsm_of_ledger hledger]
  · exact h.of_ledger hledger

theorem reached_encryptAndSend (hallowed : Sane allowed) (hpending : s.fsm.pending)
    (hspan : allowed.span (slotState s.spanTable s.peer)) (h : Reached allowed (a, r) s) : Reached allowed (a, r) (s.encryptAndSend env callback) := by
  have hledger := ledger_encrypt env s
  apply reached_sendRaw hcallback hallowed
  · rwa [fsm_encrypt]
  · refine h.entry ?_
    rw [hledger]
    exact .encrypt hspan

theorem reached_encryptAndSendMulti (hallowed : Sane allowed) (m : MpanRef)
    (hpending : s.fsm.pending) (h : Reached allowed (a, r) s) :
    Reached allowed (a, r) (s.encryptAndSendMulti env callback m) := by
  have hledger := ledger_encryptMulti env s m
  have hframe : Reached allowed (a, r)
      ((s.encryptMulti env m).2.sendFrame env (.send (s.encryptMulti env m).2.nAccepted)
        (.sendFrameMulti (s.encryptMulti env m).2.peer (s.encryptMulti env m).1)).2 :=
    reached_sendFrame (fun _ => rfl) (by rwa [fsm_of_ledger hledger]) (h.of_ledger hledger)
  simp only [encryptAndSendMulti]
  split
  · exact hframe
  · exact reached_refused hcallback hallowed hframe

theorem reached_sendMsgStateEnter (hallowed : Sane allowed) {started : Bool}
    (hstarted : started ∨ s.fsm.pending)
    (hspan : allowed.span (slotState s.spanTable s.peer))
    (h : Reaches allowed a ⟨s.ledger, r, started⟩) :
    Reached allowed (a, r) (s.sendMsgStateEnter env callback) := by
  have henter : ∀ fsm, fsm.pending → Reached allowed (a, r) { s with fsm := fsm } := by
    intro fsm hfsm
    exact h.tail (.enter hstarted hfsm)
  unfold sendMsgStateEnter
  split
  · have hverify : Reached allowed (a, r) ({ s with fsm := .verifyingDelivery }.log (.setTimeout sendDataTimeout)) :=
      (henter .verifyingDelivery rfl).of_ledger (ledger_log rfl)
    refine Reached.of_ledger (reached_encryptAndSend hcallback hallowed ?_ ?_ hverify) rfl
    · rfl
    · exact hspan
  · refine Reached.of_ledger (reached_encryptAndSend hcallback hallowed ?_ ?_ (henter .sendingMsg rfl)) rfl
    · rfl
    · exact hspan

theorem reached_sendMsg (hallowed : Sane allowed) (con : Connection) (buf : Bytes)
    (hfree : s.fsm.free) (h : Started allowed (a, r) s) :
    Reached allowed (a, r) (s.sendMsg env callback con buf) := by
  have hok : Started allowed (a, r) (s.spanOk env con).2 := h.of_ledger (ledger_spanOk env s con)
  unfold sendMsg
  cases hfsm : s.fsm with
  | idle | isMosWaitReply =>
    dsimp only
    split
    · rename_i huse
      exact reached_sendMsgStateEnter hcallback hallowed (.inl rfl)
        (hallowed.usable _ (usable_of_spanOk env s con huse)) (hok.of_ledger rfl)
    · refine Reached.of_ledger ?_ (ledger_log rfl)
      apply reached_sendNonceGet hcallback hallowed rfl
      exact hok.enter .waitNonceRaport rfl rfl
  | _ => simp [hfsm, FsmState.free] at hfree

theorem reached_sendMulticast (hallowed : Sane allowed) (con : Connection) (buf : Bytes)
    (hfree : s.fsm.free) (h : Started allowed (a, r) s) :
    Reached allowed (a, r) (s.sendMulticast env callback con buf) := by
  have hfind : Started allowed (a, r) ((s.setPeer con buf).findMpanByGroupId env 0 con.rNode.toUInt8 true).2 :=
    h.of_ledger (by simp)
  unfold sendMulticast
  cases hfsm : s.fsm with
  | idle | isMosWaitReply =>
    dsimp only
    split
    · apply reached_encryptAndSendMulti hcallback hallowed _ rfl
      exact hfind.enter .sendingMsg rfl rfl
    · exact hfind.enter .sendingMsg rfl rfl
  | _ => simp [hfsm, FsmState.free] at hfree

/-- A nonce report makes the machine send again: in `WAIT_NONCE_RAPORT` when it has the SOS flag, in
`VERIFYING_DELIVERY` when it has any and a retry is left. -/
def ReportAccepted (env : Env) (s : S2) (con : Connection) (buf : Mem) (len : Nat) : Prop :=
  s.isPeernode con ∧ (s.fsm = .waitNonceRaport ∧ (s.registerNonce env buf len).1 &&& nonceReportSos ≠ 0 ∨
      s.fsm = .verifyingDelivery ∧ (s.registerNonce env buf len).1 ≠ 0 ∧ s.retry ≠ 0)

theorem reached_gotNonceRaport (hallowed : Sane allowed) (con : Connection) (buf : Mem) (len : Nat)
    (hreport : s.fsm = .verifyingDelivery → s.isPeernode con → s.retry = 0 →
      (s.registerNonce env buf len).1 ≠ 0 → allowed.origin .nonceReport)
    (hspan : ReportAccepted env s con buf len →
      allowed.span (slotState (s.registerNonce env buf len).2.spanTable s.peer))
    (h : Reached allowed (a, r) s) :
    Reached allowed (a, r) (s.gotNonceRaport env callback con buf len) := by
  have hledger := ledger_registerNonce env s buf len
  have hregister : Reached allowed (a, r) (s.registerNonce env buf len).2 := h.of_ledger hledger
  have hpeer' := peer_registerNonce env s buf len
  unfold gotNonceRaport emitSynchronizationEvent
  cases hfsm : s.fsm with
  | idle | isMosWaitReply =>
    exact reached_callback_log hcallback rfl (h.of_ledger (by simp))
  | waitNonceRaport =>
    dsimp only
    split
    · rename_i hpeer
      split
      · rename_i hflags
        have hspan' := hspan ⟨hpeer, .inl ⟨hfsm, hflags⟩⟩
        rw [← hpeer'] at hspan'
        refine reached_sendMsgStateEnter hcallback hallowed (.inr ?_) hspan' hregister
        simp [fsm_of_ledger hledger, hfsm, FsmState.pending]
      · exact hregister
    · exact reached_callback_log hcallback rfl h
  | sendingMsg =>
    dsimp only
    split
    · exact h
    · exact reached_callback_log hcallback rfl h
  | verifyingDelivery =>
    dsimp only
    split
    · rename_i hpeer
      split
      · exact hregister
      · rename_i hflags
        have hdrop := ledger_dropPayload (s.registerNonce env buf len).2 (s.registerNonce env buf len).1
        have hreached := hregister.of_ledger hdrop
        have hpending : FsmState.pending
            ((s.registerNonce env buf len).2.dropPayload (s.registerNonce env buf len).1).fsm := by
          rw [fsm_of_ledger hdrop, fsm_of_ledger hledger, hfsm]
          rfl
        split
        all_goals
          rename_i hretry
          rw [retry_dropPayload, retry_registerNonce] at hretry
        · have horigin := hreport hfsm hpeer hretry hflags
          exact reached_complete hcallback _ _ hpending (by simp) horigin hreached
        · have hspan' := hspan ⟨hpeer, .inr ⟨hfsm, hflags, hretry⟩⟩
          rw [← hpeer', ← spanTable_dropPayload _ (s.registerNonce env buf len).1,
            ← peer_dropPayload _ (s.registerNonce env buf len).1] at hspan'
          exact reached_sendMsgStateEnter hcallback hallowed (.inr hpending) hspan' hreached
    · exact reached_callback_log hcallback rfl h
  | sendingMulticast => exact h

theorem reached_gotEncMsg (hallowed : Sane allowed) (con : Connection)
    (hspan : s.fsm = .verifyingDelivery → s.isPeernode con →
      allowed.span (slotState s.spanTable s.peer)) (h : Reached allowed (a, r) s) :
    Reached allowed (a, r) (s.gotEncMsg env callback con) := by
  unfold gotEncMsg
  cases hfsm : s.fsm with
  | verifyingDelivery =>
    have hpending : FsmState.pending s.fsm := by simp [hfsm, FsmState.pending]
    dsimp only
    split
    · rename_i hpeer
      split
      · have hsame : slotState s.spanTable { s.peer with txOptions := s.peer.txOptions &&& ~~~txoptionVerifyDelivery } =
              slotState s.spanTable s.peer := slotState_congr rfl rfl
        refine reached_sendMsgStateEnter hcallback hallowed (.inr rfl) ?_ (h.of_ledger ?_)
        · exact hsame ▸ hspan hfsm hpeer
        · simp only [ledger, hfsm]
          rfl
      · apply reached_postSendDoneEvent hcallback
        exact h.entry (.complete hpending (by simp) hallowed.reply)
    · exact h
  | _ => exact h

theorem reached_timeout (hallowed : Sane allowed) (h : Reached allowed (a, r) s) :
    Reached allowed (a, r) (s.timeout env callback) := by
  unfold timeout
  cases hfsm : s.fsm with
  | isMosWaitReply =>
    refine Reached.of_ledger ?_ (ledger_sendNonceReport ..)
    exact h.entry (.rest (by simp [ledger, hfsm, FsmState.free]) rfl)
  | waitNonceRaport | verifyingDelivery =>
    exact reached_complete hcallback _ _ (by simp [hfsm, FsmState.pending]) (by simp) hallowed.timeout h
  | _ => exact h

/-! ## The entry points -/

theorem reached_sendDataAllCast (hallowed : Sane allowed) (con : Connection) (buf : Bytes)
    (cast : Cast) (h : Reached allowed (a, r) s) :
    Reached allowed (a, r) (s.sendDataAllCast env callback con buf cast) := by
  unfold sendDataAllCast
  split
  · exact h
  · rename_i haccept
    have hfree : FsmState.free s.fsm := by
      cases hfsm : s.fsm <;> simp_all [isSendDataBusy, FsmState.free]
    have hstarted := started_log_accepted h hfree
    cases cast with
    | sendMulticast => exact reached_sendMulticast hcallback hallowed con buf hfree hstarted
    | sendMsg => exact reached_sendMsg hcallback hallowed con buf hfree hstarted
    | sendFollowUp =>
      dsimp only
      split
      · exact reached_sendMsg hcallback hallowed con buf hfree (hstarted.of_ledger rfl)
      · exact reached_sendMsg hcallback hallowed con buf hfree hstarted

theorem reached_sendData (hallowed : Sane allowed) (con : Connection) (buf : Bytes)
    (h : Reached allowed (a, r) s) : Reached allowed (a, r) (s.sendData env callback con buf) := by
  unfold sendData
  exact reached_sendDataAllCast hcallback hallowed _ _ _ h

omit hcallback in
theorem reached_inclusionSendFrame (con : Connection) (frame : Bytes) (h : Reached allowed (a, r) s) :
    Reached allowed (a, r) (s.sendFrame env .inclusion (.inclusionSendFrame s.fsm con frame)).2 := by
  have hledger : (s.sendFrame env .inclusion (.inclusionSendFrame s.fsm con frame)).2.ledger = { s.ledger with
        inFlight := if env.sendFrame s.nFrame then s.inFlight ++ [.inclusion] else s.inFlight
        overlap := s.fsm.pending || s.ledger.overlap } := rfl
  refine h.entry ?_
  rw [hledger]
  have hentry := fun frames => @Entry.inclusion allowed s.ledger r frames
  cases env.sendFrame s.nFrame with
  | false =>
    have hnone := hentry []
    rw [List.append_nil] at hnone
    exact hnone
  | true => exact hentry [.inclusion]

theorem reached_call (hallowed : Sane allowed) (c : Call) (h : Reached allowed (a, r) s) :
    Reached allowed (a, r) (s.call env callback c) := by
  unfold call
  cases c with
  | sendData con buf => exact reached_sendData hcallback hallowed con buf h
  | sendDataMulticast con buf => exact reached_sendDataAllCast hcallback hallowed _ _ _ h
  | sendDataWithKeyset con longRange buf | sendDataMulticastWithKeyset con longRange buf
  | sendDataFollowUpWithKeyset con longRange buf =>
    dsimp only [sendDataWithKeyset]
    exact reached_sendDataAllCast hcallback hallowed _ _ _ h
  | inclusionSendFrame con frame => exact reached_inclusionSendFrame con frame h
  | networkKeyUpdate classId group =>
    dsimp only [networkKeyUpdate]
    split
    · exact h
    · exact h.of_ledger rfl
  | clearLoadedKeys => exact h.of_ledger rfl
  | freeMpan ownerId groupId => exact h.of_ledger (ledger_freeMpan s ownerId groupId)

theorem reached_deliver (hallowed : Sane allowed) (src : Connection) (plainText : Mem) (len : Nat) (h : Reached allowed (a, r) s) :
    Reached allowed (a, r) (s.deliver env callback src plainText len) := by
  unfold deliver securityCommand
  split
  · exact h
  · split
    · split
      · exact h
      · split
        · dsimp only
          split
          · exact h
          · exact reached_sendData hcallback hallowed _ _ h
        · exact reached_callback_log hcallback rfl (h.of_ledger rfl)
    · apply hcallback
      exact h.of_ledger (ledger_log rfl)

def ReplyAccepted (env : Env) (s : S2) (con : Connection) (buf : Mem) (len : Nat) : Prop :=
  (s.decryptMsg env con buf len).rc = .authOk ∧ (s.decryptMsg env con buf len).s.fsm = .verifyingDelivery ∧
    (s.decryptMsg env con buf len).s.isPeernode (s.decryptMsg env con buf len).con

theorem reached_messageEncapsulation (hallowed : Sane allowed) (src : Connection) (buf : Mem) (len : Nat)
    (hspan : ReplyAccepted env s src buf len → allowed.span (slotState (s.decryptMsg env src buf len).s.spanTable
        (s.decryptMsg env src buf len).s.peer))
    (h : Reached allowed (a, r) s) :
    Reached allowed (a, r) (s.messageEncapsulation env callback src buf len) := by
  have hdecrypt := h.of_sameLedger (sameLedger_decryptMsg env s src buf len)
  simp only [messageEncapsulation]
  cases hrc : (s.decryptMsg env src buf len).rc with
  | authOk =>
    apply reached_deliver hcallback hallowed
    refine reached_gotEncMsg hcallback hallowed _ (fun hfsm hpeer => ?_) hdecrypt
    exact hspan ⟨hrc, hfsm, hpeer⟩
  | authFail => exact reached_callback_log hcallback rfl hdecrypt
  | parseFail | sequenceFail => exact hdecrypt

omit hcallback in
theorem ledger_nonceGet (src : Connection) (buf : Mem) (len : Nat) :
    (s.nonceGet env src buf len).ledger = s.ledger := by
  unfold nonceGet
  split
  · dsimp only
    split <;> simp
  · rfl

theorem reached_plainCommand (src : Connection) (buf : Mem) (len : Nat) (h : Reached allowed (a, r) s) :
    Reached allowed (a, r) (s.plainCommand callback src buf len) := by
  unfold plainCommand
  split_ifs
  · exact h
  · exact h
  · exact reached_callback_log hcallback rfl (h.of_ledger rfl)

end Machine

/-! ## Runs -/

variable (env : Env) (depth : Nat)

def EventAllowed (allowed : Policy) (s : S2) : Event → Prop
  | .sendFrameDone .. => allowed.origin (.frameDone s.inFlight.head?)
  | .receive con buf len =>
    (buf 1 = security2NonceReport → (s.fsm = .verifyingDelivery → s.isPeernode con → s.retry = 0 →
        (s.registerNonce env buf len).1 ≠ 0 → allowed.origin .nonceReport) ∧
      (ReportAccepted env s con buf len → allowed.span (slotState (s.registerNonce env buf len).2.spanTable s.peer))) ∧
    (buf 1 = security2MessageEncapsulation → ReplyAccepted env s con buf len →
      allowed.span (slotState (s.decryptMsg env con buf len).s.spanTable (s.decryptMsg env con buf len).s.peer))
  | _ => True

section

variable {env depth} {allowed : Policy} {a : Account} {s : S2}

variable (env depth) in
theorem keeps_reached_callback (hallowed : Sane allowed) : Machine.Keeps (Reached allowed) (callback env depth) :=
  Machine.keeps_reenter (fun _ _ h => Reached.of_ledger h rfl)
    (fun _ hcallback c _ _ h => reached_call hcallback hallowed c h) depth

theorem reached_step (hallowed : Sane allowed) (e : Event) (he : EventAllowed env allowed s e)
    (h : Reached allowed (a, []) s) : Reached allowed (a, []) (s.step env depth e) := by
  have hcallback := keeps_reached_callback env depth hallowed
  cases e with
  | call c => exact reached_call hcallback hallowed c h
  | sendFrameDone status time => exact reached_sendFrameDoneNotify hcallback status time he h
  | timeout => exact reached_timeout hcallback hallowed h
  | receive con buf len =>
    unfold step applicationCommandHandler
    dsimp only
    split_ifs with hclass hget hreport hencap
    · exact h
    · exact h.of_ledger (ledger_nonceGet con buf len)
    · obtain ⟨horigin, hspan⟩ := he.1 hreport
      exact reached_gotNonceRaport hcallback hallowed con buf len horigin hspan h
    · exact reached_messageEncapsulation hcallback hallowed con buf len (he.2 hencap) h
    · exact reached_plainCommand hcallback con buf len h

theorem reached_run (hallowed : Sane allowed) {s₀ : S2} {events : List Event}
    (hevents : Machine.Admissible (step env depth) (EventAllowed env allowed) s₀ events) :
    Reaches allowed ⟨s₀.ledger, [], false⟩ ⟨(Machine.run (step env depth) s₀ events).ledger, [], false⟩ := by
  have hstep : ∀ t e, EventAllowed env allowed t e → Reached allowed (⟨s₀.ledger, [], false⟩, []) t →
      Reached allowed (⟨s₀.ledger, [], false⟩, []) (t.step env depth e) :=
    fun t e he ht => reached_step hallowed e he ht
  exact Machine.run_invariant_of_admissible hstep hevents Relation.ReflTransGen.refl

end

def Policy.any : Policy where
  origin := fun _ => True
  span := fun _ => True

theorem sane_any : Sane Policy.any :=
  ⟨trivial, trivial, trivial, fun _ _ => trivial⟩

theorem eventAllowed_any (s : S2) (e : Event) : EventAllowed env Policy.any s e := by
  cases e with
  | receive con buf len => exact ⟨fun _ => ⟨fun _ _ _ _ => trivial, fun _ => trivial⟩, fun _ _ => trivial⟩
  | _ => trivial

def doneSends (s : S2) : List Nat :=
  s.ledger.done.map Done.send

section Runs

variable (home : UInt32) (sg : UInt8 → SecGroup) (loadedKeys : UInt8) (spanTable : SpanRef → Span)

theorem balanced_start : Account.Balanced ⟨(start home sg loadedKeys spanTable).ledger, [], false⟩ :=
  List.Perm.refl _

/-- After every run, the accepted sends are the completed ones and, in the three states that carry
one, the last send; each of them is completed at most once. -/
theorem send_accounting (events : List Event) :
    let s := Machine.run (step env depth) (start home sg loadedKeys spanTable) events
    s.nAccepted = s.doneSends.length + (if s.fsm.pending then 1 else 0) ∧
    s.doneSends.Nodup ∧
    (∀ n ∈ s.doneSends, 1 ≤ n ∧ n ≤ s.nAccepted) ∧
    ∀ n, 1 ≤ n → n ≤ s.nAccepted → n ∈ s.doneSends ∨ (s.fsm.pending ∧ n = s.nAccepted) := by
  intro s
  have hevents : Machine.Admissible (step env depth) (EventAllowed env Policy.any)
      (start home sg loadedKeys spanTable) events :=
    Machine.admissible_of_forall (fun t e => eventAllowed_any env t e) _ events
  have hbalanced := (reached_run sane_any hevents).invariant
    (fun _ _ => Account.balanced_entry) (balanced_start home sg loadedKeys spanTable)
  have hbooks : (s.doneSends ++ if s.fsm.pending then [s.nAccepted] else []).Perm
      (List.range' 1 s.nAccepted) := by
    simpa [Account.Balanced, Account.doneSends, Account.current, doneSends, ledger] using hbalanced
  have hmem : ∀ n, n ∈ (s.doneSends ++ if s.fsm.pending then [s.nAccepted] else []) ↔
      1 ≤ n ∧ n ≤ s.nAccepted := by
    intro n
    rw [hbooks.mem_iff, List.mem_range'_1]
    omega
  refine ⟨?_, ?_, fun n hn => (hmem n).mp (List.mem_append_left _ hn), fun n hlow hhigh => ?_⟩
  · have hlength := hbooks.length_eq
    rw [List.length_append, List.length_range'] at hlength
    rw [← hlength]
    split <;> rfl
  · have hnodup := hbooks.nodup_iff.mpr List.nodup_range'
    exact (List.nodup_append.mp hnodup).1
  · have hin := (hmem n).mpr ⟨hlow, hhigh⟩
    rcases List.mem_append.mp hin with hdone | hpending
    · exact .inl hdone
    · right
      split at hpending
      · exact ⟨by assumption, List.mem_singleton.mp hpending⟩
      · cases hpending

/-- The layer below completes only frames that are under way, and no nonce report of the peer comes
when the send has no retry left. -/
def CompletesInOrder (s : S2) : Event → Prop
  | .sendFrameDone .. => s.inFlight ≠ []
  | .receive con buf len =>
    ¬(buf 1 = security2NonceReport ∧ s.fsm = .verifyingDelivery ∧ s.isPeernode con ∧ s.retry = 0 ∧
      (s.registerNonce env buf len).1 ≠ 0)
  | _ => True

def Policy.traceable : Policy where
  origin := Account.Traceable
  span := fun _ => True

theorem sane_traceable : Sane Policy.traceable :=
  ⟨⟨by simp, by simp⟩, ⟨by simp, by simp⟩, ⟨by simp, by simp⟩, fun _ _ => trivial⟩

theorem eventAllowed_of_completesInOrder {s : S2} {e : Event}
    (he : s.CompletesInOrder env e) : EventAllowed env Policy.traceable s e := by
  cases e with
  | call c => trivial
  | timeout => trivial
  | sendFrameDone status time =>
    refine ⟨by simp, ?_⟩
    intro hnone
    rw [Origin.frameDone.injEq, List.head?_eq_none_iff] at hnone
    exact he hnone
  | receive con buf len =>
    refine ⟨fun hcommand => ⟨fun hfsm hpeer hretry hflags => ?_, fun _ => trivial⟩, fun _ _ => trivial⟩
    exact absurd ⟨hcommand, hfsm, hpeer, hretry, hflags⟩ he

/-- In a run in which no send begins, and no frame of the inclusion machine is handed down during a
send, while a frame of another owner may be under way, every completion is that of its own send. -/
theorem send_attribution (events : List Event) (hevents : Machine.Admissible (step env depth) (CompletesInOrder env)
      (start home sg loadedKeys spanTable) events)
    (hoverlap : ∀ o ∈ (Machine.run (step env depth) (start home sg loadedKeys spanTable)
      events).out, Out.isOverlap o = false) :
    ∀ d ∈ (Machine.run (step env depth) (start home sg loadedKeys spanTable) events).ledger.done,
      Account.Attributed d := by
  have hallowed := hevents.mono fun t e he => eventAllowed_of_completesInOrder env he
  have hstart : Account.OwnFrames ⟨(start home sg loadedKeys spanTable).ledger, [], false⟩ := by
    intro _
    exact ⟨by simp [ledger, start, init], by simp [ledger, start, init]⟩
  have hown := (reached_run sane_traceable hallowed).invariant
    (fun _ _ => Account.ownFrames_entry fun _ h => h) hstart
  have hnone : (Machine.run (step env depth) (start home sg loadedKeys spanTable) events).ledger.overlap = false := by
    simpa [ledger, List.any_eq_false] using hoverlap
  intro d hd
  exact (hown hnone).1 d (List.mem_append_left _ hd)

end Runs

/-! ## A completion that comes late -/

/-- Surroundings to compute with: a cipher that appends eight zeros for its tag, a layer below that
takes every frame, and callbacks that do nothing. -/
def sampleEnv : Env where
  ccmEncryptAndAuth := fun _ _ _ text => text ++ List.replicate 8 0
  ccmDecryptAndAuth := fun _ _ _ text =>
    if text.drop (text.length - 8) = List.replicate 8 0 then (text.length - 8, text) else (0, text)
  nextNonceInstantiate := fun eiSender _ _ => { rNonce := eiSender, rest := Vector.replicate 17 0 }
  nextNonceGenerate := fun d => (d.rNonce, d)
  aes128EcbEncrypt := fun input _ => input
  random := fun n => Vector.replicate 16 (UInt8.ofNat n)
  sendFrame := fun _ => true
  react := fun _ => []
  commandsSupported := fun _ _ => []
  stack := fun _ => (Block.zero, Block.zero)

def sampleCon (txOptions : UInt8) : Connection :=
  { zeroConnection with lNode := 1, rNode := 2, txOptions := txOptions }

def sampleSpans (first : Span → Span) : SpanRef → Span :=
  fun i => if i = 0 then first ((init 0).spanTable 0) else (init 0).spanTable i

def sampleStart : S2 :=
  start 0 (init 0).sg 1 <| sampleSpans fun span =>
    { span with lnode := 1, rnode := 2, state := .negotiated }

def lateCompletion : List Event :=
  [ .call (.sendData (sampleCon txoptionVerifyDelivery) [0x20, 0x02]), .receive (sampleCon 0)
      (.ofBytes [0x9F, 0x03, 0x05, 0, 0x20, 0x03, 0xFF, 0, 0, 0, 0, 0, 0, 0, 0]) 15,
    .call (.sendData (sampleCon 0) [0x20, 0x01, 0xFF]),
    .sendFrameDone .noAck 0 ]

theorem lateCompletion_done : (Machine.run (step sampleEnv 0) sampleStart lateCompletion).ledger.done =
      [⟨2, .noAck, .frameDone (some (.send 1))⟩, ⟨1, .verified, .reply⟩] := by
  decide +kernel

/-- The second send is reported unacknowledged because of the frame of the first. -/
theorem lateCompletion_misattributed : Machine.Admissible (step sampleEnv 0) (CompletesInOrder sampleEnv) sampleStart
      lateCompletion ∧
    ¬∀ d ∈ (Machine.run (step sampleEnv 0) sampleStart lateCompletion).ledger.done, Account.Attributed d := by
  refine ⟨⟨trivial, ?_, trivial, ?_, trivial⟩, ?_⟩
  · rintro ⟨hcommand, -⟩
    revert hcommand
    decide
  · have hflight : (Machine.run (step sampleEnv 0) sampleStart
        (lateCompletion.take 3)).inFlight = [.send 1, .send 2] := by
      decide
    intro hnone
    exact absurd (hflight.symm.trans hnone) (by simp)
  · rw [lateCompletion_done]
    intro hall
    have hsecond := hall ⟨2, .noAck, .frameDone (some (.send 1))⟩ (by simp)
    simp [Account.Attributed] at hsecond

def promptCompletion : List Event :=
  [ .call (.sendData (sampleCon txoptionVerifyDelivery) [0x20, 0x02]), .sendFrameDone .ok 10, .receive (sampleCon 0)
      (.ofBytes [0x9F, 0x03, 0x05, 0, 0x20, 0x03, 0xFF, 0, 0, 0, 0, 0, 0, 0, 0]) 15,
    .call (.sendData (sampleCon 0) [0x20, 0x01, 0xFF]),
    .sendFrameDone .noAck 0 ]

theorem promptCompletion_attributed : (Machine.run (step sampleEnv 0) sampleStart promptCompletion).doneSends = [2, 1] ∧
    ∀ d ∈ (Machine.run (step sampleEnv 0) sampleStart promptCompletion).ledger.done, Account.Attributed d := by
  refine ⟨by decide +kernel, ?_⟩
  apply send_attribution
  · refine ⟨trivial, ?_, ?_, trivial, ?_, trivial⟩
    · have hflight : (Machine.run (step sampleEnv 0) sampleStart (promptCompletion.take 1)).inFlight = [.send 1] := by
        decide
      intro hnone
      exact absurd (hflight.symm.trans hnone) (by simp)
    · rintro ⟨hcommand, -⟩
      revert hcommand
      decide +kernel
    · have hflight : (Machine.run (step sampleEnv 0) sampleStart (promptCompletion.take 4)).inFlight = [.send 2] := by
        decide +kernel
      intro hnone
      exact absurd (hflight.symm.trans hnone) (by simp)
  · decide

end ZipGateway.S2

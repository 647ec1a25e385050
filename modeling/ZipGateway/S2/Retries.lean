import ZipGateway.S2.Accounting
import ZipGateway.S2.Frame

/-!
# Attempts and retries

The retry counter belongs to the context and not to a send. It is set to 2 when a send begins and decremented
when `S2_encrypt_and_send` returns. A frame that is refused completes its send before that, and the callback
may begin the next send, which is the one the decrement then counts against. One such send finds its counter
at 0 when its first frame is out; when the callback of a refused frame runs inside the callback of another,
the counter of the third send wraps.
-/

namespace ZipGateway.S2

def attemptsIn (n : Nat) : List Out → Nat
  | [] => 0
  | .encryptAndSend _ :: out => attemptsIn n out + if out.countP Out.isAccepted = n then 1 else 0
  | _ :: out => attemptsIn n out

def attempts (s : S2) (n : Nat) : Nat :=
  attemptsIn n s.out

/-- No send was encrypted more than twice, and the counter is not above the 2 it is set to. A decrement of 0
leaves it there at the end of the event unless a callback sets it again, and of the surroundings that do so
there are others that stop before. -/
structure RetryBounded (s : S2) : Prop where
  attempts : ∀ n, s.attempts n ≤ 2
  retry    : s.retry ≤ 2

/-! ## What the bound is about -/

structure Effort where
  retry     : UInt8
  nAccepted : Nat
  attempts  : Nat → Nat

def effort (s : S2) : Effort :=
  ⟨s.retry, s.nAccepted, s.attempts⟩

theorem retry_effort (s : S2) : s.effort.retry = s.retry := rfl

theorem nAccepted_effort (s : S2) : s.effort.nAccepted = s.nAccepted := rfl

theorem attempts_effort (s : S2) : s.effort.attempts = s.attempts := rfl

theorem attempts_log {s : S2} {o : Out} (ho : Out.encrypted o = none) : (s.log o).attempts = s.attempts := by
  funext n
  cases o with
  | encryptAndSend => cases ho
  | _ => rfl

theorem effort_log {s : S2} {o : Out} (ho : Out.encrypted o = none) (haccepted : Out.isAccepted o = false) :
    (s.log o).effort = s.effort := by
  have hcount : (s.log o).nAccepted = s.nAccepted := by
    simp [nAccepted, log, haccepted]
  unfold effort
  rw [attempts_log ho, hcount]
  rfl

theorem view_effort : DecryptFrameView effort where
  update  := fun s _ _ _ _ _ _ _ => rfl
  log     := fun s o ho => by
    apply effort_log <;> cases o <;> first | rfl | cases ho
  attempt := fun s _ _ _ _ _ _ => effort_log rfl rfl
  rest    := fun s con => by
    unfold gotEncMsgMos
    split
    · exact effort_log (o := .setTimeout 10) rfl rfl
    · exact effort_log (o := .setTimeout 10) rfl rfl
    · rfl

theorem view_fsm : FrameView S2.fsm where
  update := fun _ _ _ _ _ _ _ _ => rfl
  log    := fun _ _ _ => rfl

/-- The counter of the send in hand, while `k` sends that were completed inside `S2_encrypt_and_send` have
yet to decrement it. -/
structure Bounded (k : Nat) (s : S2) : Prop where
  attempts  : ∀ n, s.attempts n ≤ 2
  fresh     : ∀ n, s.nAccepted < n → s.attempts n = 0
  low       : k ≤ s.retry.toNat
  high      : s.retry.toNat ≤ 2
  waiting   : s.fsm = .waitNonceRaport → k < s.retry.toNat ∧ s.attempts s.nAccepted = 0
  verifying : s.fsm = .verifyingDelivery → s.retry.toNat + s.attempts s.nAccepted ≤ 2

structure Ready (k : Nat) (s : S2) : Prop where
  attempts : ∀ n, s.attempts n ≤ 2
  fresh    : ∀ n, s.nAccepted < n → s.attempts n = 0
  low      : k < s.retry.toNat
  high     : s.retry.toNat + s.attempts s.nAccepted ≤ 2

section Effort

variable {k : Nat} {s t : S2}

theorem Bounded.of_effort (h : Bounded k s) (heffort : t.effort = s.effort)
    (hfsm : t.fsm = s.fsm ∨ t.fsm.free) : Bounded k t := by
  obtain ⟨hretry, hcount, hattempts⟩ := (Effort.mk.injEq ..).mp heffort
  rcases hfsm with hfsm | hfree
  · constructor
    all_goals simp only [hretry, hcount, hattempts, hfsm]
    exacts [h.attempts, h.fresh, h.low, h.high, h.waiting, h.verifying]
  · constructor
    all_goals simp only [hretry, hcount, hattempts]
    · exact h.attempts
    · exact h.fresh
    · exact h.low
    · exact h.high
    · intro hfsm
      simp [hfsm, FsmState.free] at hfree
    · intro hfsm
      simp [hfsm, FsmState.free] at hfree

theorem Bounded.same (h : Bounded k s) (heffort : t.effort = s.effort) (hfsm : t.fsm = s.fsm) : Bounded k t :=
  h.of_effort heffort (.inl hfsm)

theorem Bounded.log (h : Bounded k s) {o : Out} (ho : Out.isEntry o = false) : Bounded k (s.log o) := by
  refine h.same (effort_log ?_ ?_) rfl <;> cases o <;> first | rfl | cases ho

theorem Ready.of_effort (h : Ready k s) (heffort : t.effort = s.effort) : Ready k t := by
  obtain ⟨hretry, hcount, hattempts⟩ := (Effort.mk.injEq ..).mp heffort
  constructor
  all_goals simp only [hretry, hcount, hattempts]
  exacts [h.attempts, h.fresh, h.low, h.high]

theorem Bounded.ready_of_waiting (h : Bounded k s) (hfsm : s.fsm = .waitNonceRaport) : Ready k s := by
  have hwaiting := h.waiting hfsm
  have hhigh := h.high
  exact ⟨h.attempts, h.fresh, hwaiting.1, by omega⟩

theorem Bounded.ready_of_verifying (h : Bounded 0 s) (hfsm : s.fsm = .verifyingDelivery) (hretry : s.retry ≠ 0) :
    Ready 0 s := by
  refine ⟨h.attempts, h.fresh, ?_, h.verifying hfsm⟩
  have hne : s.retry.toNat ≠ 0 := fun hzero => hretry (UInt8.toNat_inj.mp hzero)
  omega

theorem toNat_decrement (h : k < s.retry.toNat) : (s.retry - 1).toNat = s.retry.toNat - 1 := by
  rw [UInt8.toNat_sub_of_le]
  · rfl
  · rw [UInt8.le_iff_toNat_le, UInt8.toNat_one]
    omega

/-- Whoever completed a send inside `S2_encrypt_and_send` decrements the counter of the next. -/
theorem Bounded.decrement (h : Bounded (k + 1) s) : Bounded k { s with retry := s.retry - 1 } := by
  have hlow := h.low
  have hhigh := h.high
  have hretry := toNat_decrement (k := k) hlow
  refine ⟨h.attempts, h.fresh, ?_, ?_, fun hfsm => ?_, fun hfsm => ?_⟩
  · simp only [hretry]
    omega
  · simp only [hretry]
    omega
  · have hwaiting := h.waiting hfsm
    refine ⟨?_, hwaiting.2⟩
    simp only [hretry]
    omega
  · have hverifying := h.verifying hfsm
    simp only [hretry]
    exact le_trans (Nat.add_le_add_right (Nat.sub_le _ 1) _) hverifying

structure Spent (k : Nat) (s : S2) : Prop where
  attempts : ∀ n, s.attempts n ≤ 2
  fresh    : ∀ n, s.nAccepted < n → s.attempts n = 0
  low      : k < s.retry.toNat
  retry    : s.retry.toNat ≤ 2
  high     : s.retry.toNat + s.attempts s.nAccepted ≤ 3

theorem Spent.of_effort (h : Spent k s) (heffort : t.effort = s.effort) : Spent k t := by
  obtain ⟨hretry, hcount, hattempts⟩ := (Effort.mk.injEq ..).mp heffort
  constructor
  all_goals simp only [hretry, hcount, hattempts]
  exacts [h.attempts, h.fresh, h.low, h.retry, h.high]

theorem Spent.idle (h : Spent k s) : Bounded (k + 1) { s with fsm := .idle } :=
  ⟨h.attempts, h.fresh, h.low, h.retry, (nomatch ·), (nomatch ·)⟩

theorem Spent.decrement (h : Spent k s) (hfsm : s.fsm ≠ .waitNonceRaport) :
    Bounded k { s with retry := s.retry - 1 } := by
  have hlow := h.low
  have hhigh := h.high
  have hmax := h.retry
  have hretry := toNat_decrement (k := k) hlow
  refine ⟨h.attempts, h.fresh, ?_, ?_, fun hwaiting => absurd hwaiting hfsm, fun _ => ?_⟩
  all_goals simp only [hretry]
  · omega
  · omega
  · change s.retry.toNat - 1 + s.attempts s.nAccepted ≤ 2
    omega

theorem attempts_log_encryptAndSend (s : S2) (span : SpanState) (n : Nat) :
    (s.log (.encryptAndSend span)).attempts n = s.attempts n + if s.nAccepted = n then 1 else 0 := rfl

theorem attempts_encrypt (env : Env) (s : S2) (n : Nat) :
    (s.encrypt env).2.attempts n = s.attempts n + if s.nAccepted = n then 1 else 0 := by
  rw [← attempts_effort, view_effort.encrypt, attempts_effort, attempts_log_encryptAndSend,
    ← attempts_effort, ← nAccepted_effort, view_effort.findSpanByNode, attempts_effort, nAccepted_effort]

theorem nAccepted_log_encryptAndSend (s : S2) (span : SpanState) :
    (s.log (.encryptAndSend span)).nAccepted = s.nAccepted := by
  simp [nAccepted, log, Out.isAccepted]

theorem nAccepted_encrypt (env : Env) (s : S2) : (s.encrypt env).2.nAccepted = s.nAccepted := by
  rw [← nAccepted_effort, view_effort.encrypt, nAccepted_effort, nAccepted_log_encryptAndSend,
    ← nAccepted_effort, view_effort.findSpanByNode, nAccepted_effort]

theorem retry_log (s : S2) (o : Out) : (s.log o).retry = s.retry := rfl

theorem retry_encrypt (env : Env) (s : S2) : (s.encrypt env).2.retry = s.retry := by
  rw [← retry_effort, view_effort.encrypt, retry_effort, retry_log, ← retry_effort,
    view_effort.findSpanByNode, retry_effort]

theorem Ready.encrypt (h : Ready k s) (env : Env) : Spent k (s.encrypt env).2 := by
  have hlow := h.low
  have hhigh := h.high
  refine ⟨fun n => ?_, fun n hn => ?_, ?_, ?_, ?_⟩
  · rw [attempts_encrypt]
    have hn := h.attempts n
    split
    next hcurrent =>
      rw [← hcurrent]
      omega
    next => omega
  · rw [nAccepted_encrypt] at hn
    rw [attempts_encrypt, if_neg (by omega), h.fresh n hn]
  · rwa [retry_encrypt]
  · rw [retry_encrypt]
    omega
  · rw [retry_encrypt, nAccepted_encrypt, attempts_encrypt, if_pos rfl]
    omega

end Effort

/-! ## The send machine -/

section Machine

variable {env : Env} {callback : S2 → S2} {k : Nat} {s : S2}

def Kept (k : Nat) (callback : S2 → S2) : Prop :=
  ∀ s, Bounded k s → Bounded k (callback s)

theorem bounded_postSendDoneEvent (hcallback : Kept k callback) (status : TxStatus) (origin : Origin)
    (h : Bounded k s) : Bounded k (s.postSendDoneEvent callback status origin) := by
  unfold postSendDoneEvent
  apply hcallback
  refine (hcallback _ (h.log rfl)).same (effort_log rfl rfl) rfl

theorem bounded_complete (hcallback : Kept k callback) (status : TxStatus) (origin : Origin)
    (h : Bounded k { s with fsm := .idle }) : Bounded k (s.complete callback status origin) :=
  bounded_postSendDoneEvent hcallback status origin h

theorem Bounded.idle (h : Bounded k s) : Bounded k { s with fsm := .idle } :=
  h.of_effort rfl (.inr rfl)

theorem bounded_sendDone (hcallback : Kept k callback) (status : TxStatus) (time : Nat) (origin : Origin)
    (h : Bounded k s) : Bounded k (s.sendDone callback status time origin) := by
  unfold sendDone
  split
  · exact hcallback _ (h.log rfl)
  · exact hcallback _ (h.log rfl)
  · split
    · exact h.log rfl
    · exact bounded_complete hcallback status origin h.idle
  · split
    · exact h.log rfl
    · exact bounded_complete hcallback status origin h.idle
  · exact bounded_complete hcallback status origin h.idle
  · exact h

theorem effort_sendFrame (env : Env) (s : S2) (owner : FrameOwner) {out : Bool → Out}
    (hencrypted : ∀ ok, Out.encrypted (out ok) = none) (haccepted : ∀ ok, Out.isAccepted (out ok) = false) :
    (s.sendFrame env owner out).2.effort = s.effort :=
  effort_log (hencrypted _) (haccepted _)

theorem bounded_sendRaw (hcallback : Kept k callback) (frame : Bytes) (h : Bounded k s) :
    Bounded k (s.sendRaw env callback frame) := by
  have hframe : Bounded k (s.sendFrame env (.send s.nAccepted) (.sendFrame s.peer frame)).2 :=
    h.same (effort_sendFrame env s _ (fun _ => rfl) fun _ => rfl) rfl
  simp only [sendRaw]
  split
  · refine hframe.same ?_ ?_
    · rw [view_effort.setSpan, view_effort.findSpanByNode]
    · rw [view_fsm.setSpan, view_fsm.findSpanByNode]
  · exact bounded_sendDone hcallback .fail 0 .refused hframe

theorem bounded_sendNonceGet (hcallback : Kept k callback) (h : Bounded k s) :
    Bounded k (s.sendNonceGet env callback) := by
  have hfind : Bounded k (s.findSpanByNode env s.peer).2 :=
    h.same (view_effort.findSpanByNode env s s.peer) (view_fsm.findSpanByNode env s s.peer)
  exact bounded_sendRaw hcallback _ hfind

theorem bounded_encryptAndSendMulti (hcallback : Kept k callback) (m : MpanRef) (h : Bounded k s) :
    Bounded k (s.encryptAndSendMulti env callback m) := by
  have hencrypt : Bounded k (s.encryptMulti env m).2 :=
    h.same (view_effort.encryptMulti env s m) (view_fsm.encryptMulti env s m)
  simp only [encryptAndSendMulti]
  split
  · exact hencrypt.same (effort_sendFrame env _ _ (fun _ => rfl) fun _ => rfl) rfl
  · apply bounded_sendDone hcallback
    exact hencrypt.same (effort_sendFrame env _ _ (fun _ => rfl) fun _ => rfl) rfl

theorem bounded_encryptAndSend (hcallback : Kept (k + 1) callback) (h : Ready k s)
    (hfsm : s.fsm = .sendingMsg ∨ s.fsm = .verifyingDelivery) :
    Bounded k { s.encryptAndSend env callback with retry := (s.encryptAndSend env callback).retry - 1 } := by
  have hspent := h.encrypt env
  have hfsm' : (s.encrypt env).2.fsm = .sendingMsg ∨ (s.encrypt env).2.fsm = .verifyingDelivery := by
    rwa [fsm_encrypt]
  unfold encryptAndSend
  generalize (s.encrypt env).2 = t at hspent hfsm'
  generalize (s.encrypt env).1 = frame
  have hframe : Spent k (t.sendFrame env (.send t.nAccepted) (.sendFrame t.peer frame)).2 :=
    hspent.of_effort (effort_sendFrame env t _ (fun _ => rfl) fun _ => rfl)
  simp only [sendRaw]
  split
  · apply Spent.decrement
    · refine hframe.of_effort ?_
      rw [view_effort.setSpan, view_effort.findSpanByNode]
    · rw [view_fsm.setSpan, view_fsm.findSpanByNode]
      rcases hfsm' with hsending | hverifying
      · exact hsending ▸ by decide
      · exact hverifying ▸ by decide
  · apply Bounded.decrement
    have hdone := bounded_complete hcallback .fail .refused hframe.idle
    rcases hfsm' with hsending | hverifying
    · have hsame : (t.sendFrame env (.send t.nAccepted) (.sendFrame t.peer frame)).2.fsm = .sendingMsg := hsending
      simpa only [sendDone, hsame] using hdone
    · have hsame : (t.sendFrame env (.send t.nAccepted) (.sendFrame t.peer frame)).2.fsm = .verifyingDelivery :=
        hverifying
      simpa only [sendDone, hsame, reduceCtorEq, if_false] using hdone

theorem bounded_sendMsgStateEnter (hcallback : Kept (k + 1) callback) (h : Ready k s) :
    Bounded k (s.sendMsgStateEnter env callback) := by
  unfold sendMsgStateEnter
  split
  · refine bounded_encryptAndSend hcallback (h.of_effort ?_) (.inr rfl)
    exact effort_log (s := { s with fsm := .verifyingDelivery }) rfl rfl
  · exact bounded_encryptAndSend hcallback (h.of_effort rfl) (.inl rfl)

structure Begun (k : Nat) (s : S2) : Prop where
  attempts : ∀ n, s.attempts n ≤ 2
  fresh    : ∀ n, s.nAccepted ≤ n → s.attempts n = 0
  low      : k ≤ s.retry.toNat
  high     : s.retry.toNat ≤ 2

theorem Begun.of_effort {t : S2} (h : Begun k s) (heffort : t.effort = s.effort) : Begun k t := by
  obtain ⟨hretry, hcount, hattempts⟩ := (Effort.mk.injEq ..).mp heffort
  constructor
  all_goals simp only [hretry, hcount, hattempts]
  exacts [h.attempts, h.fresh, h.low, h.high]

theorem begun_log_accepted (h : Bounded k s) : Begun k (s.log (.accepted s.inFlight)) := by
  have hcount : (s.log (.accepted s.inFlight)).nAccepted = s.nAccepted + 1 := List.countP_cons_of_pos rfl
  have hattempts : (s.log (.accepted s.inFlight)).attempts = s.attempts := rfl
  refine ⟨h.attempts, fun n hn => ?_, h.low, h.high⟩
  rw [hcount] at hn
  rw [hattempts, h.fresh n hn]

theorem Begun.ready (h : Begun k s) (hk : k ≤ 1) : Ready k { s with retry := 2 } := by
  refine ⟨h.attempts, fun n hn => h.fresh n (Nat.le_of_lt hn), Nat.lt_succ_of_le hk, ?_⟩
  change 2 + s.attempts s.nAccepted ≤ 2
  rw [h.fresh _ (Nat.le_refl _)]

theorem Begun.waiting (h : Begun k s) (hk : k ≤ 1) : Bounded k { s with fsm := .waitNonceRaport, retry := 2 } :=
  ⟨h.attempts, fun n hn => h.fresh n (Nat.le_of_lt hn), Nat.le_succ_of_le hk, Nat.le_refl 2,
    fun _ => ⟨Nat.lt_succ_of_le hk, h.fresh _ (Nat.le_refl _)⟩, (nomatch ·)⟩

theorem Begun.sending (h : Begun k s) : Bounded k { s with fsm := .sendingMsg } :=
  ⟨h.attempts, fun n hn => h.fresh n (Nat.le_of_lt hn), h.low, h.high, (nomatch ·), (nomatch ·)⟩

theorem bounded_sendMsg (hk : k ≤ 1) (hcallback : Kept k callback) (hnested : Kept (k + 1) callback)
    (con : Connection) (buf : Bytes) (hfree : s.fsm.free) (h : Begun k s) :
    Bounded k (s.sendMsg env callback con buf) := by
  have hspan : Begun k (s.spanOk env con).2 := h.of_effort (view_effort.spanOk env s con)
  unfold sendMsg
  cases hfsm : s.fsm with
  | idle | isMosWaitReply =>
    dsimp only
    split
    · have hset : Begun k ((s.spanOk env con).2.setPeer con buf) := hspan.of_effort rfl
      exact bounded_sendMsgStateEnter hnested (hset.ready hk)
    · refine Bounded.log (bounded_sendNonceGet hcallback ?_) rfl
      exact Begun.waiting (s := (s.spanOk env con).2.setPeer con buf) (hspan.of_effort rfl) hk
  | _ => simp [hfsm, FsmState.free] at hfree

theorem bounded_sendMulticast (hcallback : Kept k callback) (con : Connection) (buf : Bytes)
    (hfree : s.fsm.free) (h : Begun k s) : Bounded k (s.sendMulticast env callback con buf) := by
  have hfind : Begun k ((s.setPeer con buf).findMpanByGroupId env 0 con.rNode.toUInt8 true).2 :=
    h.of_effort ((view_effort.findMpanByGroupId env (s.setPeer con buf) _ _ _).trans rfl)
  unfold sendMulticast
  cases hfsm : s.fsm with
  | idle | isMosWaitReply =>
    dsimp only
    split
    · exact bounded_encryptAndSendMulti hcallback _ (Bounded.same hfind.sending rfl rfl)
    · exact Bounded.same hfind.sending rfl rfl
  | _ => simp [hfsm, FsmState.free] at hfree

theorem bounded_sendDataAllCast (hk : k ≤ 1) (hcallback : Kept k callback) (hnested : Kept (k + 1) callback)
    (con : Connection) (buf : Bytes) (cast : Cast) (h : Bounded k s) :
    Bounded k (s.sendDataAllCast env callback con buf cast) := by
  unfold sendDataAllCast
  split
  · exact h
  next haccept =>
    have hfree : FsmState.free s.fsm := by
      cases hfsm : s.fsm <;> simp_all [isSendDataBusy, FsmState.free]
    have hbegun := begun_log_accepted h
    cases cast with
    | sendMulticast => exact bounded_sendMulticast hcallback con buf hfree hbegun
    | sendMsg => exact bounded_sendMsg hk hcallback hnested con buf hfree hbegun
    | sendFollowUp =>
      dsimp only
      split
      · exact bounded_sendMsg hk hcallback hnested con buf hfree (hbegun.of_effort rfl)
      · exact bounded_sendMsg hk hcallback hnested con buf hfree hbegun

theorem bounded_sendData (hk : k ≤ 1) (hcallback : Kept k callback) (hnested : Kept (k + 1) callback)
    (con : Connection) (buf : Bytes) (h : Bounded k s) : Bounded k (s.sendData env callback con buf) := by
  unfold sendData
  exact bounded_sendDataAllCast hk hcallback hnested _ _ _ h

theorem bounded_call (hk : k ≤ 1) (hcallback : Kept k callback) (hnested : Kept (k + 1) callback) (c : Call)
    (h : Bounded k s) : Bounded k (s.call env callback c) := by
  unfold call
  cases c with
  | sendData con buf => exact bounded_sendData hk hcallback hnested con buf h
  | sendDataMulticast con buf => exact bounded_sendDataAllCast hk hcallback hnested _ _ _ h
  | sendDataWithKeyset con longRange buf | sendDataMulticastWithKeyset con longRange buf
  | sendDataFollowUpWithKeyset con longRange buf =>
    dsimp only [sendDataWithKeyset]
    exact bounded_sendDataAllCast hk hcallback hnested _ _ _ h
  | inclusionSendFrame con frame => exact h.same (effort_sendFrame env s _ (fun _ => rfl) fun _ => rfl) rfl
  | networkKeyUpdate classId group =>
    dsimp only [networkKeyUpdate]
    split
    · exact h
    · exact h.same rfl rfl
  | clearLoadedKeys => exact h.same rfl rfl
  | freeMpan ownerId groupId =>
    exact h.same (view_effort.freeMpan s ownerId groupId) (view_fsm.freeMpan s ownerId groupId)

theorem kept_callback (env : Env) (depth k : Nat) (h : k + depth ≤ 2) : Kept k (S2.callback env depth) := by
  induction depth generalizing k with
  | zero => exact fun s hs => hs
  | succ depth ih =>
    have hcallback := ih k (by omega)
    have hnested := ih (k + 1) (by omega)
    intro s hs
    have hcalls : Bounded k (nextCalls env s).2 := hs.same rfl rfl
    exact Machine.run_invariant (fun t c ht => bounded_call (by omega) hcallback hnested c ht) hcalls
      (nextCalls env s).1

end Machine

/-! ## Events -/

section Events

variable {env : Env} {callback : S2 → S2} {s : S2}
variable (hcallback : Kept 0 callback) (hnested : Kept 1 callback)
include hcallback

theorem bounded_callback_log {o : Out} (ho : Out.isEntry o = false) (h : Bounded 0 s) :
    Bounded 0 (callback (s.log o)) :=
  hcallback _ (h.log ho)

theorem bounded_timeout (h : Bounded 0 s) : Bounded 0 (s.timeout env callback) := by
  unfold timeout
  split
  · refine Bounded.of_effort h ?_ (.inr ?_)
    · rw [view_effort.sendNonceReport]
      rfl
    · rw [view_fsm.sendNonceReport]
      rfl
  · exact bounded_complete hcallback _ _ h.idle
  · exact bounded_complete hcallback _ _ h.idle
  · exact h

include hnested

theorem bounded_gotNonceRaport (con : Connection) (buf : Mem) (len : Nat) (h : Bounded 0 s) :
    Bounded 0 (s.gotNonceRaport env callback con buf len) := by
  have hregister : ∀ t : S2, Bounded 0 t → Bounded 0 (t.registerNonce env buf len).2 := fun t ht =>
    ht.same (view_effort.registerNonce env t buf len) (view_fsm.registerNonce env t buf len)
  have hsame := view_fsm.registerNonce env s buf len
  have hreached := hregister s h
  have hset := hregister (s.setPeer con (buf.slice 0 len)) (h.same rfl rfl)
  unfold gotNonceRaport emitSynchronizationEvent
  cases hfsm : s.fsm with
  | idle | isMosWaitReply => exact bounded_callback_log hcallback rfl hset
  | waitNonceRaport =>
    dsimp only
    split
    · split
      · exact bounded_sendMsgStateEnter hnested (hreached.ready_of_waiting (hsame.trans hfsm))
      · exact hreached
    · exact bounded_callback_log hcallback rfl h
  | sendingMsg =>
    dsimp only
    split
    · exact h
    · exact bounded_callback_log hcallback rfl h
  | verifyingDelivery =>
    dsimp only
    split
    · split
      · exact hreached
      · have hdrop : Bounded 0 ((s.registerNonce env buf len).2.dropPayload (s.registerNonce env buf len).1) := by
          unfold dropPayload
          split
          · exact hreached.same rfl rfl
          · exact hreached
        split
        · exact bounded_complete hcallback _ _ hdrop.idle
        next hretry =>
          refine bounded_sendMsgStateEnter hnested (hdrop.ready_of_verifying ?_ hretry)
          rw [← hfsm, ← hsame]
          unfold dropPayload
          split <;> rfl
    · exact bounded_callback_log hcallback rfl h
  | sendingMulticast => exact h

theorem bounded_gotEncMsg (con : Connection) (h : Bounded 0 s) : Bounded 0 (s.gotEncMsg env callback con) := by
  unfold gotEncMsg
  cases hfsm : s.fsm with
  | verifyingDelivery =>
    dsimp only
    split
    · split
      next hmos =>
        have hretry : s.retry ≠ 0 := by
          intro hzero
          rw [hzero] at hmos
          exact absurd hmos.2 (by decide)
        exact bounded_sendMsgStateEnter hnested ((h.ready_of_verifying hfsm hretry).of_effort rfl)
      next =>
        apply bounded_postSendDoneEvent hcallback
        exact (h.log (o := .stopTimeout) rfl).idle
    · exact h
  | _ => exact h

theorem bounded_deliver (src : Connection) (plainText : Mem) (len : Nat) (h : Bounded 0 s) :
    Bounded 0 (s.deliver env callback src plainText len) := by
  unfold deliver securityCommand
  split
  · exact h
  · split
    · split
      · exact h
      · split
        · dsimp only
          split
          · exact h
          · exact bounded_sendData (Nat.zero_le 1) hcallback hnested _ _ h
        · exact bounded_callback_log hcallback rfl (h.same rfl rfl)
    · apply hcallback
      exact h.same (effort_log rfl rfl) rfl

theorem bounded_messageEncapsulation (src : Connection) (buf : Mem) (len : Nat) (h : Bounded 0 s) :
    Bounded 0 (s.messageEncapsulation env callback src buf len) := by
  have hfsm : (s.decryptMsg env src buf len).s.fsm = s.fsm ∨ (s.decryptMsg env src buf len).s.fsm.free := by
    obtain hledger | ⟨-, hledger⟩ := sameLedger_decryptMsg env s src buf len
    · exact .inl (congrArg Ledger.fsm hledger)
    · have hrest : (s.decryptMsg env src buf len).s.fsm = .isMosWaitReply := congrArg Ledger.fsm hledger
      exact .inr (by rw [hrest]; rfl)
  have hdecrypt : Bounded 0 (s.decryptMsg env src buf len).s :=
    h.of_effort (view_effort.decryptMsg env s src buf len) hfsm
  simp only [messageEncapsulation]
  split
  · apply bounded_deliver hcallback hnested
    exact bounded_gotEncMsg hcallback hnested _ hdecrypt
  · exact bounded_callback_log hcallback rfl hdecrypt
  · exact hdecrypt
  · exact hdecrypt

omit hnested in
theorem bounded_plainCommand (src : Connection) (buf : Mem) (len : Nat) (h : Bounded 0 s) :
    Bounded 0 (s.plainCommand callback src buf len) := by
  unfold plainCommand
  split_ifs
  · exact h
  · exact h
  · exact bounded_callback_log hcallback rfl (h.same rfl rfl)

theorem bounded_applicationCommandHandler (src : Connection) (buf : Mem) (len : Nat) (h : Bounded 0 s) :
    Bounded 0 (s.applicationCommandHandler env callback src buf len) := by
  unfold applicationCommandHandler
  split_ifs
  · exact h
  · unfold nonceGet
    split
    · dsimp only
      split
      · refine h.same ?_ ?_
        · rw [view_effort.sendNonceReport, view_effort.verifySeq]
        · rw [view_fsm.sendNonceReport, view_fsm.verifySeq]
      · exact h.same (view_effort.verifySeq env s src _) (view_fsm.verifySeq env s src _)
    · exact h
  · exact bounded_gotNonceRaport hcallback hnested src buf len h
  · exact bounded_messageEncapsulation hcallback hnested src buf len h
  · exact bounded_plainCommand hcallback src buf len h

end Events

/-! ## Runs -/

section Runs

variable (env : Env) (home : UInt32) (sg : UInt8 → SecGroup) (loadedKeys : UInt8) (spanTable : SpanRef → Span)

theorem bounded_start : Bounded 0 (start home sg loadedKeys spanTable) :=
  ⟨fun _ => Nat.zero_le 2, fun _ _ => rfl, Nat.zero_le _, Nat.zero_le 2, (nomatch ·), (nomatch ·)⟩

theorem bounded_step {depth : Nat} (hdepth : depth ≤ 1) {s : S2} (e : Event) (h : Bounded 0 s) :
    Bounded 0 (s.step env depth e) := by
  have hcallback := kept_callback env depth 0 (by omega)
  have hnested := kept_callback env depth 1 (by omega)
  cases e with
  | call c => exact bounded_call (Nat.zero_le 1) hcallback hnested c h
  | sendFrameDone status time => exact bounded_sendDone hcallback status time _ (h.same rfl rfl)
  | timeout => exact bounded_timeout hcallback h
  | receive con buf len => exact bounded_applicationCommandHandler hcallback hnested con buf len h

/-- As long as callbacks nest at most one deep, a send is encrypted at most twice and the counter does not
wrap. -/
theorem retry_bounded (depth : Nat) (hdepth : depth ≤ 1) (events : List Event) :
    RetryBounded (Machine.run (step env depth) (start home sg loadedKeys spanTable) events) := by
  have hstep : ∀ t e, Bounded 0 t → Bounded 0 (step env depth t e) :=
    fun t e ht => bounded_step env hdepth e ht
  have hrun := Machine.run_invariant hstep (bounded_start home sg loadedKeys spanTable) events
  exact ⟨hrun.attempts, hrun.high⟩

/-- A layer below that refuses two frames and takes the others, and an application that starts the next send
when the first and when the second is reported. -/
def refusingEnv : Env :=
  { sampleEnv with
    sendFrame := fun n => 2 ≤ n
    react := fun n => if n = 1 ∨ n = 3 then [.sendData (sampleCon txoptionVerifyDelivery) [0x20, 0x02]] else [] }

def freshReport (seq : UInt8) : Event :=
  .receive (sampleCon 0) (.ofBytes ([0x9F, 0x02, seq, 0x01] ++ List.replicate 16 0)) 20

def refusedSends : List Event :=
  [.call (.sendData (sampleCon txoptionVerifyDelivery) [0x20, 0x02]), freshReport 5, freshReport 10]

/-- The third send is encrypted three times, and could be so again and again. -/
theorem not_retry_bounded : ¬∀ (env : Env) (depth : Nat) (home : UInt32) (sg : UInt8 → SecGroup) (loadedKeys : UInt8)
      (spanTable : SpanRef → Span) (events : List Event),
      RetryBounded (Machine.run (step env depth) (start home sg loadedKeys spanTable) events) := by
  intro hall
  have hbounded := hall refusingEnv 2 0 (init 0).sg 1 sampleStart.spanTable refusedSends
  have hattempts : (Machine.run (step refusingEnv 2) (start 0 (init 0).sg 1 sampleStart.spanTable)
      refusedSends).attempts 3 = 3 := by
    decide +kernel
  have hle := hbounded.attempts 3
  omega

theorem retry_bounded_refusedSends :
    1 ≤ 1 ∧ RetryBounded (Machine.run (step refusingEnv 1) (start 0 (init 0).sg 1 sampleStart.spanTable)
      refusedSends) :=
  ⟨Nat.le_refl 1, retry_bounded refusingEnv 0 (init 0).sg 1 sampleStart.spanTable 1 (Nat.le_refl 1) refusedSends⟩

end Runs

end ZipGateway.S2

import Mathlib.Data.List.Perm.Basic
import ZipGateway.Security0.Receive
import ZipGateway.Lib.Byte

/-!
# Sends and their completions

A slot is in use while its `dnode` is not 0. `Books` says what the log and the slots have to do with
each other, `Progress` what a slot in use is waiting for. A callback of the layer below carries only
the slot: it is the callback of the send in the slot as long as no slot is given away with a
callback under way, and this is what `Orderly` asks for.
-/

namespace ZipGateway

def S0Out.isCompleted (call : Nat) : S0Out → Bool
  | .completed c _ => c == call
  | _ => false

variable {j : Fin 2} {draws : List Nonce} {call n : Nat} {o : S0Owed} {x : TxSession} {status : UInt8} (env : S0Env)

namespace Security0

def InUse (s : Security0) (i : Fin 2) : Prop :=
  (s.tx i).param.dnode ≠ 0

instance (s : Security0) (i : Fin 2) : Decidable (s.InUse i) := by
  unfold InUse
  infer_instance

def completions (s : Security0) (call : Nat) : Nat :=
  s.out.countP (S0Out.isCompleted call)

def Acknowledged (s : Security0) (call : Nat) : Prop :=
  (∃ tx frame, .sent tx .msg1Callback (some call) frame true ∈ s.out) ∧
    ∀ tx kind frame, .sent tx kind (some call) frame true ∈ s.out → kind ≠ .noceGetCallback →
      .txDone tx transmitCompleteOk ∈ s.out

def Quiescent (s : Security0) : Prop :=
  s.owed = [] ∧ ∀ i, (s.tx i).timer = false

/-- Every send that was accepted is in a slot and not yet completed, or it was completed once; it
was completed when nothing is under way any more; and when it was reported `OK` its frames were
acknowledged. -/
def Accounted (s : Security0) : Prop :=
  (∀ call p, .called call p true ∈ s.out → ((∃ i, s.InUse i ∧ (s.tx i).callback = some call) ∧ s.completions call = 0) ∨
      s.completions call = 1) ∧
  (∀ call, .completed call transmitCompleteOk ∈ s.out → s.Acknowledged call) ∧
  (s.Quiescent → ∀ call p, .called call p true ∈ s.out → s.completions call = 1)

/-- A result of a transmission that comes in time: an acknowledged nonce get not during a secure
learn mode that was not active when it was sent, a failed first frame not when a nonce report has
moved its session on, and the second frame not before the first. -/
def InTime (s : Security0) (o : S0Owed) (status : UInt8) : Prop :=
  (o.callback = .noceGetCallback → (s.tx o.slot).state = .nonceGet → status = transmitCompleteOk →
    s.secureLearnActive = true → (s.tx o.slot).timer = true) ∧
  (o.callback = .msg1Callback → (s.tx o.slot).state = .encMsg2 → status = transmitCompleteOk) ∧
  (o.callback = .msg2Callback → (s.tx o.slot).state = .encMsg2 → status = transmitCompleteOk →
    ∀ o' ∈ s.owed, o'.slot = o.slot → o'.callback ≠ .msg1Callback)

instance (s : Security0) (o : S0Owed) (status : UInt8) : Decidable (s.InTime o status) := by
  unfold InTime
  infer_instance

/-- The events that do not reach a flaw: a slot is given away only when no callback for it is under
way, results come in time, and neither sends nor nonce reports concern node 0, which marks a free
slot. -/
def Orderly (s : Security0) : S0Event → Prop
  | .sendData p _ _ => p.dnode ≠ 0 ∧ ∀ i ∈ s.freeTxSession, ∀ o ∈ s.owed, o.slot ≠ i
  | .transmitDone n status => ∀ o ∈ s.owed[n]?, s.InTime o status
  | .nonceReport src _ _ _ => src ≠ 0
  | _ => True

instance (s : Security0) : ∀ e, Decidable (s.Orderly e)
  | .sendData p _ _ =>
    inferInstanceAs (Decidable (p.dnode ≠ 0 ∧ ∀ i ∈ s.freeTxSession, ∀ o ∈ s.owed, o.slot ≠ i))
  | .transmitDone n status => inferInstanceAs (Decidable (∀ o ∈ s.owed[n]?, s.InTime o status))
  | .nonceReport src _ _ _ => inferInstanceAs (Decidable (src ≠ 0))
  | .abortAll => isTrue trivial
  | .timeout _ => isTrue trivial
  | .nonceGet .. => isTrue trivial
  | .encapsulated .. => isTrue trivial
  | .nonceTimer => isTrue trivial
  | .setKey _ => isTrue trivial
  | .secureLearn _ => isTrue trivial
  | .time _ => isTrue trivial

def underWay (s : Security0) (i : Fin 2) (kind : S0Callback) : Nat :=
  s.owed.countP fun o => o.slot == i && o.callback == kind

structure Books (s : Security0) : Prop where
  used : ∀ i, s.InUse i → ∃ call p, (s.tx i).callback = some call ∧ .called call p true ∈ s.out ∧ s.completions call = 0
  apart : ∀ i j, s.InUse i → s.InUse j → (s.tx i).callback = (s.tx j).callback → i = j
  idle : ∀ i, ¬s.InUse i → (s.tx i).timer = false ∧ ((s.tx i).callback = none ∨
    (s.tx i).state = .txDone ∨ (s.tx i).state = .txFail)
  bound : ∀ o ∈ s.owed, (s.tx o.slot).callback ≠ none
  owed : ∀ o ∈ s.owed, s.InUse o.slot → ∃ frame, .sent o.tx o.callback (s.tx o.slot).callback frame true ∈ s.out
  numbered : ∀ call p ok, .called call p ok ∈ s.out → call < s.nCalls
  sent : ∀ tx kind call frame ok, .sent tx kind (some call) frame ok ∈ s.out → call < s.nCalls
  completed : ∀ call status, .completed call status ∈ s.out → call < s.nCalls
  accepted : ∀ call p, .called call p true ∈ s.out →
    (∃ i, s.InUse i ∧ (s.tx i).callback = some call) ∨ s.completions call = 1
  ok : ∀ call, .completed call transmitCompleteOk ∈ s.out → s.Acknowledged call

def Pending (s : Security0) (i : Fin 2) (call : Nat) : Prop :=
  ∀ tx kind frame, .sent tx kind (some call) frame true ∈ s.out → kind ≠ .noceGetCallback →
    .txDone tx transmitCompleteOk ∈ s.out ∨ ∃ o ∈ s.owed, o.tx = tx ∧ o.slot = i ∧ o.callback = kind

structure Progress (s : Security0) (i : Fin 2) (call : Nat) : Prop where
  pending : s.Pending i call
  state : match (s.tx i).state with
    | .nonceGet => 0 < s.underWay i .noceGetCallback ∧ s.underWay i .msg1Callback = 0 ∧
        s.underWay i .msg2Callback = 0
    | .nonceGetSent => (s.tx i).timer = true ∧ s.underWay i .msg1Callback = 0 ∧
        s.underWay i .msg2Callback = 0
    | .encMsg => s.underWay i .msg1Callback = 1 ∧ s.underWay i .msg2Callback = 0
    | .encMsgSent => (s.tx i).timer = true ∧ s.underWay i .msg1Callback = 0 ∧
        s.underWay i .msg2Callback = 0
    | .encMsg2 => s.underWay i .msg1Callback ≤ 1 ∧ s.underWay i .msg2Callback = 1
    | _ => False
  started : (s.tx i).state = .nonceGet ∨ (s.tx i).state = .nonceGetSent ∨
    ∃ tx frame, .sent tx .msg1Callback (some call) frame true ∈ s.out

/-! ### Steps that concern no send -/

theorem Acknowledged.mono {s t : Security0} {c : Nat} (h : s.Acknowledged c) (hmono : ∀ o ∈ s.out, o ∈ t.out)
    (hsent : ∀ tx kind frame, .sent tx kind (some c) frame true ∈ t.out →
      .sent tx kind (some c) frame true ∈ s.out) : t.Acknowledged c := by
  obtain ⟨⟨tx, frame, hfirst⟩, hall⟩ := h
  exact ⟨⟨tx, frame, hmono _ hfirst⟩, fun tx kind frame hmem hkind =>
    hmono _ (hall tx kind frame (hsent tx kind frame hmem) hkind)⟩

def ofSend : S0Out → Bool
  | .called .. => true
  | .completed .. => true
  | .sent _ _ call _ _ => call.isSome
  | _ => false

structure Extends (s t : Security0) : Prop where
  nCalls : t.nCalls = s.nCalls
  log : ∃ new, t.out = new ++ s.out ∧ ∀ o ∈ new, ofSend o = false

namespace Extends

variable {s t u : Security0}

theorem refl (s : Security0) : Extends s s :=
  ⟨rfl, [], rfl, by simp⟩

theorem of_eq (hcalls : t.nCalls = s.nCalls) (hout : t.out = s.out) : Extends s t :=
  ⟨hcalls, [], by simp [hout], by simp⟩

theorem trans (hst : Extends s t) (htu : Extends t u) : Extends s u := by
  obtain ⟨new, hnew, hsend⟩ := hst.log
  obtain ⟨new', hnew', hsend'⟩ := htu.log
  refine ⟨htu.nCalls.trans hst.nCalls, new' ++ new, by rw [hnew', hnew, List.append_assoc], ?_⟩
  intro o ho
  rcases List.mem_append.mp ho with ho | ho
  · exact hsend' o ho
  · exact hsend o ho

theorem entry {o : S0Out} (hcalls : t.nCalls = s.nCalls) (hout : t.out = o :: s.out)
    (ho : ofSend o = false) : Extends s t :=
  ⟨hcalls, [o], hout, by simpa using ho⟩

theorem mono (h : Extends s t) {o : S0Out} (ho : o ∈ s.out) : o ∈ t.out := by
  obtain ⟨new, hnew, -⟩ := h.log
  rw [hnew]
  exact List.mem_append_right _ ho

theorem mem_iff (h : Extends s t) {o : S0Out} (ho : ofSend o = true) : o ∈ t.out ↔ o ∈ s.out := by
  refine ⟨fun hmem => ?_, h.mono⟩
  obtain ⟨new, hnew, hsend⟩ := h.log
  rw [hnew] at hmem
  rcases List.mem_append.mp hmem with hmem | hmem
  · exact absurd ((hsend o hmem).symm.trans ho) (by decide)
  · exact hmem

theorem completions (h : Extends s t) (call : Nat) : t.completions call = s.completions call := by
  obtain ⟨new, hnew, hsend⟩ := h.log
  have hzero : new.countP (S0Out.isCompleted call) = 0 := by
    rw [List.countP_eq_zero]
    intro o ho hc
    cases o with
    | completed c status => exact absurd (hsend _ ho) (by simp [ofSend])
    | _ => simp [S0Out.isCompleted] at hc
  rw [Security0.completions, hnew, List.countP_append, hzero, Nat.zero_add, Security0.completions]

theorem acknowledged (h : Extends s t) (ha : s.Acknowledged call) : t.Acknowledged call :=
  ha.mono (fun _ ho => h.mono ho) fun _ _ _ hmem => (h.mem_iff rfl).mp hmem

end Extends

section Books

variable {s t : Security0}

structure Filed (s : Security0) : Prop where
  numbered : ∀ call p ok, .called call p ok ∈ s.out → call < s.nCalls
  sent : ∀ tx kind call frame ok, .sent tx kind (some call) frame ok ∈ s.out → call < s.nCalls
  completed : ∀ call status, .completed call status ∈ s.out → call < s.nCalls
  ok : ∀ call, .completed call transmitCompleteOk ∈ s.out → s.Acknowledged call

theorem Books.filed (h : Books s) : Filed s :=
  ⟨h.numbered, h.sent, h.completed, h.ok⟩

theorem Filed.extend (h : Filed s) (hlog : Extends s t) : Filed t := by
  refine ⟨?_, ?_, ?_, ?_⟩
  · intro call p ok hmem
    exact hlog.nCalls ▸ h.numbered call p ok ((hlog.mem_iff rfl).mp hmem)
  · intro tx kind call frame ok hmem
    exact hlog.nCalls ▸ h.sent tx kind call frame ok ((hlog.mem_iff rfl).mp hmem)
  · intro call status hmem
    exact hlog.nCalls ▸ h.completed call status ((hlog.mem_iff rfl).mp hmem)
  · intro call hmem
    exact hlog.acknowledged (h.ok call ((hlog.mem_iff rfl).mp hmem))

theorem Filed.cons (h : Filed s) {o : S0Out} (hout : t.out = o :: s.out) (hcalls : s.nCalls ≤ t.nCalls)
    (hcalled : ∀ c p b, o = .called c p b → c < t.nCalls)
    (hsent : ∀ tx kind c frame b, o = .sent tx kind (some c) frame b →
      c < t.nCalls ∧ .completed c transmitCompleteOk ∉ s.out)
    (hdone : ∀ c status, o = .completed c status →
      c < t.nCalls ∧ (status = transmitCompleteOk → s.Acknowledged c ∧ ∀ tx kind frame b,
        o ≠ .sent tx kind (some c) frame b)) : Filed t := by
  have hack : ∀ c, s.Acknowledged c → (∀ tx kind frame b, o ≠ .sent tx kind (some c) frame b) → t.Acknowledged c := by
    intro c hc hne
    refine hc.mono (fun _ ho => hout ▸ List.mem_cons_of_mem _ ho) fun tx kind frame hmem => ?_
    rw [hout] at hmem
    exact List.mem_of_ne_of_mem (hne tx kind frame true).symm hmem
  refine ⟨?_, ?_, ?_, ?_⟩
  · intro c p b hmem
    rcases List.mem_cons.mp (hout ▸ hmem) with heq | hmem
    · exact hcalled c p b heq.symm
    · exact (h.numbered c p b hmem).trans_le hcalls
  · intro tx kind c frame b hmem
    rcases List.mem_cons.mp (hout ▸ hmem) with heq | hmem
    · exact (hsent tx kind c frame b heq.symm).1
    · exact (h.sent tx kind c frame b hmem).trans_le hcalls
  · intro c status hmem
    rcases List.mem_cons.mp (hout ▸ hmem) with heq | hmem
    · exact (hdone c status heq.symm).1
    · exact (h.completed c status hmem).trans_le hcalls
  · intro c hmem
    rcases List.mem_cons.mp (hout ▸ hmem) with heq | hmem
    · obtain ⟨hc, hne⟩ := (hdone c _ heq.symm).2 rfl
      exact hack c hc hne
    · exact hack c (h.ok c hmem) fun tx kind frame b heq => (hsent tx kind c frame b heq).2 hmem

theorem Filed.called (h : Filed s) {p : TsParam} {ok : Bool} (hcalls : t.nCalls = s.nCalls + 1)
    (hout : t.out = .called s.nCalls p ok :: s.out) : Filed t := by
  refine h.cons hout (by omega) ?_ (fun _ _ _ _ _ heq => by cases heq) fun _ _ heq => by cases heq
  intro c q b heq
  cases heq
  omega

theorem completions_cons {o : S0Out} (hout : t.out = o :: s.out) {c : Nat} (ho : o.isCompleted c = false) :
    t.completions c = s.completions c := by
  rw [completions, hout, List.countP_cons_of_neg (by rw [ho]; decide), completions]

structure SameSends (s t : Security0) : Prop where
  callback : ∀ i, (t.tx i).callback = (s.tx i).callback
  inUse : ∀ i, t.InUse i ↔ s.InUse i
  idle : ∀ i, ¬s.InUse i → (t.tx i).timer = (s.tx i).timer ∧ (t.tx i).state = (s.tx i).state

theorem SameSends.of_tx (htx : t.tx = s.tx) : SameSends s t := by
  refine ⟨fun _ => by rw [htx], fun _ => by rw [InUse, htx, InUse], fun _ _ => ?_⟩
  rw [htx]
  exact ⟨rfl, rfl⟩

theorem Books.of_same (h : Books s) (hsame : SameSends s t) (hmono : ∀ o ∈ s.out, o ∈ t.out)
    (hcompl : ∀ c, t.completions c = s.completions c)
    (hcalled : ∀ c p, .called c p true ∈ t.out → .called c p true ∈ s.out)
    (howed : ∀ o ∈ t.owed, o ∈ s.owed ∨ (s.tx o.slot).callback ≠ none ∧
      ∃ frame, .sent o.tx o.callback (s.tx o.slot).callback frame true ∈ t.out)
    (hfiled : Filed t) : Books t := by
  refine ⟨?_, ?_, ?_, ?_, ?_, hfiled.numbered, hfiled.sent, hfiled.completed, ?_, hfiled.ok⟩
  · intro i hi
    obtain ⟨call, p, hcall, hmem, hnone⟩ := h.used i ((hsame.inUse i).mp hi)
    exact ⟨call, p, (hsame.callback i).trans hcall, hmono _ hmem, (hcompl call).trans hnone⟩
  · intro i j hi hj heq
    rw [hsame.callback, hsame.callback] at heq
    exact h.apart i j ((hsame.inUse i).mp hi) ((hsame.inUse j).mp hj) heq
  · intro i hi
    have hold : ¬s.InUse i := fun hin => hi ((hsame.inUse i).mpr hin)
    obtain ⟨htimer, hstate⟩ := hsame.idle i hold
    rw [hsame.callback, htimer, hstate]
    exact h.idle i hold
  · intro o ho
    rw [hsame.callback]
    rcases howed o ho with hold | ⟨hbound, -⟩
    · exact h.bound o hold
    · exact hbound
  · intro o ho hin
    rw [hsame.callback]
    rcases howed o ho with hold | ⟨-, hsent⟩
    · obtain ⟨frame, hsent⟩ := h.owed o hold ((hsame.inUse _).mp hin)
      exact ⟨frame, hmono _ hsent⟩
    · exact hsent
  · intro call p hmem
    rw [hcompl]
    rcases h.accepted call p (hcalled call p hmem) with ⟨i, hin, hcall⟩ | hone
    · exact .inl ⟨i, (hsame.inUse i).mpr hin, (hsame.callback i).trans hcall⟩
    · exact .inr hone

theorem Books.extend (h : Books s) (hlog : Extends s t) (hsame : SameSends s t)
    (howed : ∀ o ∈ t.owed, o ∈ s.owed) : Books t :=
  h.of_same hsame (fun _ ho => hlog.mono ho) hlog.completions (fun _ _ hmem => (hlog.mem_iff rfl).mp hmem)
    (fun o ho => .inl (howed o ho)) (h.filed.extend hlog)

theorem Books.not_completed (h : Books s) {i : Fin 2} (hin : s.InUse i)
    (hcall : (s.tx i).callback = some call) (status : UInt8) : .completed call status ∉ s.out := by
  obtain ⟨call', p, hcall', -, hnone⟩ := h.used i hin
  obtain rfl : call = call' := Option.some.inj (hcall.symm.trans hcall')
  intro hmem
  have hzero := List.countP_eq_zero.mp hnone _ hmem
  simp [S0Out.isCompleted] at hzero

theorem Books.handOver (h : Books s) {i : Fin 2} (hin : s.InUse i)
    (hcall : (s.tx i).callback = some call) {tx : Nat} {kind : S0Callback} {frame : Bytes}
    {ok : Bool} (htx : t.tx = s.tx) (hcalls : t.nCalls = s.nCalls)
    (hout : t.out = .sent tx kind (some call) frame ok :: s.out)
    (howed : t.owed = if ok then s.owed ++ [⟨kind, i, tx⟩] else s.owed) : Books t := by
  refine h.of_same (.of_tx htx) (fun _ ho => hout ▸ List.mem_cons_of_mem _ ho) (fun c => completions_cons hout rfl)
    (fun c p hmem => List.mem_of_ne_of_mem S0Out.noConfusion (hout ▸ hmem)) ?_ ?_
  · intro o ho
    rw [howed] at ho
    cases ok with
    | false => exact .inl ho
    | true =>
      rcases List.mem_append.mp ho with hold | hnew
      · exact .inl hold
      · rw [List.mem_singleton.mp hnew, hcall, hout]
        exact .inr ⟨Option.some_ne_none _, frame, List.mem_cons_self⟩
  · refine h.filed.cons hout (Nat.le_of_eq hcalls.symm) (fun _ _ _ heq => by cases heq) ?_ fun _ _ heq => by cases heq
    intro n k c f b heq
    cases heq
    obtain ⟨c', p, hc', hmem, -⟩ := h.used i hin
    obtain rfl : c' = call := Option.some.inj (hc'.symm.trans hcall)
    exact ⟨hcalls ▸ h.numbered _ _ _ hmem, h.not_completed hin hcall _⟩

theorem Books.finish (h : Books s) {i : Fin 2} (hin : s.InUse i) (hcall : (s.tx i).callback = some call)
    (hx : x.param.dnode = 0 ∧ x.timer = false ∧ x.callback = some call ∧ (x.state = .txDone ∨ x.state = .txFail))
    (hok : status = transmitCompleteOk → s.Acknowledged call)
    (htx : t.tx = Function.update s.tx i x) (hcalls : t.nCalls = s.nCalls)
    (hout : t.out = .completed call status :: s.out) (howed : t.owed = s.owed) : Books t := by
  have hself : t.tx i = x := by rw [htx, Function.update_self]
  have hother : ∀ j, j ≠ i → t.tx j = s.tx j := fun j hj => by
    rw [htx, Function.update_of_ne hj]
  have hfree : ¬t.InUse i := by
    rw [InUse, hself, hx.1]
    exact fun hne => hne rfl
  have hne : ∀ j, t.InUse j → j ≠ i := by
    rintro j hj rfl
    exact hfree hj
  have huse : ∀ j, j ≠ i → (t.InUse j ↔ s.InUse j) := by
    intro j hj
    rw [InUse, hother j hj, InUse]
  have hcompl : ∀ c, c ≠ call → t.completions c = s.completions c := by
    intro c hc
    exact completions_cons hout (beq_false_of_ne hc.symm)
  obtain ⟨call', p', hcall', hcalled', hnone'⟩ := h.used i hin
  obtain rfl : call' = call := Option.some.inj (hcall'.symm.trans hcall)
  have hfiled : Filed t := by
    refine h.filed.cons hout (Nat.le_of_eq hcalls.symm) (fun _ _ _ heq => by cases heq)
      (fun _ _ _ _ _ heq => by cases heq) fun c st heq => ?_
    cases heq
    exact ⟨hcalls ▸ h.numbered _ _ _ hcalled', fun hst => ⟨hok hst, fun _ _ _ _ => S0Out.noConfusion⟩⟩
  refine ⟨?_, ?_, ?_, ?_, ?_, hfiled.numbered, hfiled.sent, hfiled.completed, ?_, hfiled.ok⟩
  · intro j hj
    have hji := hne j hj
    obtain ⟨c, p, hc, hcalled, hnone⟩ := h.used j ((huse j hji).mp hj)
    have hcne : c ≠ call' := by
      rintro rfl
      exact hji (h.apart j i ((huse j hji).mp hj) hin (hc.trans hcall.symm))
    exact ⟨c, p, by rw [hother j hji, hc], by rw [hout]; exact List.mem_cons_of_mem _ hcalled,
      (hcompl c hcne).trans hnone⟩
  · intro j k hj hk heq
    rw [hother j (hne j hj), hother k (hne k hk)] at heq
    exact h.apart j k ((huse j (hne j hj)).mp hj) ((huse k (hne k hk)).mp hk) heq
  · intro j hj
    by_cases hji : j = i
    · rw [hji, hself]
      exact ⟨hx.2.1, .inr hx.2.2.2⟩
    · rw [hother j hji]
      exact h.idle j fun hin => hj ((huse j hji).mpr hin)
  · intro o ho
    rw [howed] at ho
    by_cases hoi : o.slot = i
    · rw [hoi, hself, hx.2.2.1]
      simp
    · rw [hother _ hoi]
      exact h.bound o ho
  · intro o ho hoin
    have hoi := hne _ hoin
    rw [howed] at ho
    obtain ⟨f, hsent⟩ := h.owed o ho ((huse _ hoi).mp hoin)
    rw [hother _ hoi, hout]
    exact ⟨f, List.mem_cons_of_mem _ hsent⟩
  · intro c p hmem
    rw [hout] at hmem
    by_cases hc : c = call'
    · refine .inr ?_
      rw [hc, completions, hout, List.countP_cons_of_pos (by simp [S0Out.isCompleted])]
      exact congrArg (· + 1) hnone'
    · rw [hcompl c hc]
      rcases h.accepted c p (List.mem_of_ne_of_mem (by simp) hmem) with ⟨j, hj, hcj⟩ | hone
      · have hji : j ≠ i := by
          rintro rfl
          exact hc (Option.some.inj (hcj.symm.trans hcall))
        exact .inl ⟨j, (huse j hji).mpr hj, by rw [hother j hji, hcj]⟩
      · exact .inr hone

theorem Books.refuse (h : Books s) (p : TsParam) (htx : t.tx = s.tx) (howed : t.owed = s.owed)
    (hcalls : t.nCalls = s.nCalls + 1) (hout : t.out = .called s.nCalls p false :: s.out) :
    Books t := by
  refine h.of_same (.of_tx htx) (fun _ ho => hout ▸ List.mem_cons_of_mem _ ho)
    (fun c => completions_cons hout rfl) (fun c q hmem => List.mem_of_ne_of_mem (by simp) (hout ▸ hmem))
    (fun o ho => .inl (howed ▸ ho)) (h.filed.called hcalls hout)

theorem Books.open (h : Books s) {i : Fin 2} (p : TsParam) (hfree : ¬s.InUse i)
    (hx : x.param.dnode ≠ 0) (hcall : x.callback = some s.nCalls) (hslot : ∀ o ∈ s.owed, o.slot ≠ i)
    (htx : t.tx = Function.update s.tx i x) (howed : t.owed = s.owed)
    (hcalls : t.nCalls = s.nCalls + 1) (hout : t.out = .called s.nCalls p true :: s.out) :
    Books t := by
  have hself : t.tx i = x := by rw [htx, Function.update_self]
  have hother : ∀ j, j ≠ i → t.tx j = s.tx j := fun j hj => by
    rw [htx, Function.update_of_ne hj]
  have huse : ∀ j, j ≠ i → (t.InUse j ↔ s.InUse j) := by
    intro j hj
    rw [InUse, hother j hj, InUse]
  have hin : t.InUse i := by
    rw [InUse, hself]
    exact hx
  have hcompl : ∀ c, t.completions c = s.completions c := by
    exact fun c => completions_cons hout rfl
  have hfresh : s.completions s.nCalls = 0 := by
    rw [completions, List.countP_eq_zero]
    intro o ho hc
    cases o with
    | completed c status =>
      obtain rfl : c = s.nCalls := by simpa [S0Out.isCompleted] using hc
      exact Nat.lt_irrefl _ (h.completed _ _ ho)
    | _ => simp [S0Out.isCompleted] at hc
  have hold : ∀ j, s.InUse j → (s.tx j).callback ≠ some s.nCalls := by
    intro j hj heq
    obtain ⟨c, q, hc, hcalled, -⟩ := h.used j hj
    obtain rfl : c = s.nCalls := Option.some.inj (hc.symm.trans heq)
    exact Nat.lt_irrefl _ (h.numbered _ _ _ hcalled)
  have hfiled := h.filed.called hcalls hout
  refine ⟨?_, ?_, ?_, ?_, ?_, hfiled.numbered, hfiled.sent, hfiled.completed, ?_, hfiled.ok⟩
  · intro j hj
    by_cases hji : j = i
    · rw [hji, hself]
      exact ⟨s.nCalls, p, hcall, by rw [hout]; exact List.mem_cons_self, (hcompl _).trans hfresh⟩
    · obtain ⟨c, q, hc, hcalled, hnone⟩ := h.used j ((huse j hji).mp hj)
      exact ⟨c, q, by rw [hother j hji, hc], by rw [hout]; exact List.mem_cons_of_mem _ hcalled, (hcompl c).trans hnone⟩
  · intro j k hj hk heq
    by_cases hji : j = i <;> by_cases hki : k = i
    · rw [hji, hki]
    · rw [hji, hself, hother k hki, hcall] at heq
      exact absurd heq.symm (hold k ((huse k hki).mp hk))
    · rw [hki, hself, hother j hji, hcall] at heq
      exact absurd heq (hold j ((huse j hji).mp hj))
    · rw [hother j hji, hother k hki] at heq
      exact h.apart j k ((huse j hji).mp hj) ((huse k hki).mp hk) heq
  · intro j hj
    have hji : j ≠ i := by
      rintro rfl
      exact hj hin
    rw [hother j hji]
    exact h.idle j fun hin => hj ((huse j hji).mpr hin)
  · intro o ho
    rw [howed] at ho
    rw [hother _ (hslot o ho)]
    exact h.bound o ho
  · intro o ho hoin
    rw [howed] at ho
    have hoi := hslot o ho
    obtain ⟨f, hsent⟩ := h.owed o ho ((huse _ hoi).mp hoin)
    rw [hother _ hoi, hout]
    exact ⟨f, List.mem_cons_of_mem _ hsent⟩
  · intro c q hmem
    rw [hout] at hmem
    rw [hcompl]
    rcases List.mem_cons.mp hmem with heq | hmem
    · injection heq with heq
      exact .inl ⟨i, hin, by rw [hself, hcall, heq]⟩
    · rcases h.accepted c q hmem with ⟨j, hj, hc⟩ | hone
      · have hji : j ≠ i := by
          rintro rfl
          exact hfree hj
        exact .inl ⟨j, (huse j hji).mpr hj, by rw [hother j hji, hc]⟩
      · exact .inr hone

end Books

/-! ### One slot at a time -/

structure Local (i : Fin 2) (call : Option Nat) (s t : Security0) : Prop where
  tx : ∀ j, j ≠ i → t.tx j = s.tx j
  owed : ∀ j, j ≠ i → t.owed.filter (·.slot == j) = s.owed.filter (·.slot == j)
  mono : ∀ o ∈ s.out, o ∈ t.out
  sent : ∀ n kind c frame, .sent n kind (some c) frame true ∈ t.out →
    .sent n kind (some c) frame true ∈ s.out ∨ call = some c

structure SoundBut (i : Fin 2) (s : Security0) : Prop where
  books : Books s
  others : ∀ j call, j ≠ i → s.InUse j → (s.tx j).callback = some call → Progress s j call

def Sound (s : Security0) : Prop :=
  Books s ∧ ∀ i call, s.InUse i → (s.tx i).callback = some call → Progress s i call

section Slots

variable {s t : Security0} {i : Fin 2}

theorem underWay_eq (s : Security0) (j : Fin 2) (kind : S0Callback) :
    s.underWay j kind = (s.owed.filter (·.slot == j)).countP (·.callback == kind) := by
  rw [underWay, List.countP_filter]
  congr 1
  funext o
  exact Bool.and_comm _ _

theorem Progress.grow {c : Nat} (h : Progress s j c) (htx : t.tx j = s.tx j)
    (howed : t.owed.filter (·.slot == j) = s.owed.filter (·.slot == j))
    (hmono : ∀ o ∈ s.out, o ∈ t.out)
    (hsent : ∀ n kind frame, .sent n kind (some c) frame true ∈ t.out → .sent n kind (some c) frame true ∈ s.out) :
    Progress t j c := by
  have hcount : ∀ kind, t.underWay j kind = s.underWay j kind := by
    intro kind
    rw [underWay_eq, underWay_eq, howed]
  refine ⟨?_, ?_, ?_⟩
  · intro tx kind frame hmem hkind
    rcases h.pending tx kind frame (hsent tx kind frame hmem) hkind with
      hdone | ⟨o, ho, hotx, hoslot, hokind⟩
    · exact .inl (hmono _ hdone)
    · refine .inr ⟨o, ?_, hotx, hoslot, hokind⟩
      have hfilter : o ∈ s.owed.filter (·.slot == j) := by simp [ho, hoslot]
      rw [← howed] at hfilter
      exact List.mem_of_mem_filter hfilter
  · rw [htx]
    simp only [hcount]
    exact h.state
  · rw [htx]
    rcases h.started with hng | hngs | ⟨tx, frame, hsent⟩
    · exact .inl hng
    · exact .inr (.inl hngs)
    · exact .inr (.inr ⟨tx, frame, hmono _ hsent⟩)

theorem Progress.local {c : Nat} {call : Option Nat} (h : Progress s j c)
    (hlocal : Local i call s t) (hj : j ≠ i) (hc : call ≠ some c) : Progress t j c := by
  refine h.grow (hlocal.tx j hj) (hlocal.owed j hj) hlocal.mono fun n kind frame hmem => ?_
  rcases hlocal.sent n kind c frame hmem with hold | hnew
  · exact hold
  · exact absurd hnew hc

theorem SoundBut.step (h : SoundBut i s) (call : Option Nat) (hbooks : Books t) (hlocal : Local i call s t)
    (hcall : ∀ j c, j ≠ i → s.InUse j → (s.tx j).callback = some c → call ≠ some c) :
    SoundBut i t := by
  refine ⟨hbooks, fun j c hj hin hc => ?_⟩
  have hold : s.InUse j := by
    rw [InUse, ← hlocal.tx j hj]
    exact hin
  rw [hlocal.tx j hj] at hc
  exact (h.others j c hj hold hc).local hlocal hj (hcall j c hj hold hc)

theorem Sound.but (h : Sound s) (i : Fin 2) : SoundBut i s :=
  ⟨h.1, fun j call _ => h.2 j call⟩

theorem SoundBut.sound (h : SoundBut i s)
    (hi : ∀ call, s.InUse i → (s.tx i).callback = some call → Progress s i call) : Sound s := by
  refine ⟨h.books, fun j call hj hc => ?_⟩
  by_cases hji : j = i
  · subst hji
    exact hi call hj hc
  · exact h.others j call hji hj hc

theorem SoundBut.edit (h : SoundBut i s) (hcallback : x.callback = (s.tx i).callback)
    (hparam : x.param = (s.tx i).param)
    (hidle : ¬s.InUse i → x.timer = (s.tx i).timer ∧ x.state = (s.tx i).state) :
    SoundBut i (s.setTx i x) := by
  have huse : ∀ j, (s.setTx i x).InUse j ↔ s.InUse j := by
    intro j
    by_cases hj : j = i
    · subst hj
      rw [InUse, tx_setTx_self, hparam, InUse]
    · rw [InUse, tx_setTx_of_ne s x hj, InUse]
  refine h.step none (h.books.extend (.of_eq rfl rfl) ⟨?_, huse, ?_⟩ fun o ho => ho)
    ⟨?_, fun _ _ => rfl, fun _ ho => ho, fun _ _ _ _ hmem => .inl hmem⟩
    fun _ _ _ _ _ heq => by cases heq
  · intro j
    by_cases hj : j = i
    · subst hj
      rw [tx_setTx_self, hcallback]
    · rw [tx_setTx_of_ne s x hj]
  · intro j hj
    by_cases hji : j = i
    · subst hji
      rw [tx_setTx_self]
      exact hidle hj
    · rw [tx_setTx_of_ne s x hji]
      exact ⟨rfl, rfl⟩
  · intro j hj
    exact tx_setTx_of_ne s x hj

theorem SoundBut.extend (h : SoundBut i s) (hlog : Extends s t) (htx : t.tx = s.tx)
    (howed : t.owed = s.owed) : SoundBut i t := by
  have huse : ∀ j, t.InUse j ↔ s.InUse j := by
    intro j
    rw [InUse, htx, InUse]
  refine h.step none (h.books.extend hlog ⟨fun j => by rw [htx], huse, fun j _ => ?_⟩ ?_)
    ⟨fun j _ => by rw [htx], fun _ _ => by rw [howed], fun _ ho => hlog.mono ho, ?_⟩
    fun _ _ _ _ _ heq => by cases heq
  · rw [htx]
    exact ⟨rfl, rfl⟩
  · intro o ho
    rwa [howed] at ho
  · intro _ _ _ _ hmem
    exact .inl ((hlog.mem_iff rfl).mp hmem)

theorem SoundBut.sendFrame (h : SoundBut i s) {c : Nat} (hin : s.InUse i)
    (hcall : (s.tx i).callback = some c) (env : S0Env) (kind : S0Callback) (frame : Bytes) :
    SoundBut i (sendFrame env s i kind frame).2 := by
  have hout : (Security0.sendFrame env s i kind frame).2.out =
      .sent s.nTx kind (some c) frame (env.sendData s.nTx) :: s.out := by
    rw [← hcall]
    rfl
  refine h.step (some c) (h.books.handOver hin hcall rfl rfl hout rfl) ⟨fun _ _ => rfl, ?_, ?_, ?_⟩ ?_
  · intro j hj
    simp only [Security0.sendFrame, log]
    split
    · simp [List.filter_append, Ne.symm hj]
    · rfl
  · intro o ho
    rw [hout]
    exact List.mem_cons_of_mem _ ho
  · intro n k c' f hmem
    rw [hout] at hmem
    rcases List.mem_cons.mp hmem with heq | hmem
    · injection heq with _ _ heq
      exact .inr heq.symm
    · exact .inl hmem
  · intro j c' hj hjin hc' heq
    exact hj (h.books.apart j i hjin hin (by rw [hc', hcall, heq]))

structure Busy (i : Fin 2) (c : Nat) (s : Security0) : Prop extends SoundBut i s where
  inUse : s.InUse i
  callback : (s.tx i).callback = some c

section Busy

variable {c : Nat}

theorem Sound.busy (h : Sound s) (hin : s.InUse i) : ∃ c, Busy i c s ∧ Progress s i c := by
  obtain ⟨c, -, hc, -⟩ := h.1.used i hin
  exact ⟨c, ⟨h.but i, hin, hc⟩, h.2 i c hin hc⟩

theorem Busy.sound (h : Busy i c s) (hprogress : Progress s i c) : Sound s :=
  h.toSoundBut.sound fun _ _ hc => Option.some.inj (h.callback.symm.trans hc) ▸ hprogress

theorem Busy.edit (h : Busy i c s) (hcallback : x.callback = (s.tx i).callback)
    (hparam : x.param = (s.tx i).param) : Busy i c (s.setTx i x) := by
  refine ⟨h.toSoundBut.edit hcallback hparam fun hidle => absurd h.inUse hidle, ?_, ?_⟩
  · rw [InUse, tx_setTx_self, hparam]
    exact h.inUse
  · rw [tx_setTx_self, hcallback]
    exact h.callback

theorem Busy.extend (h : Busy i c s) (hlog : Extends s t) (htx : t.tx = s.tx) (howed : t.owed = s.owed) :
    Busy i c t := by
  refine ⟨h.toSoundBut.extend hlog htx howed, ?_, ?_⟩
  · rw [InUse, htx]
    exact h.inUse
  · rw [htx]
    exact h.callback

theorem Busy.sendFrame (h : Busy i c s) (env : S0Env) (kind : S0Callback) (frame : Bytes) :
    Busy i c (sendFrame env s i kind frame).2 :=
  ⟨h.toSoundBut.sendFrame h.inUse h.callback env kind frame, h.inUse, h.callback⟩

theorem Busy.finish (h : Busy i c s)
    (hx : x.param.dnode = 0 ∧ x.timer = false ∧ x.callback = some c ∧ (x.state = .txDone ∨ x.state = .txFail))
    (hok : status = transmitCompleteOk → s.Acknowledged c) :
    Sound ((s.setTx i x).log (.completed c status)) := by
  have hbut : SoundBut i ((s.setTx i x).log (.completed c status)) := by
    refine h.step none (h.books.finish h.inUse h.callback hx hok rfl rfl rfl rfl)
      ⟨fun j hj => tx_setTx_of_ne s x hj, fun _ _ => rfl, fun _ ho => List.mem_cons_of_mem _ ho, ?_⟩
      fun _ _ _ _ _ heq => by cases heq
    intro n k c' f hmem
    exact .inl (List.mem_of_ne_of_mem (by simp) hmem)
  refine hbut.sound fun call hused => ?_
  exact absurd hx.1 (by simpa [InUse, log] using hused)

theorem Busy.txFail (h : Busy i c s) (hcode : (s.tx i).txCode ≠ transmitCompleteOk) : Sound (s.txFail i) := by
  have heq : s.txFail i = (s.setTx i { s.tx i with
      state := .txFail, param.dnode := 0, timer := false }).log (.completed c (s.tx i).txCode) := by
    unfold Security0.txFail complete
    simp only [tx_setTx_self, h.callback]
  rw [heq]
  exact h.finish ⟨rfl, rfl, h.callback, .inr rfl⟩ fun hok => absurd hok hcode

theorem Busy.ends (h : Busy i c s) (hok : status ≠ transmitCompleteOk) :
    Sound ((s.setTx i { s.tx i with txCode := status }).txFail i) := by
  have hedit : Busy i c (s.setTx i { s.tx i with txCode := status }) := h.edit rfl rfl
  refine hedit.txFail ?_
  rw [tx_setTx_self]
  exact hok

theorem Busy.txFailNow (h : Busy i c s) : Sound (s.txFailNow i) :=
  h.ends (by decide)

theorem Busy.txDone (h : Busy i c s) (hack : s.Acknowledged c) : Sound (s.txDone i) := by
  have heq : s.txDone i = (s.setTx i { s.tx i with
      state := .txDone, param.dnode := 0, timer := false }).log (.completed c transmitCompleteOk) := by
    unfold Security0.txDone complete
    simp only [tx_setTx_self, h.callback]
  rw [heq]
  exact h.finish ⟨rfl, rfl, h.callback, .inl rfl⟩ fun _ => hack

end Busy

theorem underWay_congr (howed : t.owed = s.owed) (kind : S0Callback) : t.underWay i kind = s.underWay i kind := by
  rw [underWay, howed, underWay]

theorem Pending.congr {c : Nat} (h : s.Pending i c) (howed : t.owed = s.owed) (hout : t.out = s.out) :
    t.Pending i c := by
  rw [Pending, howed, hout]
  exact h

theorem Sound.extend (h : Sound s) (hlog : Extends s t) (htx : t.tx = s.tx) (howed : t.owed = s.owed) : Sound t := by
  refine ((h.but 0).extend hlog htx howed).sound fun c hin hc => ?_
  have hold : s.InUse 0 := by
    rw [InUse, ← htx]
    exact hin
  rw [htx] at hc
  exact (h.2 0 c hold hc).grow (by rw [htx]) (by rw [howed]) (fun _ ho => hlog.mono ho)
    fun _ _ _ hmem => (hlog.mem_iff rfl).mp hmem

theorem sound_txTimeout (h : Sound s) (i : Fin 2) : Sound (s.txTimeout i) := by
  unfold txTimeout
  split
  · rename_i htimer
    have hin : s.InUse i := by
      by_contra hidle
      exact absurd ((h.1.idle i hidle).1.symm.trans htimer) (by decide)
    obtain ⟨c, hbusy, -⟩ := h.busy hin
    exact (hbusy.edit (x := { s.tx i with timer := false }) rfl rfl).txFailNow
  · exact h

theorem sound_abortTxSession (h : Sound s) (i : Fin 2) : Sound (s.abortTxSession i) := by
  unfold abortTxSession
  split
  · rename_i hin
    obtain ⟨c, hbusy, -⟩ := h.busy hin
    exact hbusy.txFailNow
  · exact h

/-! #### Handing frames over -/

theorem underWay_sendFrame (kind kind' : S0Callback) (frame : Bytes) (hok : env.sendData s.nTx = true) :
    (Security0.sendFrame env s i kind frame).2.underWay i kind' =
      s.underWay i kind' + if kind = kind' then 1 else 0 := by
  simp only [Security0.sendFrame, underWay, log, hok, if_true, List.countP_append, List.countP_singleton]
  simp

theorem mem_owed_sendFrame (kind : S0Callback) (frame : Bytes) (hok : env.sendData s.nTx = true) (o : S0Owed) :
    o ∈ (Security0.sendFrame env s i kind frame).2.owed ↔ o ∈ s.owed ∨ o = ⟨kind, i, s.nTx⟩ := by
  simp [Security0.sendFrame, log, hok]

theorem Pending.sendFrame {c : Nat} (h : s.Pending i c) (hcall : (s.tx i).callback = some c)
    (env : S0Env) (kind : S0Callback) (frame : Bytes) (hok : env.sendData s.nTx = true) :
    (Security0.sendFrame env s i kind frame).2.Pending i c := by
  have hout : (Security0.sendFrame env s i kind frame).2.out = .sent s.nTx kind (some c) frame true :: s.out := by
    rw [← hcall, ← hok]
    rfl
  intro tx k f hmem hk
  rw [hout] at hmem ⊢
  simp only [mem_owed_sendFrame env kind frame hok]
  rcases List.mem_cons.mp hmem with heq | hmem
  · injection heq with htx hkind
    exact .inr ⟨_, .inr rfl, htx.symm, rfl, hkind.symm⟩
  · rcases h tx k f hmem hk with hdone | ⟨o, ho, hrest⟩
    · exact .inl (List.mem_cons_of_mem _ hdone)
    · exact .inr ⟨o, .inl ho, hrest⟩

theorem extends_registerNonce (s : Security0) (use : NonceUse) (src dst : UInt8) (nonce : Nonce) :
    Extends s (s.registerNonce use src dst nonce) ∧ (s.registerNonce use src dst nonce).tx = s.tx ∧
      (s.registerNonce use src dst nonce).owed = s.owed := by
  unfold registerNonce
  split
  · exact ⟨.entry rfl rfl rfl, rfl, rfl⟩
  · exact ⟨.refl s, rfl, rfl⟩

/-- `encrypt_msg` moves the data pointer of the session, and changes nothing else about sends. -/
theorem encryptMsg_eq {env : S0Env} {pass2 : Bool} {u : Security0} {frame : Option Bytes}
    (h : encryptMsg env s i pass2 draws = some (u, frame)) :
    (u = s ∧ frame = none) ∨ ∃ v, Extends s v ∧ v.tx = s.tx ∧ v.owed = s.owed ∧ u = v.setTx i (s.tx i).advance ∧
        frame ≠ none := by
  unfold encryptMsg at h
  dsimp only at h
  split at h
  · cases h
  · split at h
    · cases h
      exact .inl ⟨rfl, rfl⟩
    · rename_i iv _ _ e _
      generalize hclear : { s with nonceTable := nonceClear s.nonceTable _ _ } = w at h
      obtain ⟨hext, htx, howed⟩ := extends_registerNonce w .reply (s.tx i).param.snode.toUInt8
        (s.tx i).param.dnode.toUInt8 iv
      have hw : Extends s w ∧ w.tx = s.tx ∧ w.owed = s.owed := by
        rw [← hclear]
        exact ⟨.of_eq rfl rfl, rfl, rfl⟩
      cases h
      exact .inr ⟨_, hw.1.trans hext, htx.trans hw.2.1, howed.trans hw.2.2, rfl, by simp⟩

theorem sound_enterEncMsg {env : S0Env} {pass2 : Bool} {c : Nat} (h : Busy i c s)
    (hpend : s.Pending i c) (hmsg2 : s.underWay i .msg2Callback = 0)
    (hmsg1 : s.underWay i .msg1Callback ≤ if pass2 then 1 else 0)
    (hstarted : pass2 = true → ∃ tx frame, .sent tx .msg1Callback (some c) frame true ∈ s.out)
    (hmsg : enterEncMsg env s i pass2 draws = some t) : Sound t := by
  unfold enterEncMsg at hmsg
  dsimp only at hmsg
  generalize hset : s.setTx i { s.tx i with
    state := if pass2 then .encMsg2 else .encMsg, timer := false } = u at hmsg
  have hu : Busy i c u := hset ▸ h.edit rfl rfl
  have hustate : (u.tx i).state = if pass2 then .encMsg2 else .encMsg := by
    rw [← hset, tx_setTx_self]
  have hurest : u.out = s.out ∧ u.owed = s.owed ∧ u.nCalls = s.nCalls := by
    rw [← hset]
    exact ⟨rfl, rfl, rfl⟩
  split at hmsg
  · cases hmsg
  · rename_i v hmsg'
    cases hmsg
    rcases encryptMsg_eq hmsg' with ⟨rfl, -⟩ | ⟨-, -, -, -, -, hne⟩
    · exact hu.txFailNow
    · exact absurd rfl hne
  · rename_i v frame hmsg'
    rcases encryptMsg_eq hmsg' with ⟨-, hne⟩ | ⟨w, hext, htx, howed, hv, -⟩
    · cases hne
    have hvbusy : Busy i c v := by
      rw [hv]
      apply (hu.extend hext htx howed).edit
      · rw [htx]
        rfl
      · rw [htx]
        rfl
    have hvtx : v.tx i = (u.tx i).advance := by rw [hv, tx_setTx_self]
    have hvowed : v.owed = s.owed := by
      rw [hv]
      exact howed.trans hurest.2.1
    have hvlog : Extends s v := by
      rw [hv]
      exact (Extends.of_eq hurest.2.2 hurest.1).trans (hext.trans (.of_eq rfl rfl))
    have hsent := hvbusy.sendFrame env (if pass2 then .msg2Callback else .msg1Callback) frame
    split at hmsg
    · rename_i r hsend
      cases hmsg
      rw [hsend] at hsent
      exact hsent.txFailNow
    · rename_i r hsend
      cases hmsg
      have hok : env.sendData v.nTx = true := congrArg Prod.fst hsend
      have hr : t = (sendFrame env v i (if pass2 then .msg2Callback else .msg1Callback) frame).2 := by
        rw [hsend]
      have hvpend : v.Pending i c := by
        intro tx k f hmem hk
        rw [hvowed]
        rcases hpend tx k f ((hvlog.mem_iff rfl).mp hmem) hk with hdone | hwait
        · exact .inl (hvlog.mono hdone)
        · exact .inr hwait
      have hstate : (t.tx i).state = if pass2 then .encMsg2 else .encMsg := by
        rw [hr]
        exact (congrArg TxSession.state hvtx).trans hustate
      have hway : ∀ k, t.underWay i k = s.underWay i k +
          if (if pass2 then S0Callback.msg2Callback else .msg1Callback) = k then 1 else 0 := by
        intro k
        rw [hr, underWay_sendFrame env _ _ _ hok, underWay_congr hvowed]
      have htout : t.out = .sent v.nTx (if pass2 then .msg2Callback else .msg1Callback) (some c) frame
          true :: v.out := by
        rw [hr, ← hvbusy.callback, ← hok]
        rfl
      rw [← hr] at hsent
      refine hsent.sound ⟨hr ▸ hvpend.sendFrame hvbusy.callback env _ frame hok, ?_, .inr (.inr ?_)⟩
      · rw [hstate]
        cases pass2 with
        | true => simpa [hway, hmsg2] using hmsg1
        | false => simpa [hway, hmsg2] using hmsg1
      · cases hp : pass2 with
        | true =>
          obtain ⟨tx, f, hmem⟩ := hstarted hp
          exact ⟨tx, f, by rw [htout]; exact List.mem_cons_of_mem _ (hvlog.mono hmem)⟩
        | false =>
          rw [htout, hp]
          exact ⟨_, _, List.mem_cons_self⟩

theorem Progress.sent_first {c : Nat} (h : Progress s i c) (hget : (s.tx i).state ≠ .nonceGet)
    (hsent : (s.tx i).state ≠ .nonceGetSent) :
    ∃ tx frame, .sent tx .msg1Callback (some c) frame true ∈ s.out :=
  (h.started.resolve_left hget).resolve_left hsent

theorem sound_sec0RegisterNonce {env : S0Env} {src dst : UInt8} {nonce : Nonce} (h : Sound s)
    (hsrc : src ≠ 0) (hreg : sec0RegisterNonce env s src dst nonce draws = some t) : Sound t := by
  unfold sec0RegisterNonce at hreg
  split at hreg
  · cases hreg
    exact h
  split at hreg
  · cases hreg
    exact h
  rename_i i hfound
  have hin : s.InUse i := by
    have hp := List.find?_some hfound
    simp only [Bool.and_eq_true, beq_iff_eq] at hp
    rw [InUse, hp.1]
    intro hzero
    exact hsrc (by simpa using congrArg UInt16.toUInt8 hzero)
  dsimp only at hreg
  generalize hu : (s.registerNonce .reported src dst nonce).sec0BlacklistAddNonce src dst nonce = u at hreg
  obtain ⟨hext, htx, howed⟩ := extends_registerNonce s .reported src dst nonce
  have hux : Extends s u ∧ u.tx = s.tx ∧ u.owed = s.owed := by
    rw [← hu]
    exact ⟨hext.trans (.of_eq rfl rfl), htx, howed⟩
  have hus : Sound u := h.extend hux.1 hux.2.1 hux.2.2
  have huin : u.InUse i := by
    rw [InUse, hux.2.1]
    exact hin
  obtain ⟨c, hbusy, hprog⟩ := hus.busy huin
  have hstate := hprog.state
  split at hreg
  · rename_i hget
    refine sound_enterEncMsg hbusy hprog.pending ?_ ?_ (by simp) hreg
    · rcases hget with heq | heq <;> rw [heq] at hstate <;> exact hstate.2.2
    · rcases hget with heq | heq <;> rw [heq] at hstate <;> exact Nat.le_of_eq hstate.2.1
  split at hreg
  · rename_i hget
    have hstarted := hprog.sent_first (by rcases hget with heq | ⟨heq, -⟩ <;> rw [heq] <;> decide)
      (by rcases hget with heq | ⟨heq, -⟩ <;> rw [heq] <;> decide)
    refine sound_enterEncMsg hbusy hprog.pending ?_ ?_ (fun _ => hstarted) hreg
    · rcases hget with heq | ⟨heq, -⟩ <;> rw [heq] at hstate
      · exact hstate.2.2
      · exact hstate.2
    · rcases hget with heq | ⟨heq, -⟩ <;> rw [heq] at hstate
      · exact Nat.le_trans (Nat.le_of_eq hstate.2.1) (by decide)
      · exact Nat.le_of_eq hstate.1
  · cases hreg
    exact hus

theorem sound_enterNonceGet {c : Nat} (h : Busy i c s) (hpend : s.Pending i c)
    (hmsg1 : s.underWay i .msg1Callback = 0) (hmsg2 : s.underWay i .msg2Callback = 0) :
    Sound (enterNonceGet env s i) := by
  unfold enterNonceGet
  dsimp only
  generalize hset : s.setTx i { s.tx i with state := .nonceGet } = u
  have hu : Busy i c u := hset ▸ h.edit rfl rfl
  have hself : (u.tx i).state = .nonceGet := by rw [← hset, tx_setTx_self]
  have hurest : u.owed = s.owed ∧ u.out = s.out := by
    rw [← hset]
    exact ⟨rfl, rfl⟩
  have hsent := hu.sendFrame env .noceGetCallback nonceGetFrame
  split
  · rename_i r hsend
    rw [hsend] at hsent
    exact hsent.txFailNow
  · rename_i r hsend
    have hok : env.sendData u.nTx = true := congrArg Prod.fst hsend
    have hr : r = (sendFrame env u i .noceGetCallback nonceGetFrame).2 := by rw [hsend]
    rw [← hr] at hsent
    have hrstate : (r.tx i).state = .nonceGet := by
      rw [hr]
      exact hself
    have hrway : ∀ k, r.underWay i k = s.underWay i k +
        if S0Callback.noceGetCallback = k then 1 else 0 := by
      intro k
      rw [hr, underWay_sendFrame env _ _ _ hok, underWay_congr hurest.1]
    have hrpend : r.Pending i c := by
      rw [hr]
      exact (hpend.congr hurest.1 hurest.2).sendFrame hu.callback env _ _ hok
    have hdone : ∀ v : Security0, Busy i c v → v.owed = r.owed → v.out = r.out →
        (v.tx i).state = .nonceGet → Sound v := by
      intro v hv howed hout hvstate
      refine hv.sound ⟨hrpend.congr howed hout, ?_, .inl hvstate⟩
      rw [hvstate]
      simp [underWay_congr howed, hrway, hmsg1, hmsg2]
    split
    · refine hdone _ (hsent.edit rfl rfl) rfl rfl ?_
      rw [tx_setTx_self]
      exact hrstate
    · exact hdone r hsent rfl rfl hrstate

theorem sound_sec0SendData {env : S0Env} {p : TsParam} {data : Mem} {len : Nat} (h : Sound s) (hdnode : p.dnode ≠ 0)
    (hslot : ∀ i, s.freeTxSession = some i → ∀ o ∈ s.owed, o.slot ≠ i) :
    Sound (sec0SendData env s p data len) := by
  have hrefuse : Sound (({ s with nCalls := s.nCalls + 1 }).log (.called s.nCalls p false)) := by
    refine ⟨h.1.refuse p rfl rfl rfl rfl, fun i c hin hc => ?_⟩
    exact (h.2 i c hin hc).grow rfl rfl (fun _ ho => List.mem_cons_of_mem _ ho)
      fun _ _ _ hmem => List.mem_of_ne_of_mem (by simp) hmem
  unfold sec0SendData
  dsimp only
  split
  · exact hrefuse
  split
  · exact hrefuse
  rename_i i hfree
  have hidle : ¬s.InUse i := by
    have hp := List.find?_some hfree
    simp only [beq_iff_eq] at hp
    exact fun hin => hin hp
  have hnone := hslot i hfree
  generalize hu : ((({ s with nCalls := s.nCalls + 1 }).log (.called s.nCalls p true)).openTxSession i
    p data (len % 256) s.nCalls) = u
  have hbooks : Books u := by
    rw [← hu]
    exact h.1.open (x := { s.tx i with
      param := p, data, dataLen := len % 256, callback := some s.nCalls, seq := s.seq + 1 }) p hidle
      hdnode rfl hnone rfl rfl rfl rfl
  have huout : u.out = .called s.nCalls p true :: s.out := by
    rw [← hu]
    rfl
  have huowed : u.owed = s.owed := by
    rw [← hu]
    rfl
  have hself : (u.tx i).callback = some s.nCalls ∧ (u.tx i).param = p := by
    rw [← hu]
    simp [openTxSession]
  have hubut : SoundBut i u := by
    refine (h.but i).step none hbooks ⟨?_, fun _ _ => by rw [huowed], ?_, ?_⟩ fun _ _ _ _ _ heq => by cases heq
    · intro j hj
      rw [← hu]
      exact tx_setTx_of_ne _ _ hj
    · intro o ho
      rw [huout]
      exact List.mem_cons_of_mem _ ho
    · intro n k c f hmem
      rw [huout] at hmem
      exact .inl (List.mem_of_ne_of_mem (by simp) hmem)
  have hway : ∀ k, u.underWay i k = 0 := by
    intro k
    rw [underWay, huowed, List.countP_eq_zero]
    intro o ho hp
    simp only [Bool.and_eq_true, beq_iff_eq] at hp
    exact hnone o ho hp.1
  have hpend : u.Pending i s.nCalls := by
    intro tx k f hmem
    rw [huout] at hmem
    have hlt := h.1.sent tx k _ f true (List.mem_of_ne_of_mem (by simp) hmem)
    exact absurd hlt (Nat.lt_irrefl _)
  refine sound_enterNonceGet env ⟨hubut, ?_, hself.1⟩ hpend (hway _) (hway _)
  rw [InUse, hself.2]
  exact hdnode

/-! #### The results of transmissions -/

def reported (s : Security0) (n : Nat) (o : S0Owed) (status : UInt8) : Security0 :=
  ({ s with owed := s.owed.eraseIdx n }).log (.txDone o.tx status)

theorem perm_owed (ho : s.owed[n]? = some o) : s.owed.Perm (o :: s.owed.eraseIdx n) := by
  obtain ⟨hlt, rfl⟩ := List.getElem?_eq_some_iff.mp ho
  exact (List.getElem_cons_eraseIdx_perm hlt).symm

theorem filter_eraseIdx (ho : s.owed[n]? = some o) (hj : j ≠ o.slot) :
    (s.owed.eraseIdx n).filter (·.slot == j) = s.owed.filter (·.slot == j) := by
  obtain ⟨hlt, rfl⟩ := List.getElem?_eq_some_iff.mp ho
  conv_rhs => rw [← List.take_append_drop n s.owed, List.drop_eq_getElem_cons hlt]
  rw [List.eraseIdx_eq_take_drop_succ, List.filter_append, List.filter_append, List.filter_cons,
    if_neg (by simpa using Ne.symm hj)]

theorem SoundBut.reported (h : SoundBut i s) (ho : s.owed[n]? = some o) (hslot : o.slot = i)
    (status : UInt8) : SoundBut i (s.reported n o status) := by
  have hlog : Extends s (s.reported n o status) := .entry rfl rfl rfl
  refine h.step none (h.books.extend hlog ⟨fun _ => rfl, fun _ => Iff.rfl, fun _ _ => ⟨rfl, rfl⟩⟩ ?_)
    ⟨fun _ _ => rfl, ?_, fun _ hmem => hlog.mono hmem, ?_⟩ fun _ _ _ _ _ heq => by cases heq
  · intro o' ho'
    exact List.mem_of_mem_eraseIdx ho'
  · intro j hj
    exact filter_eraseIdx ho (hslot ▸ hj)
  · intro _ _ _ _ hmem
    exact .inl ((hlog.mem_iff rfl).mp hmem)

theorem underWay_reported (ho : s.owed[n]? = some o) (hslot : o.slot = i) (status : UInt8) (kind : S0Callback) :
    s.underWay i kind = (s.reported n o status).underWay i kind +
      if o.callback = kind then 1 else 0 := by
  rw [underWay, (perm_owed ho).countP_eq, List.countP_cons]
  simp [reported, underWay, log, hslot]

theorem Pending.reported {c : Nat} (h : s.Pending i c) (ho : s.owed[n]? = some o) (status : UInt8)
    (hok : status = transmitCompleteOk ∨ o.callback = .noceGetCallback) :
    (s.reported n o status).Pending i c := by
  intro tx k f hmem hk
  have hout : (s.reported n o status).out = .txDone o.tx status :: s.out := rfl
  rw [hout] at hmem ⊢
  rcases h tx k f (List.mem_of_ne_of_mem (by simp) hmem) hk with hdone | ⟨o', ho', htx, hslot, hkind⟩
  · exact .inl (List.mem_cons_of_mem _ hdone)
  · rcases List.mem_cons.mp ((perm_owed ho).mem_iff.mp ho') with rfl | hrest
    · rcases hok with rfl | hng
      · rw [← htx]
        exact .inl List.mem_cons_self
      · exact absurd (hkind.symm.trans hng) hk
    · exact .inr ⟨o', hrest, htx, hslot, hkind⟩

theorem Pending.acknowledged {c : Nat} (h : s.Pending i c)
    (hmsg1 : s.underWay i .msg1Callback = 0) (hmsg2 : s.underWay i .msg2Callback = 0)
    (hstarted : ∃ tx frame, .sent tx .msg1Callback (some c) frame true ∈ s.out) :
    s.Acknowledged c := by
  refine ⟨hstarted, fun tx k f hmem hk => ?_⟩
  rcases h tx k f hmem hk with hdone | ⟨o, ho, -, hslot, hkind⟩
  · exact hdone
  · have hnone : ∀ kind, s.underWay i kind = 0 → o.callback ≠ kind := by
      intro kind hzero heq
      have hno := List.countP_eq_zero.mp hzero o ho
      simp [hslot, heq] at hno
    cases k with
    | noceGetCallback => exact absurd rfl hk
    | msg1Callback => exact absurd hkind (hnone _ hmsg1)
    | msg2Callback => exact absurd hkind (hnone _ hmsg2)

theorem Busy.reported {c : Nat} (h : Busy o.slot c s) (ho : s.owed[n]? = some o) (status : UInt8) :
    Busy o.slot c (s.reported n o status) :=
  ⟨h.toSoundBut.reported ho rfl status, h.inUse, h.callback⟩

theorem sound_noceGetCallback {c : Nat} (h : Busy o.slot c s) (hprog : Progress s o.slot c)
    (ho : s.owed[n]? = some o) (hkind : o.callback = .noceGetCallback)
    (hlearn : (s.tx o.slot).state = .nonceGet → status = transmitCompleteOk → s.secureLearnActive = true → (s.tx o.slot).timer = true) :
    Sound ((s.reported n o status).noceGetCallback o.slot status) := by
  have hu := h.reported ho status
  have hway := fun kind => underWay_reported ho rfl status kind
  have hpend := hprog.pending.reported ho status (.inr hkind)
  simp only [hkind] at hway
  have hmsg1 : (s.reported n o status).underWay o.slot .msg1Callback = s.underWay o.slot .msg1Callback := by simp [hway]
  have hmsg2 : (s.reported n o status).underWay o.slot .msg2Callback = s.underWay o.slot .msg2Callback := by simp [hway]
  have hmono : ∀ x ∈ s.out, x ∈ (s.reported n o status).out := fun _ hmem => List.mem_cons_of_mem _ hmem
  have htx : (s.reported n o status).tx = s.tx := rfl
  have hlearning : (s.reported n o status).secureLearnActive = s.secureLearnActive := rfl
  generalize s.reported n o status = u at hu hpend hmsg1 hmsg2 hmono htx hlearning ⊢
  unfold noceGetCallback
  dsimp only
  generalize hset : u.setTx o.slot { u.tx o.slot with txCode := status } = v
  have hv : Busy o.slot c v := hset ▸ hu.edit rfl rfl
  have hself : v.tx o.slot = { s.tx o.slot with txCode := status } := by
    rw [← hset, tx_setTx_self, htx]
  have hvrest : v.owed = u.owed ∧ v.out = u.out ∧ v.secureLearnActive = u.secureLearnActive := by
    rw [← hset]
    exact ⟨rfl, rfl, rfl⟩
  have hvpend := hpend.congr hvrest.1 hvrest.2.1
  have hs := hprog.state
  split
  · rename_i hstate
    rw [hself] at hstate
    have hsstate : (s.tx o.slot).state = .nonceGet := hstate
    rw [hsstate] at hs
    split
    · rename_i hok
      have hwself : (v.enterNonceGetSent o.slot).tx o.slot = { s.tx o.slot with
          txCode := status
          state := .nonceGetSent
          timer := if v.secureLearnActive then (s.tx o.slot).timer else true } := by
        unfold enterNonceGetSent
        rw [tx_setTx_self, hself]
      have hw : Busy o.slot c (v.enterNonceGetSent o.slot) := hv.edit rfl rfl
      have hwway : ∀ k, (v.enterNonceGetSent o.slot).underWay o.slot k = u.underWay o.slot k :=
        fun k => underWay_congr hvrest.1 k
      refine hw.sound ⟨hvpend.congr rfl rfl, ?_, .inr (.inl (by rw [hwself]))⟩
      rw [hwself]
      refine ⟨?_, ?_, ?_⟩
      · dsimp only
        split
        · rename_i hactive
          exact hlearn hsstate hok (hlearning ▸ hvrest.2.2 ▸ hactive)
        · rfl
      · rw [hwway, hmsg1]
        exact hs.2.1
      · rw [hwway, hmsg2]
        exact hs.2.2
    · rename_i hfail
      refine hv.txFail ?_
      rw [hself]
      exact hfail
  · rename_i hstate
    have hvstate : (v.tx o.slot).state = (s.tx o.slot).state := by rw [hself]
    have hvtimer : (v.tx o.slot).timer = (s.tx o.slot).timer := by rw [hself]
    refine hv.sound ⟨hvpend, ?_, ?_⟩
    · rw [hvstate] at hstate ⊢
      simp only [underWay_congr hvrest.1, hvtimer, hmsg1, hmsg2]
      generalize (s.tx o.slot).state = st at hs hstate ⊢
      cases st with
      | nonceGet => exact absurd rfl hstate
      | _ => exact hs
    · rw [hvstate, hvrest.2.1]
      exact hprog.started.imp_right fun hrest => hrest.imp_right fun ⟨tx, frame, hmem⟩ =>
        ⟨tx, frame, hmono _ hmem⟩

theorem Progress.state_of_owed {c : Nat} (h : Progress s o.slot c) (ho : s.owed[n]? = some o) :
    (o.callback = .msg1Callback → (s.tx o.slot).state = .encMsg ∨ (s.tx o.slot).state = .encMsg2) ∧
    (o.callback = .msg2Callback → (s.tx o.slot).state = .encMsg2) := by
  have hpos : 0 < s.underWay o.slot o.callback :=
    List.countP_pos_iff.mpr ⟨o, List.mem_of_getElem? ho, by simp⟩
  have hs := h.state
  refine ⟨fun hkind => ?_, fun hkind => ?_⟩
  all_goals
    rw [hkind] at hpos
    generalize (s.tx o.slot).state = st at hs ⊢
    cases st <;> simp_all

theorem sound_msg1Callback {c : Nat} (h : Busy o.slot c s) (hprog : Progress s o.slot c)
    (ho : s.owed[n]? = some o) (hkind : o.callback = .msg1Callback)
    (hmoved : (s.tx o.slot).state = .encMsg2 → status = transmitCompleteOk) :
    Sound ((s.reported n o status).msg1Callback o.slot status) := by
  have hu := h.reported ho status
  have hway := fun kind => underWay_reported ho rfl status kind
  simp only [hkind] at hway
  have hmsg1 := hway .msg1Callback
  have hmsg2 := hway .msg2Callback
  rw [if_pos rfl] at hmsg1
  rw [if_neg (by decide), Nat.add_zero] at hmsg2
  have hs := hprog.state
  have hstate := (hprog.state_of_owed ho).1 hkind
  have hstarted : ∃ tx frame, .sent tx .msg1Callback (some c) frame true ∈ (s.reported n o status).out := by
    obtain ⟨tx, frame, hmem⟩ := hprog.sent_first (by rcases hstate with heq | heq <;> rw [heq] <;> decide)
      (by rcases hstate with heq | heq <;> rw [heq] <;> decide)
    exact ⟨tx, frame, List.mem_cons_of_mem _ hmem⟩
  unfold msg1Callback
  rcases hstate with hstate | hstate
  · rw [if_pos (by exact hstate)]
    rw [hstate] at hs
    dsimp only
    by_cases hok : status = transmitCompleteOk
    · rw [if_pos hok]
      have hpend := hprog.pending.reported ho status (.inl hok)
      generalize s.reported n o status = u at hu hpend hmsg1 hmsg2 hstarted ⊢
      unfold enterEncMsgSent
      dsimp only
      generalize hset : (u.setTx o.slot { u.tx o.slot with txCode := status }).setTx o.slot
        { (u.setTx o.slot { u.tx o.slot with txCode := status }).tx o.slot with
          state := .encMsgSent } = v
      have hv : Busy o.slot c v :=
        hset ▸ (hu.edit (x := { u.tx o.slot with txCode := status }) rfl rfl).edit rfl rfl
      have hvrest : (v.tx o.slot).state = .encMsgSent ∧ v.owed = u.owed ∧ v.out = u.out := by
        rw [← hset, tx_setTx_self]
        exact ⟨rfl, rfl, rfl⟩
      have hvpend := hpend.congr hvrest.2.1 hvrest.2.2
      rw [← hvrest.2.2] at hstarted
      have hzero1 : v.underWay o.slot .msg1Callback = 0 := by
        rw [underWay_congr hvrest.2.1]
        omega
      have hzero2 : v.underWay o.slot .msg2Callback = 0 := by
        rw [underWay_congr hvrest.2.1]
        omega
      split
      · exact hv.txDone (hvpend.acknowledged hzero1 hzero2 hstarted)
      · have hw : Busy o.slot c (v.setTx o.slot { v.tx o.slot with timer := true }) := hv.edit rfl rfl
        refine hw.sound ⟨hvpend.congr rfl rfl, ?_, .inr (.inr hstarted)⟩
        rw [tx_setTx_self, hvrest.1]
        exact ⟨rfl, hzero1, hzero2⟩
    · rw [if_neg hok]
      exact hu.ends hok
  · rw [if_neg (by
      intro heq
      exact absurd (hstate.symm.trans heq) (by decide))]
    have hpend := hprog.pending.reported ho status (.inl (hmoved hstate))
    rw [hstate] at hs
    refine hu.sound ⟨hpend, ?_, .inr (.inr hstarted)⟩
    have hustate : ((s.reported n o status).tx o.slot).state = .encMsg2 := hstate
    rw [hustate]
    exact ⟨by omega, by omega⟩

theorem sound_msg2Callback {c : Nat} (h : Busy o.slot c s) (hprog : Progress s o.slot c)
    (ho : s.owed[n]? = some o) (hkind : o.callback = .msg2Callback)
    (hfirst : status = transmitCompleteOk → ∀ o' ∈ s.owed, o'.slot = o.slot → o'.callback ≠ .msg1Callback) :
    Sound ((s.reported n o status).msg2Callback o.slot status) := by
  have hu := h.reported ho status
  have hway := fun kind => underWay_reported ho rfl status kind
  simp only [hkind] at hway
  have hmsg1 := hway .msg1Callback
  have hmsg2 := hway .msg2Callback
  rw [if_neg (by decide), Nat.add_zero] at hmsg1
  rw [if_pos rfl] at hmsg2
  have hstate := (hprog.state_of_owed ho).2 hkind
  have hs := hprog.state
  rw [hstate] at hs
  unfold msg2Callback
  rw [if_pos (by exact hstate)]
  dsimp only
  by_cases hok : status = transmitCompleteOk
  · rw [if_pos hok]
    have hpend := hprog.pending.reported ho status (.inl hok)
    have hzero : s.underWay o.slot .msg1Callback = 0 := by
      rw [underWay, List.countP_eq_zero]
      intro o' ho' hp
      simp only [Bool.and_eq_true, beq_iff_eq] at hp
      exact hfirst hok o' ho' hp.1 hp.2
    obtain ⟨tx, frame, hmem⟩ := hprog.sent_first (by rw [hstate]; decide) (by rw [hstate]; decide)
    have hack := hpend.acknowledged (by omega) (by omega) ⟨tx, frame, List.mem_cons_of_mem _ hmem⟩
    have hcode : Busy o.slot c ((s.reported n o status).setTx o.slot
        { (s.reported n o status).tx o.slot with txCode := status }) := hu.edit rfl rfl
    exact Busy.txDone (hcode.edit rfl rfl) hack
  · rw [if_neg hok]
    exact hu.ends hok

theorem sound_runCallback_idle (h : Sound s) (ho : s.owed[n]? = some o) (hidle : ¬s.InUse o.slot) :
    Sound ((s.reported n o status).runCallback o status) := by
  have hbut := (h.but o.slot).reported ho rfl status
  have hended : (s.tx o.slot).state = .txDone ∨ (s.tx o.slot).state = .txFail := by
    rcases (h.1.idle o.slot hidle).2 with hnone | hended
    · exact absurd hnone (h.1.bound o (List.mem_of_getElem? ho))
    · exact hended
  have hstate : ∀ st, st ≠ .txDone → st ≠ .txFail → (s.tx o.slot).state ≠ st := by
    intro st hdone hfail heq
    rcases hended with h' | h'
    · exact hdone (heq.symm.trans h')
    · exact hfail (heq.symm.trans h')
  have huidle : ¬(s.reported n o status).InUse o.slot := hidle
  have htx : (s.reported n o status).tx = s.tx := rfl
  generalize s.reported n o status = u at hbut huidle htx ⊢
  have hdone : SoundBut o.slot u → Sound u := fun hu => hu.sound fun _ hin => absurd hin huidle
  unfold runCallback
  split
  · unfold noceGetCallback
    dsimp only
    rw [tx_setTx_self, htx, if_neg (hstate _ (by decide) (by decide)), ← htx]
    have hedit : SoundBut o.slot (u.setTx o.slot { u.tx o.slot with txCode := status }) :=
      hbut.edit rfl rfl fun _ => ⟨rfl, rfl⟩
    refine hedit.sound fun _ hin => absurd ?_ huidle
    rw [InUse, tx_setTx_self] at hin
    exact hin
  · unfold msg1Callback
    rw [htx, if_neg (hstate _ (by decide) (by decide))]
    exact hdone hbut
  · unfold msg2Callback
    rw [htx, if_neg (hstate _ (by decide) (by decide))]
    exact hdone hbut

theorem sound_transmitDone (h : Sound s) (hok : Orderly s (.transmitDone n status)) :
    Sound (s.transmitDone n status) := by
  unfold transmitDone
  split
  · rename_i o ho
    have htime : s.InTime o status := hok o ho
    change Sound ((s.reported n o status).runCallback o status)
    by_cases hin : s.InUse o.slot
    · obtain ⟨c, hbusy, hprog⟩ := h.busy hin
      unfold runCallback
      split
      · rename_i hkind
        exact sound_noceGetCallback hbusy hprog ho hkind (htime.1 hkind)
      · rename_i hkind
        exact sound_msg1Callback hbusy hprog ho hkind (htime.2.1 hkind)
      · rename_i hkind
        exact sound_msg2Callback hbusy hprog ho hkind (htime.2.2 hkind ((hprog.state_of_owed ho).2 hkind))
    · exact sound_runCallback_idle h ho hin
  · exact h

theorem extends_sec0DecryptMessage (snode dnode : UInt8) (encData : Mem) (len : Nat) :
    Extends s (sec0DecryptMessage env s snode dnode encData len).1 ∧
      (sec0DecryptMessage env s snode dnode encData len).1.tx = s.tx ∧
      (sec0DecryptMessage env s snode dnode encData len).1.owed = s.owed := by
  unfold sec0DecryptMessage
  split
  · exact ⟨.refl s, rfl, rfl⟩
  split
  · exact ⟨.refl s, rfl, rfl⟩
  dsimp only
  split
  · exact ⟨.of_eq rfl rfl, rfl, rfl⟩
  rename_i j u hrx
  have hu : Extends s u ∧ u.tx = s.tx ∧ u.owed = s.owed := by
    unfold rxSessionFor at hrx
    split at hrx
    · cases hrx
      exact ⟨.of_eq rfl rfl, rfl, rfl⟩
    · split at hrx
      · cases hrx
        exact ⟨.of_eq rfl rfl, rfl, rfl⟩
      · cases hrx
  unfold authenticate
  dsimp only
  split
  · exact hu
  · have hlog : ∀ o, ofSend o = false → Extends s (u.log o) :=
      fun o ho => hu.1.trans (.entry rfl rfl ho)
    unfold reassemble
    dsimp only
    split
    · split
      · exact ⟨(hlog _ rfl).trans (.of_eq rfl rfl), hu.2⟩
      · split
        · exact ⟨hlog _ rfl, hu.2⟩
        · split
          · exact ⟨hlog _ rfl, hu.2⟩
          · exact ⟨(hlog _ rfl).trans (.of_eq rfl rfl), hu.2⟩
    · exact ⟨(hlog _ rfl).trans (.of_eq rfl rfl), hu.2⟩

theorem sound_sec0SendNonce {env : S0Env} {src : TsParam} (h : Sound s)
    (hsend : sec0SendNonce env s src draws = some t) : Sound t := by
  unfold sec0SendNonce at hsend
  dsimp only at hsend
  split at hsend
  · cases hsend
  · rename_i nonce _
    generalize hu : ({ s with nTx := s.nTx + 1 }).log (.nonceReport src nonce (env.sendData s.nTx)) = u at hsend
    have hux : Extends s u ∧ u.tx = s.tx ∧ u.owed = s.owed := by
      rw [← hu]
      exact ⟨.entry rfl rfl rfl, rfl, rfl⟩
    have hus : Sound u := h.extend hux.1 hux.2.1 hux.2.2
    cases hsend
    split
    · obtain ⟨hext, htx, howed⟩ := extends_registerNonce u .handedOut src.dnode.toUInt8 src.snode.toUInt8 nonce
      exact hus.extend hext htx howed
    · exact hus

theorem sound_step (e : S0Event) (hok : Orderly s e) (h : Sound s) : Sound (step env s e) := by
  cases e with
  | sendData p data len =>
    exact sound_sec0SendData h hok.1 hok.2
  | abortAll => exact sound_abortTxSession (sound_abortTxSession h 0) 1
  | timeout i => exact sound_txTimeout h i
  | nonceGet src draws =>
    rw [step]
    cases hsend : sec0SendNonce env s src draws with
    | none => exact h
    | some t => exact sound_sec0SendNonce h hsend
  | nonceReport src dst nonce draws =>
    rw [step]
    cases hreg : sec0RegisterNonce env s src dst nonce draws with
    | none => exact h
    | some t => exact sound_sec0RegisterNonce h hok hreg
  | encapsulated snode dnode encData len =>
    obtain ⟨hext, htx, howed⟩ := extends_sec0DecryptMessage env snode dnode encData (len % 256) (s := s)
    exact h.extend hext htx howed
  | transmitDone n status => exact sound_transmitDone h hok
  | nonceTimer => exact h.extend (.of_eq rfl rfl) rfl rfl
  | setKey netkey => exact h.extend (.of_eq rfl rfl) rfl rfl
  | secureLearn active => exact h.extend (.of_eq rfl rfl) rfl rfl
  | time ms => exact h.extend (.of_eq rfl rfl) rfl rfl

theorem sound_init (keys : S0Keys) : Sound (init keys) := by
  have hfree : ∀ i, ¬(init keys).InUse i := fun i hin => hin rfl
  refine ⟨⟨fun i hin => absurd hin (hfree i), fun i _ hin => absurd hin (hfree i),
    fun i _ => ⟨rfl, .inl rfl⟩, ?_, ?_, ?_, ?_, ?_, ?_, ?_⟩, fun i _ hin => absurd hin (hfree i)⟩
  all_goals simp [init]

theorem Progress.waits {c : Nat} (h : Progress s i c) : s.owed ≠ [] ∨ (s.tx i).timer = true := by
  have hpos : ∀ kind, 0 < s.underWay i kind → s.owed ≠ [] := by
    intro kind hpos hnil
    rw [underWay, hnil] at hpos
    exact absurd hpos (by simp)
  have hs := h.state
  generalize (s.tx i).state = st at hs
  cases st with
  | nonceGet => exact .inl (hpos _ hs.1)
  | nonceGetSent => exact .inr hs.1
  | encMsg => exact .inl (hpos .msg1Callback (by omega))
  | encMsgSent => exact .inr hs.1
  | encMsg2 => exact .inl (hpos .msg2Callback (by omega))
  | _ => exact hs.elim

theorem Sound.accounted (h : Sound s) : s.Accounted := by
  have hone : ∀ call p, .called call p true ∈ s.out →
      ((∃ i, s.InUse i ∧ (s.tx i).callback = some call) ∧ s.completions call = 0) ∨ s.completions call = 1 := by
    intro call p hmem
    rcases h.1.accepted call p hmem with ⟨i, hin, hcall⟩ | hdone
    · obtain ⟨c, -, hc, -, hnone⟩ := h.1.used i hin
      obtain rfl : c = call := Option.some.inj (hc.symm.trans hcall)
      exact .inl ⟨⟨i, hin, hcall⟩, hnone⟩
    · exact .inr hdone
  refine ⟨hone, h.1.ok, fun hquiet call p hmem => ?_⟩
  rcases hone call p hmem with ⟨⟨i, hin, hcall⟩, -⟩ | hdone
  · rcases (h.2 i call hin hcall).waits with howed | htimer
    · exact absurd hquiet.1 howed
    · exact absurd ((hquiet.2 i).symm.trans htimer) (by decide)
  · exact hdone

end Slots

/-- In every run of orderly events, the sends are accounted for. -/
theorem sends_accounted (env : S0Env) (keys : S0Keys) (events : List S0Event)
    (hok : Machine.Admissible (step env) Orderly (init keys) events) :
    (run env (init keys) events).Accounted :=
  (Machine.run_invariant_of_admissible (fun _ e hok h => sound_step env e hok h) hok (sound_init keys)).accounted

def sampleS0Env : S0Env where
  aes := ⟨fun _ _ => List.replicate 16 0, fun _ _ => by simp⟩
  sendData := fun _ => true

def sampleParam (dnode : NodeId) : TsParam :=
  { snode := 1, dnode, txFlags := 0, rxFlags := 0 }

def sampleSend (dnode : NodeId) : S0Event :=
  .sendData (sampleParam dnode) (fun _ => 0x20) 5

def sampleReport (src : UInt8) : S0Event :=
  .nonceReport src 1 (Nonce.ofFn fun _ => src) [Nonce.ofFn fun _ => 1]

theorem sampleSend_accounted : (run sampleS0Env (init (sec0SetKey sampleS0Env.aes []))
        [sampleSend 5, .transmitDone 0 0, sampleReport 5, .transmitDone 0 0]).completions 0 = 1 := by
  have haccounted := sends_accounted sampleS0Env (sec0SetKey sampleS0Env.aes [])
    [sampleSend 5, .transmitDone 0 0, sampleReport 5, .transmitDone 0 0] (by decide)
  exact haccounted.2.2 ⟨by decide, by decide⟩ 0 (sampleParam 5) (by decide)

/-- The slot of a send that was aborted is given to a second one, which the acknowledgement of the first one's
frame then completes. -/
def lateCallback : List S0Event :=
  [sampleSend 5, sampleReport 5, .abortAll, sampleSend 6, sampleReport 6, .transmitDone 1 0]

theorem lateCallback_not_accounted :
    ¬(run sampleS0Env (init (sec0SetKey sampleS0Env.aes [])) lateCallback).Accounted := by
  intro h
  have hack := h.2.1 1 (by decide)
  have hsent := hack.2 3 .msg1Callback (((run sampleS0Env (init (sec0SetKey sampleS0Env.aes []))
    lateCallback).out.filterMap fun
      | .sent 3 _ _ frame _ => some frame
      | _ => none).headD []) (by decide) (by decide)
  exact absurd hsent (by decide)

end Security0

end ZipGateway

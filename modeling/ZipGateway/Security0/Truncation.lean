import ZipGateway.Security0.Accounting
import ZipGateway.Security0.RoundTrip

/-!
# What a send puts into its frames

`sec0_send_data` takes its length as a byte, and a session is done after its second frame. A
transcript goes along with a run and keeps the arguments of the sends and, for each frame the layer
below takes, what `encrypt_msg` read to make it.
-/

namespace ZipGateway

/-- What `encrypt_msg` reads for a frame. -/
structure Segment where
  session : TxSession
  keys : S0Keys
  pass2 : Bool
  senderNonce : Nonce
  receiverNonce : Nonce

namespace Segment

def frame (g : Segment) (aes : BlockCipher) : Bytes :=
  g.session.encryptedFrame aes g.keys g.pass2 g.senderNonce g.receiverNonce

def plaintext (g : Segment) : Bytes :=
  g.session.data.slice 0 g.session.segmentLen

end Segment

def S0Out.message : S0Out → Option (Nat × Bytes)
  | .sent _ .msg1Callback (some call) frame true => some (call, frame)
  | .sent _ .msg2Callback (some call) frame true => some (call, frame)
  | _ => none

def S0Event.send : S0Event → Option (Mem × Nat)
  | .sendData _ data len => some (data, len)
  | _ => none

namespace Security0

def framesOf (s : Security0) (call : Nat) : List Bytes :=
  ((s.out.reverse.filterMap S0Out.message).filter fun p => p.1 == call).map Prod.snd

/-- The frame of `ENC_MSG` and `ENC_MSG2`, when there is one and the layer below takes it. -/
def segmentFrom (env : S0Env) (s : Security0) (i : Fin 2) (pass2 : Bool) (draws : List Nonce) :
    Option (Nat × Segment) :=
  let t := s.tx i
  let snode := t.param.snode.toUInt8
  let dnode := t.param.dnode.toUInt8
  match drawNonce s.nonceTable dnode snode draws, getNonce s.nonceTable dnode snode none, t.callback with
  | some iv, some e, some call =>
    if env.sendData s.nTx then some (call, ⟨t, s.keys, pass2, iv, e.nonce⟩) else none
  | _, _, _ => none

/-- The frame a nonce report makes the module send. -/
def segment (env : S0Env) (s : Security0) : S0Event → Option (Nat × Segment)
  | .nonceReport src dst nonce draws =>
    if s.sec0IsNonceBlacklisted src dst nonce then none
    else
      match s.getTxSessionByNode dst src with
      | none => none
      | some i =>
        let s := (s.registerNonce .reported src dst nonce).sec0BlacklistAddNonce src dst nonce
        let t := s.tx i
        if t.state = .nonceGetSent ∨ t.state = .nonceGet then s.segmentFrom env i false draws
        else if t.state = .encMsgSent ∨ (t.state = .encMsg ∧ 0 < t.dataLen) then
          s.segmentFrom env i true draws
        else none
  | _ => none

end Security0

structure Transcript where
  state : Security0
  sends : List (Mem × Nat)
  segments : List (Nat × Segment)

variable {o : S0Out}

namespace Transcript

def step (env : S0Env) (t : Transcript) (e : S0Event) : Transcript where
  state := t.state.step env e
  sends := t.sends ++ e.send.toList
  segments := t.segments ++ (t.state.segment env e).toList

def init (keys : S0Keys) : Transcript :=
  ⟨Security0.init keys, [], []⟩

def run (env : S0Env) (t : Transcript) (events : List S0Event) : Transcript :=
  Machine.run (step env) t events

def segmentsOf (t : Transcript) (call : Nat) : List Segment :=
  (t.segments.filter fun p => p.1 == call).map Prod.snd

def text (t : Transcript) (call : Nat) : Bytes :=
  (t.segmentsOf call).flatMap Segment.plaintext

theorem run_eq (env : S0Env) (t : Transcript) (events : List S0Event) :
    (t.run env events).state = t.state.run env events ∧
      (t.run env events).sends = t.sends ++ events.filterMap S0Event.send := by
  induction events generalizing t with
  | nil => exact ⟨rfl, (List.append_nil _).symm⟩
  | cons e events ih =>
    obtain ⟨hstate, hsends⟩ := ih (t.step env e)
    refine ⟨hstate, hsends.trans ?_⟩
    cases hsend : e.send with
    | none => simp [step, hsend]
    | some p => simp [step, hsend]

theorem segmentsOf_append (t : Transcript) (s : Security0) (sends : List (Mem × Nat)) (call k : Nat) (g : Segment) :
    (⟨s, sends, t.segments ++ [(call, g)]⟩ : Transcript).segmentsOf k =
      if call = k then t.segmentsOf k ++ [g] else t.segmentsOf k := by
  unfold segmentsOf
  rw [List.filter_append, List.map_append]
  split
  · rename_i hcall
    simp [hcall]
  · rename_i hcall
    simp [hcall]

theorem text_append (t : Transcript) (s : Security0) (sends : List (Mem × Nat)) (call : Nat) (g : Segment) :
    (⟨s, sends, t.segments ++ [(call, g)]⟩ : Transcript).text call = t.text call ++ g.plaintext := by
  rw [text, segmentsOf_append, if_pos rfl, List.flatMap_append]
  simp [text]

theorem text_append_of_ne (t : Transcript) (s : Security0) (sends : List (Mem × Nat))
    {call k : Nat} (g : Segment) (hne : call ≠ k) :
    (⟨s, sends, t.segments ++ [(call, g)]⟩ : Transcript).text k = t.text k := by
  rw [text, segmentsOf_append, if_neg hne, text]

end Transcript

/-! ### How far a session is -/

namespace S0TxState

def pass : S0TxState → Nat
  | .nonceGet | .nonceGetSent => 0
  | .encMsg | .encMsgSent => 1
  | .encMsg2 | .encMsg2Sent => 2
  | .txDone => 3
  | .txFail => 4

theorem eq_txFail_of_pass {st : S0TxState} (h : st.pass = 4) : st = .txFail := by
  cases st <;> first | rfl | exact absurd h (by decide)

end S0TxState

namespace TxSession

theorem segmentLen_eq_min (t : TxSession) : t.segmentLen = min t.dataLen 26 := by
  unfold segmentLen getNodeMaxFrameSize
  split
  · omega
  · omega

structure At (t : TxSession) (data : Mem) (n m : Nat) : Prop where
  data_eq : t.data = fun i => data (m + i)
  dataLen_eq : t.dataLen = n - m

theorem At.advance {t : TxSession} {data : Mem} {n m : Nat} (h : t.At data n m) :
    t.advance.At data n (m + min (n - m) 26) := by
  have hseg : t.segmentLen = min (n - m) 26 := by rw [segmentLen_eq_min, h.dataLen_eq]
  constructor
  · funext i
    change t.data (t.segmentLen + i) = _
    rw [h.data_eq, hseg, Nat.add_assoc]
  · change t.dataLen - t.segmentLen = _
    rw [hseg, h.dataLen_eq, Nat.sub_sub]

theorem At.plaintext {t : TxSession} {data : Mem} {n m : Nat} (h : t.At data n m) (keys : S0Keys)
    (pass2 : Bool) (iv ri : Nonce) :
    data.slice 0 m ++ (⟨t, keys, pass2, iv, ri⟩ : Segment).plaintext = data.slice 0 (m + min (n - m) 26) := by
  rw [Segment.plaintext, Mem.slice_add data 0 m (min (n - m) 26), segmentLen_eq_min, h.dataLen_eq]
  congr 1
  rw [h.data_eq, Nat.zero_add]
  exact Mem.slice_shift data m _

end TxSession

def sentBytes (n : Nat) : Nat → Nat
  | 0 => 0
  | 1 => min n 26
  | _ => min n 52

theorem sentBytes_succ (n : Nat) {p : Nat} (hp : p < 2) :
    sentBytes n p + min (n - sentBytes n p) 26 = sentBytes n (p + 1) := by
  obtain rfl | rfl : p = 0 ∨ p = 1 := by omega
  · simp [sentBytes]
  · simp only [sentBytes]
    omega

/-! ### Steps that send nothing of a message and complete none -/

def S0Out.Plain (o : S0Out) : Prop :=
  o.message = none ∧ ∀ call, o ≠ .completed call transmitCompleteOk

theorem S0Out.plain_of_ofSend (h : Security0.ofSend o = false) : o.Plain := by
  constructor
  · cases o with
    | sent tx kind call frame ok =>
      cases call with
      | none => cases kind <;> rfl
      | some call => cases h
    | _ => rfl
  · rintro call rfl
    cases h

namespace Security0

def SlotKept (x y : TxSession) : Prop :=
  y.callback = x.callback ∧ (x.callback = none ∨ y.state = .txFail ∨
      y.state.pass = x.state.pass ∧ y.data = x.data ∧ y.dataLen = x.dataLen)

theorem SlotKept.refl (x : TxSession) : SlotKept x x :=
  ⟨rfl, .inr (.inr ⟨rfl, rfl, rfl⟩)⟩

theorem SlotKept.trans {x y z : TxSession} (hxy : SlotKept x y) (hyz : SlotKept y z) : SlotKept x z := by
  refine ⟨hyz.1.trans hxy.1, ?_⟩
  rcases hxy.2 with hnone | hfail | ⟨hpass, hdata, hlen⟩
  · exact .inl hnone
  · rcases hyz.2 with hnone | hfail' | ⟨hpass, -, -⟩
    · exact .inl (hxy.1 ▸ hnone)
    · exact .inr (.inl hfail')
    · exact .inr (.inl (S0TxState.eq_txFail_of_pass (by rw [hpass, hfail]; rfl)))
  · rcases hyz.2 with hnone | hfail' | ⟨hpass', hdata', hlen'⟩
    · exact .inl (hxy.1 ▸ hnone)
    · exact .inr (.inl hfail')
    · exact .inr (.inr ⟨hpass'.trans hpass, hdata'.trans hdata, hlen'.trans hlen⟩)

structure Quiet (s t : Security0) : Prop where
  nCalls : t.nCalls = s.nCalls
  log : ∃ new, t.out = new ++ s.out ∧ ∀ o ∈ new, o.Plain
  slot : ∀ j, SlotKept (s.tx j) (t.tx j)

namespace Quiet

variable {s t u : Security0} {i : Fin 2}

theorem trans (hst : Quiet s t) (htu : Quiet t u) : Quiet s u := by
  obtain ⟨new, hnew, hplain⟩ := hst.log
  obtain ⟨new', hnew', hplain'⟩ := htu.log
  refine ⟨htu.nCalls.trans hst.nCalls, ⟨new' ++ new, ?_, ?_⟩, fun j => (hst.slot j).trans (htu.slot j)⟩
  · rw [hnew', hnew, List.append_assoc]
  · intro o ho
    rcases List.mem_append.mp ho with ho | ho
    · exact hplain' o ho
    · exact hplain o ho

theorem of_extends (h : Extends s t) (htx : t.tx = s.tx) : Quiet s t := by
  obtain ⟨new, hnew, hof⟩ := h.log
  refine ⟨h.nCalls, ⟨new, hnew, fun o ho => S0Out.plain_of_ofSend (hof o ho)⟩, fun j => ?_⟩
  rw [htx]
  exact .refl _

theorem refl (s : Security0) : Quiet s s :=
  of_extends (.refl s) rfl

theorem log_plain (s : Security0) (ho : o.Plain) : Quiet s (s.log o) :=
  ⟨rfl, ⟨[o], rfl, by simpa using ho⟩, fun _ => .refl _⟩

theorem setTx (s : Security0) (i : Fin 2) {x : TxSession} (hx : SlotKept (s.tx i) x) : Quiet s (s.setTx i x) := by
  refine ⟨rfl, ⟨[], rfl, by simp⟩, fun j => ?_⟩
  by_cases hj : j = i
  · rw [hj, tx_setTx_self]
    exact hx
  · rw [tx_setTx_of_ne _ _ hj]
    exact .refl _

theorem edit (s : Security0) (i : Fin 2) (x : TxSession) (hcall : x.callback = (s.tx i).callback)
    (hpass : x.state.pass = (s.tx i).state.pass) (hdata : x.data = (s.tx i).data)
    (hlen : x.dataLen = (s.tx i).dataLen) : Quiet s (s.setTx i x) :=
  setTx s i ⟨hcall, .inr (.inr ⟨hpass, hdata, hlen⟩)⟩

theorem complete (s : Security0) (i : Fin 2) {status : UInt8} (h : status ≠ transmitCompleteOk) :
    Quiet s (s.complete i status) := by
  unfold Security0.complete
  split
  · apply log_plain
    refine ⟨rfl, fun call heq => h ?_⟩
    injection heq
  · exact .refl s

theorem txFail (s : Security0) (i : Fin 2) (h : (s.tx i).txCode ≠ transmitCompleteOk) : Quiet s (s.txFail i) := by
  have hset : Quiet s (s.setTx i { s.tx i with state := .txFail, param.dnode := 0, timer := false }) :=
    setTx s i ⟨rfl, .inr (.inl rfl)⟩
  exact hset.trans (complete _ i h)

theorem txFailNow (s : Security0) (i : Fin 2) : Quiet s (s.txFailNow i) := by
  refine (edit s i { s.tx i with txCode := transmitCompleteFail } rfl rfl rfl rfl).trans (txFail _ i ?_)
  have hne : transmitCompleteFail ≠ transmitCompleteOk := by decide
  rw [tx_setTx_self]
  exact hne

theorem failed {new : List S0Out} (hcalls : t.nCalls = s.nCalls) (hout : t.out = new ++ s.out)
    (hplain : ∀ o ∈ new, o.Plain) (hcall : (t.tx i).callback = (s.tx i).callback)
    (hrest : ∀ j, j ≠ i → t.tx j = s.tx j) : Quiet s (t.txFailNow i) := by
  have hfail := txFailNow t i
  obtain ⟨more, hmore, hplain'⟩ := hfail.log
  refine ⟨hfail.nCalls.trans hcalls, ⟨more ++ new, ?_, ?_⟩, fun j => ?_⟩
  · rw [hmore, hout, List.append_assoc]
  · intro o ho
    rcases List.mem_append.mp ho with ho | ho
    · exact hplain' o ho
    · exact hplain o ho
  · by_cases hj : j = i
    · subst hj
      exact ⟨(hfail.slot j).1.trans hcall, .inr (.inl (state_txFailNow t j))⟩
    · have hslot := hfail.slot j
      rw [hrest j hj] at hslot
      exact hslot

theorem enterNonceGet (env : S0Env) (s : Security0) (i : Fin 2) :
    Quiet (s.setTx i { s.tx i with state := .nonceGet }) (enterNonceGet env s i) := by
  unfold Security0.enterNonceGet
  dsimp only
  generalize s.setTx i { s.tx i with state := .nonceGet } = u
  have hsend : Quiet u (sendFrame env u i .noceGetCallback nonceGetFrame).2 :=
    ⟨rfl, ⟨[_], rfl, by
      intro o ho
      rw [List.mem_singleton.mp ho]
      exact ⟨rfl, fun _ h => by cases h⟩⟩, fun _ => .refl _⟩
  generalize hr : sendFrame env u i .noceGetCallback nonceGetFrame = r at hsend
  obtain ⟨ok, v⟩ := r
  cases ok with
  | false => exact hsend.trans (txFailNow v i)
  | true =>
    dsimp only
    split
    · exact hsend.trans (edit v i { v.tx i with timer := true } rfl rfl rfl rfl)
    · exact hsend

theorem sec0SendNonce {env : S0Env} {src : TsParam} {draws : List Nonce}
    (h : sec0SendNonce env s src draws = some t) : Quiet s t := by
  unfold Security0.sec0SendNonce at h
  dsimp only at h
  cases hdraw : drawNonce s.nonceTable src.dnode.toUInt8 src.snode.toUInt8 draws with
  | none => simp [hdraw] at h
  | some nonce =>
    simp only [hdraw, Option.some.injEq] at h
    subst h
    have hlog : Quiet s (({ s with nTx := s.nTx + 1 }).log (.nonceReport src nonce (env.sendData s.nTx))) :=
      of_extends (.entry rfl rfl rfl) rfl
    split
    · obtain ⟨hext, htx, -⟩ := extends_registerNonce (({ s with nTx := s.nTx + 1 }).log
        (.nonceReport src nonce (env.sendData s.nTx))) .handedOut src.dnode.toUInt8
        src.snode.toUInt8 nonce
      exact hlog.trans (of_extends hext htx)
    · exact hlog

theorem sec0DecryptMessage (env : S0Env) (s : Security0) (snode dnode : UInt8) (encData : Mem)
    (len : Nat) : Quiet s (sec0DecryptMessage env s snode dnode encData len).1 := by
  obtain ⟨hext, htx, -⟩ := extends_sec0DecryptMessage (s := s) env snode dnode encData len
  exact of_extends hext htx

theorem sec0AbortAllTxSessions (s : Security0) : Quiet s s.sec0AbortAllTxSessions := by
  have hone : ∀ (u : Security0) (j : Fin 2), Quiet u (u.abortTxSession j) := by
    intro u j
    unfold abortTxSession
    split
    · exact txFailNow u j
    · exact .refl u
  exact (hone s 0).trans (hone _ 1)

theorem txTimeout (s : Security0) (i : Fin 2) : Quiet s (s.txTimeout i) := by
  unfold Security0.txTimeout
  split
  · exact (edit s i { s.tx i with timer := false } rfl rfl rfl rfl).trans (txFailNow _ i)
  · exact .refl s

theorem noceGetCallback (s : Security0) (i : Fin 2) (status : UInt8) : Quiet s (s.noceGetCallback i status) := by
  unfold Security0.noceGetCallback
  dsimp only
  have hcode : Quiet s (s.setTx i { s.tx i with txCode := status }) :=
    edit s i _ rfl rfl rfl rfl
  split
  · rename_i hstate
    split
    · refine hcode.trans ?_
      unfold enterNonceGetSent
      refine edit _ i _ rfl ?_ rfl rfl
      rw [hstate]
      rfl
    · rename_i hstatus
      refine hcode.trans (txFail _ i ?_)
      rw [tx_setTx_self]
      exact hstatus
  · exact hcode

theorem callbackFail (s : Security0) (i : Fin 2) {status : UInt8} (h : status ≠ transmitCompleteOk) :
    Quiet s ((s.setTx i { s.tx i with txCode := status }).txFail i) := by
  refine (edit s i { s.tx i with txCode := status } rfl rfl rfl rfl).trans (txFail _ i ?_)
  rw [tx_setTx_self]
  exact h

end Quiet

/-! ### Frames -/

structure Sent (env : S0Env) (s : Security0) (i : Fin 2) (pass2 : Bool) (call : Nat) (g : Segment)
    (t : Security0) : Prop where
  session : g.session = s.tx i
  callback : (s.tx i).callback = some call
  nCalls : t.nCalls = s.nCalls
  log : ∃ new, t.out = .sent s.nTx (if pass2 then .msg2Callback else .msg1Callback) (some call)
    (g.frame env.aes) true :: new ++ s.out ∧ ∀ o ∈ new, o.Plain
  slot : t.tx i = { (s.tx i).advance with
    state := if pass2 then .encMsg2 else .encMsg, timer := false }
  rest : ∀ j, j ≠ i → t.tx j = s.tx j

section EnterEncMsg

variable {env : S0Env} {s t : Security0} {i : Fin 2} {pass2 : Bool} {draws : List Nonce}

/-- `ENC_MSG` and `ENC_MSG2` send a frame, or fail, or are of a slot without a callback. -/
theorem enterEncMsg_cases (h : enterEncMsg env s i pass2 draws = some t) :
    (s.segmentFrom env i pass2 draws = none ∧ Quiet s t) ∨
      ∃ call g, s.segmentFrom env i pass2 draws = some (call, g) ∧ Sent env s i pass2 call g t := by
  unfold enterEncMsg encryptMsg at h
  unfold segmentFrom
  dsimp only at h ⊢
  rw [tx_setTx_self] at h
  generalize hset : s.setTx i { s.tx i with
    state := if pass2 then .encMsg2 else .encMsg, timer := false } = u at h
  have hnonces : u.nonceTable = s.nonceTable ∧ u.keys = s.keys ∧ u.nTx = s.nTx ∧
      u.out = s.out ∧ u.nCalls = s.nCalls := by
    rw [← hset]
    exact ⟨rfl, rfl, rfl, rfl, rfl⟩
  have hslot : u.tx i = { s.tx i with
      state := if pass2 then .encMsg2 else .encMsg, timer := false } := by
    rw [← hset, tx_setTx_self]
  have hrest : ∀ j, j ≠ i → u.tx j = s.tx j := by
    intro j hj
    rw [← hset, tx_setTx_of_ne _ _ hj]
  rw [hnonces.1] at h
  cases hdraw : drawNonce s.nonceTable (s.tx i).param.dnode.toUInt8 (s.tx i).param.snode.toUInt8 draws with
  | none => simp [hdraw] at h
  | some iv =>
    cases hget : getNonce s.nonceTable (s.tx i).param.dnode.toUInt8 (s.tx i).param.snode.toUInt8 none with
    | none =>
      simp only [hdraw, hget, Option.some.injEq] at h
      subst h
      have hout : u.out = [] ++ s.out := hnonces.2.2.2.1
      refine .inl ⟨rfl, Quiet.failed hnonces.2.2.2.2 hout (by simp) ?_ hrest⟩
      rw [hslot]
    | some e =>
      simp only [hdraw, hget] at h
      generalize hclear : { u with nonceTable := nonceClear s.nonceTable _ _ } = w at h
      have hw : w.tx = u.tx ∧ w.keys = s.keys ∧ w.nTx = s.nTx ∧ Extends s w := by
        rw [← hclear]
        exact ⟨rfl, hnonces.2.1, hnonces.2.2.1, .of_eq hnonces.2.2.2.2 hnonces.2.2.2.1⟩
      obtain ⟨htx, hkeys, hnTx⟩ := registerNonce_eq w .reply (s.tx i).param.snode.toUInt8
        (s.tx i).param.dnode.toUInt8 iv
      have hext := hw.2.2.2.trans (extends_registerNonce w .reply (s.tx i).param.snode.toUInt8
        (s.tx i).param.dnode.toUInt8 iv).1
      generalize w.registerNonce .reply _ _ iv = v at h htx hkeys hnTx hext
      obtain ⟨new, hnew, hof⟩ := hext.log
      have hplain : ∀ o ∈ new, o.Plain := fun o ho => S0Out.plain_of_ofSend (hof o ho)
      rw [hkeys, hw.2.1] at h
      set g : Segment := ⟨s.tx i, s.keys, pass2, iv, e.nonce⟩ with hg
      have hframe : TxSession.encryptedFrame { s.tx i with
          state := if pass2 then .encMsg2 else .encMsg, timer := false } env.aes s.keys pass2 iv
          e.nonce = g.frame env.aes := rfl
      have hadvance : TxSession.advance { s.tx i with
          state := if pass2 then .encMsg2 else .encMsg, timer := false } =
          { (s.tx i).advance with
            state := if pass2 then .encMsg2 else .encMsg, timer := false } := rfl
      rw [hframe, hadvance] at h
      unfold sendFrame at h
      dsimp only at h
      have hsendTx : (v.setTx i { (s.tx i).advance with
          state := if pass2 then .encMsg2 else .encMsg, timer := false }).nTx = s.nTx :=
        hnTx.trans hw.2.2.1
      rw [hsendTx, tx_setTx_self] at h
      have hslots : ∀ j, j ≠ i → v.tx j = s.tx j := by
        intro j hj
        rw [htx, hw.1, hrest j hj]
      generalize hx : ({ (s.tx i).advance with
        state := if pass2 then .encMsg2 else .encMsg, timer := false } : TxSession) = x at h
      have hxcall : x.callback = (s.tx i).callback := by
        rw [← hx]
        rfl
      rw [hxcall] at h
      generalize hkind : (if pass2 then S0Callback.msg2Callback else .msg1Callback) = kind at h ⊢
      have hout : ∀ o : S0Out, o :: v.out = o :: new ++ s.out := fun o => by rw [hnew]; rfl
      cases hok : env.sendData s.nTx with
      | false =>
        simp only [hok, Option.some.injEq] at h
        left
        constructor
        · cases (s.tx i).callback <;> rfl
        · rw [← h]
          refine Quiet.failed hext.nCalls (hout _) ?_ ?_ fun j hj => ?_
          · intro o ho
            rcases List.mem_cons.mp ho with rfl | ho
            · refine ⟨?_, fun _ heq => by cases heq⟩
              cases kind <;> cases (s.tx i).callback <;> rfl
            · exact hplain o ho
          · exact (congrArg TxSession.callback (tx_setTx_self v i x)).trans hxcall
          · exact (tx_setTx_of_ne v x hj).trans (hslots j hj)
      | true =>
        simp only [hok, Option.some.injEq] at h
        cases hcall : (s.tx i).callback with
        | none =>
          left
          refine ⟨rfl, ?_⟩
          rw [← h]
          refine ⟨hext.nCalls, ⟨_, hout _, ?_⟩, fun j => ?_⟩
          · intro o ho
            rcases List.mem_cons.mp ho with rfl | ho
            · refine ⟨?_, fun _ heq => by cases heq⟩
              rw [hcall]
              cases kind <;> rfl
            · exact hplain o ho
          · by_cases hj : j = i
            · subst hj
              refine ⟨?_, .inl hcall⟩
              exact (congrArg TxSession.callback (tx_setTx_self v j x)).trans hxcall
            · have hsame := (tx_setTx_of_ne v x hj).trans (hslots j hj)
              refine ⟨congrArg TxSession.callback hsame, .inr (.inr ⟨?_, ?_, ?_⟩)⟩
              · exact congrArg (fun y => y.state.pass) hsame
              · exact congrArg TxSession.data hsame
              · exact congrArg TxSession.dataLen hsame
        | some call =>
          right
          refine ⟨call, g, rfl, rfl, hcall, ?_, ⟨new, ?_, hplain⟩, ?_, fun j hj => ?_⟩
          · rw [← h]
            exact hext.nCalls
          · rw [← h, ← hcall, hkind]
            exact hout _
          · rw [← h, hx]
            exact tx_setTx_self v i x
          · rw [← h]
            exact (tx_setTx_of_ne v x hj).trans (hslots j hj)

end EnterEncMsg

end Security0

/-! ### The invariant -/

/-- The transcript tells what the state says: its segments are the frames of the log, a slot is in
its message where its state says, and a send that succeeded has sent what two frames can hold. -/
structure Told (env : S0Env) (t : Transcript) : Prop where
  sends : t.sends.length = t.state.nCalls
  frames : t.state.out.reverse.filterMap S0Out.message = t.segments.map fun p => (p.1, p.2.frame env.aes)
  known : ∀ p ∈ t.segments, p.1 < t.sends.length
  distinct : ∀ i j call, (t.state.tx i).callback = some call → (t.state.tx j).callback = some call → i = j
  slot : ∀ i call, (t.state.tx i).callback = some call → ∃ data len,
    t.sends[call]? = some (data, len) ∧ ((t.state.tx i).state.pass < 3 →
      (t.state.tx i).At data (len % 256) (sentBytes (len % 256) (t.state.tx i).state.pass) ∧
      t.text call = data.slice 0 (sentBytes (len % 256) (t.state.tx i).state.pass))
  done : ∀ call, .completed call transmitCompleteOk ∈ t.state.out → (∃ data len, t.sends[call]? = some (data, len) ∧
      t.text call = data.slice 0 (min (len % 256) 52)) ∧
    ∀ i, (t.state.tx i).callback = some call → 3 ≤ (t.state.tx i).state.pass

namespace Told

variable {env : S0Env} {t : Transcript} {s : Security0} {i : Fin 2} {data : Mem} {len : Nat}

theorem init (env : S0Env) (keys : S0Keys) : Told env (.init keys) where
  sends := rfl
  frames := rfl
  known := by simp [Transcript.init]
  distinct := fun i j call h => by cases h
  slot := fun i call h => by cases h
  done := fun call h => by cases h

theorem filterMap_plain {new : List S0Out} (h : ∀ o ∈ new, o.Plain) (out : List S0Out) :
    (new ++ out).reverse.filterMap S0Out.message = out.reverse.filterMap S0Out.message := by
  rw [List.reverse_append, List.filterMap_append]
  have hnone : new.reverse.filterMap S0Out.message = [] := by
    rw [List.filterMap_eq_nil_iff]
    exact fun o ho => (h o (List.mem_reverse.mp ho)).1
  rw [hnone, List.append_nil]

theorem mem_of_plain {new out : List S0Out} (h : ∀ o ∈ new, o.Plain) {call : Nat}
    (hmem : S0Out.completed call transmitCompleteOk ∈ new ++ out) :
    .completed call transmitCompleteOk ∈ out := by
  rcases List.mem_append.mp hmem with hnew | hold
  · exact absurd rfl ((h _ hnew).2 call)
  · exact hold

theorem quiet (h : Told env t) (hq : Security0.Quiet t.state s) : Told env { t with state := s } := by
  obtain ⟨new, hnew, hplain⟩ := hq.log
  refine ⟨h.sends.trans hq.nCalls.symm, ?_, h.known, ?_, ?_, ?_⟩
  · exact (congrArg (fun out => out.reverse.filterMap S0Out.message) hnew).trans
      ((filterMap_plain hplain _).trans h.frames)
  · intro i j call hi hj
    exact h.distinct i j call ((hq.slot i).1.symm.trans hi) ((hq.slot j).1.symm.trans hj)
  · intro i call hcall
    have hold := (hq.slot i).1.symm.trans hcall
    obtain ⟨data, len, hsend, hat⟩ := h.slot i call hold
    refine ⟨data, len, hsend, fun hlt => ?_⟩
    rcases (hq.slot i).2 with hnone | hfail | ⟨hpass, hdata, hlen⟩
    · rw [hold] at hnone
      cases hnone
    · have hpass : (s.tx i).state.pass = 4 := by rw [hfail]; rfl
      exact absurd hlt (by change ¬(s.tx i).state.pass < 3; omega)
    · change (s.tx i).At data (len % 256) (sentBytes (len % 256) (s.tx i).state.pass) ∧ _
      change (s.tx i).state.pass < 3 at hlt
      rw [hpass] at hlt ⊢
      obtain ⟨hat, htext⟩ := hat hlt
      exact ⟨⟨hdata.trans hat.data_eq, hlen.trans hat.dataLen_eq⟩, htext⟩
  · intro call hmem
    have hmem' : S0Out.completed call transmitCompleteOk ∈ new ++ t.state.out := hnew ▸ hmem
    obtain ⟨hsent, hover⟩ := h.done call (mem_of_plain hplain hmem')
    refine ⟨hsent, fun i hcall => ?_⟩
    have hold := (hq.slot i).1.symm.trans hcall
    have hthree := hover i hold
    change 3 ≤ (s.tx i).state.pass
    rcases (hq.slot i).2 with hnone | hfail | ⟨hpass, -, -⟩
    · rw [hold] at hnone
      cases hnone
    · rw [hfail]
      decide
    · rwa [hpass]

theorem lt_of_getElem? {α : Type*} {l : List α} {n : Nat} {x : α} (h : l[n]? = some x) : n < l.length :=
  (List.getElem?_eq_some_iff.mp h).1

theorem ne_length (h : Told env t) : (∀ i, (t.state.tx i).callback ≠ some t.sends.length) ∧
    .completed t.sends.length transmitCompleteOk ∉ t.state.out ∧
    t.text t.sends.length = [] := by
  refine ⟨fun i hcall => ?_, fun hmem => ?_, ?_⟩
  · obtain ⟨data, len, hsend, -⟩ := h.slot i _ hcall
    exact absurd (lt_of_getElem? hsend) (by omega)
  · obtain ⟨⟨data, len, hsend, -⟩, -⟩ := h.done _ hmem
    exact absurd (lt_of_getElem? hsend) (by omega)
  · have hnone : (t.segments.filter fun p => p.1 == t.sends.length) = [] := by
      rw [List.filter_eq_nil_iff]
      intro p hp heq
      exact absurd (h.known p hp) (by rw [beq_iff_eq.mp heq]; omega)
    rw [Transcript.text, Transcript.segmentsOf, hnone]
    rfl

theorem sent (h : Told env t) {pass2 : Bool} {call : Nat} {g : Segment} {p : Nat}
    (hsent : Security0.Sent env t.state i pass2 call g s) (hpass : (t.state.tx i).state.pass = p)
    (hlt : p < 2) (hnext : (if pass2 then S0TxState.encMsg2 else .encMsg).pass = p + 1) :
    Told env ⟨s, t.sends, t.segments ++ [(call, g)]⟩ := by
  obtain ⟨new, hnew, hplain⟩ := hsent.log
  obtain ⟨data, len, hsend, hat⟩ := h.slot i call hsent.callback
  rw [hpass] at hat
  obtain ⟨hplace, htext⟩ := hat (by omega)
  have hcalls : ∀ j, (s.tx j).callback = (t.state.tx j).callback := by
    intro j
    by_cases hj : j = i
    · rw [hj, hsent.slot]
      rfl
    · rw [hsent.rest j hj]
  have hmem : ∀ k, S0Out.completed k transmitCompleteOk ∈ s.out → .completed k transmitCompleteOk ∈ t.state.out := by
    intro k hk
    rw [hnew] at hk
    rcases List.mem_cons.mp hk with heq | hk
    · cases heq
    · exact mem_of_plain hplain hk
  have hother : ∀ k j, (t.state.tx j).callback = some k → j ≠ i → call ≠ k := by
    intro k j hk hj heq
    exact hj (h.distinct j i k hk (heq ▸ hsent.callback))
  refine ⟨h.sends.trans hsent.nCalls.symm, ?_, ?_, ?_, ?_, ?_⟩
  · have hmessage : (S0Out.sent t.state.nTx (if pass2 then .msg2Callback else .msg1Callback)
        (some call) (g.frame env.aes) true).message = some (call, g.frame env.aes) := by
      cases pass2 <;> rfl
    change s.out.reverse.filterMap S0Out.message = _
    rw [hnew, List.cons_append, List.reverse_cons, List.filterMap_append, filterMap_plain hplain,
      h.frames, List.map_append]
    simp [hmessage]
  · intro q hq
    rcases List.mem_append.mp hq with hq | hq
    · exact h.known q hq
    · rw [List.mem_singleton.mp hq]
      exact lt_of_getElem? hsend
  · intro j k c hj hk
    exact h.distinct j k c ((hcalls j).symm.trans hj) ((hcalls k).symm.trans hk)
  · intro j k hk
    have hold : (t.state.tx j).callback = some k := (hcalls j).symm.trans hk
    by_cases hj : j = i
    · subst hj
      obtain rfl : call = k := Option.some.inj (hsent.callback.symm.trans hold)
      refine ⟨data, len, hsend, fun _ => ?_⟩
      have hstate : (s.tx j).state.pass = p + 1 := by
        rw [hsent.slot]
        exact hnext
      have hmore := sentBytes_succ (len % 256) hlt
      change (s.tx j).At data (len % 256) (sentBytes (len % 256) (s.tx j).state.pass) ∧ _
      rw [hstate, ← hmore, Transcript.text_append, htext]
      constructor
      · rw [hsent.slot]
        exact ⟨hplace.advance.data_eq, hplace.advance.dataLen_eq⟩
      · have hpart := hplace.plaintext g.keys g.pass2 g.senderNonce g.receiverNonce
        rw [← hsent.session] at hpart
        exact hpart
    · obtain ⟨data', len', hsend', hat'⟩ := h.slot j k hold
      refine ⟨data', len', hsend', ?_⟩
      change (s.tx j).state.pass < 3 → (s.tx j).At _ _ _ ∧ _
      rw [hsent.rest j hj, Transcript.text_append_of_ne _ _ _ _ (hother k j hold hj)]
      exact hat'
  · intro k hk
    obtain ⟨⟨data', len', hsend', htext'⟩, hover⟩ := h.done k (hmem k hk)
    have hne : call ≠ k := by
      rintro rfl
      have hthree := hover i hsent.callback
      omega
    refine ⟨⟨data', len', hsend', ?_⟩, fun j hj => ?_⟩
    · rw [Transcript.text_append_of_ne _ _ _ _ hne]
      exact htext'
    · have hold : (t.state.tx j).callback = some k := (hcalls j).symm.trans hj
      have hji : j ≠ i := by
        rintro rfl
        exact hne (Option.some.inj (hsent.callback.symm.trans hold))
      have hthree := hover j hold
      change 3 ≤ (s.tx j).state.pass
      rwa [hsent.rest j hji]

theorem txDone (h : Told env t) (hstate : (t.state.tx i).state.pass = 1 ∧ (t.state.tx i).dataLen = 0 ∨
      (t.state.tx i).state.pass = 2) :
    Told env { t with state := t.state.txDone i } := by
  have hfail : (t.state.txDone i).nCalls = t.state.nCalls ∧
      (∀ j, ((t.state.txDone i).tx j).callback = (t.state.tx j).callback) ∧
      ((t.state.txDone i).tx i).state.pass = 3 ∧
      (∀ j, j ≠ i → (t.state.txDone i).tx j = t.state.tx j) ∧
      (t.state.txDone i).out = ((t.state.tx i).callback.map fun call =>
        S0Out.completed call transmitCompleteOk).toList ++ t.state.out := by
    unfold Security0.txDone Security0.complete
    rw [Security0.tx_setTx_self]
    cases (t.state.tx i).callback with
    | none =>
      refine ⟨rfl, fun j => ?_, ?_, fun j hj => Security0.tx_setTx_of_ne _ _ hj, rfl⟩
      · by_cases hj : j = i
        · subst hj
          simp [Security0.setTx]
        · simp [Security0.setTx, hj]
      · simp [Security0.setTx, S0TxState.pass]
    | some call =>
      refine ⟨rfl, fun j => ?_, ?_, fun j hj => Security0.tx_setTx_of_ne _ _ hj, rfl⟩
      · by_cases hj : j = i
        · subst hj
          simp [Security0.setTx, Security0.log]
        · simp [Security0.setTx, Security0.log, hj]
      · simp [Security0.setTx, Security0.log, S0TxState.pass]
  obtain ⟨hcount, hcalls, hpass, hrest, hout⟩ := hfail
  generalize t.state.txDone i = s at hcount hcalls hpass hrest hout
  refine ⟨h.sends.trans hcount.symm, ?_, h.known, ?_, ?_, ?_⟩
  · change s.out.reverse.filterMap S0Out.message = _
    rw [hout, ← h.frames]
    cases (t.state.tx i).callback with
    | none => rfl
    | some call => simp [S0Out.message]
  · intro j k c hj hk
    exact h.distinct j k c ((hcalls j).symm.trans hj) ((hcalls k).symm.trans hk)
  · intro j k hk
    obtain ⟨data, len, hsend, hat⟩ := h.slot j k ((hcalls j).symm.trans hk)
    refine ⟨data, len, hsend, ?_⟩
    change (s.tx j).state.pass < 3 → (s.tx j).At _ _ _ ∧ _
    by_cases hj : j = i
    · rw [hj, hpass]
      exact fun hlt => absurd hlt (by omega)
    · rw [hrest j hj]
      exact hat
  · intro k hk
    have hover : (∀ j, (t.state.tx j).callback = some k → 3 ≤ (t.state.tx j).state.pass) →
        ∀ j, (s.tx j).callback = some k → 3 ≤ (s.tx j).state.pass := by
      intro hold j hj
      by_cases hji : j = i
      · rw [hji, hpass]
      · rw [hrest j hji]
        exact hold j ((hcalls j).symm.trans hj)
    have hmem : S0Out.completed k transmitCompleteOk ∈ s.out := hk
    rw [hout] at hmem
    rcases List.mem_append.mp hmem with hnew | hold
    · have hcall : (t.state.tx i).callback = some k := by
        cases hcall : (t.state.tx i).callback with
        | none => simp [hcall] at hnew
        | some c =>
          rw [hcall] at hnew
          have heq := List.mem_singleton.mp hnew
          injection heq with heq
          rw [heq]
      obtain ⟨data, len, hsend, hat⟩ := h.slot i k hcall
      refine ⟨⟨data, len, hsend, ?_⟩, fun j hj => ?_⟩
      · rcases hstate with ⟨hone, hzero⟩ | htwo
        · rw [hone] at hat
          obtain ⟨hplace, htext⟩ := hat (by omega)
          have hleft := hplace.dataLen_eq
          have hall : sentBytes (len % 256) 1 = min (len % 256) 52 := by
            simp only [sentBytes] at hleft ⊢
            omega
          exact htext.trans (by rw [hall])
        · rw [htwo] at hat
          exact (hat (by omega)).2
      · obtain rfl : j = i := h.distinct j i k ((hcalls j).symm.trans hj) hcall
        change 3 ≤ (s.tx j).state.pass
        omega
    · obtain ⟨hsent, hold⟩ := h.done k hold
      exact ⟨hsent, hover hold⟩

theorem refused (h : Told env t) (data : Mem) (len : Nat) (htx : s.tx = t.state.tx)
    (hcalls : s.nCalls = t.state.nCalls + 1) (ho : o.Plain) (hout : s.out = o :: t.state.out) :
    Told env ⟨s, t.sends ++ [(data, len)], t.segments⟩ := by
  have hsends : ∀ {k x}, t.sends[k]? = some x → (t.sends ++ [(data, len)])[k]? = some x :=
    fun hx => (List.getElem?_append_left (lt_of_getElem? hx)).trans hx
  have hplain : ∀ o' ∈ [o], o'.Plain := by simpa using ho
  refine ⟨?_, ?_, ?_, ?_, ?_, ?_⟩
  · change (t.sends ++ [(data, len)]).length = s.nCalls
    rw [List.length_append, h.sends, hcalls]
    rfl
  · change s.out.reverse.filterMap S0Out.message = _
    rw [hout]
    exact (filterMap_plain hplain _).trans h.frames
  · intro p hp
    exact Nat.lt_of_lt_of_le (h.known p hp) (by simp)
  · intro i j call hi hj
    rw [htx] at hi hj
    exact h.distinct i j call hi hj
  · intro i call hcall
    rw [htx] at hcall ⊢
    obtain ⟨d, n, hsend, hat⟩ := h.slot i call hcall
    exact ⟨d, n, hsends hsend, hat⟩
  · intro call hmem
    change S0Out.completed call transmitCompleteOk ∈ s.out at hmem
    rw [hout] at hmem
    obtain ⟨⟨d, n, hsend, htext⟩, hover⟩ := h.done call (mem_of_plain hplain hmem)
    refine ⟨⟨d, n, hsends hsend, htext⟩, fun i hcall => ?_⟩
    rw [htx] at hcall ⊢
    exact hover i hcall

theorem opened (h : Told env ⟨s, t.sends ++ [(data, len)], t.segments⟩) (hold : Told env t)
    (hsame : ∀ i call, (s.tx i).callback = some call → call < t.sends.length)
    (hdone : .completed t.sends.length transmitCompleteOk ∉ s.out) {x : TxSession}
    (hcall : x.callback = some t.sends.length) (hpass : x.state.pass = 0)
    (hat : x.At data (len % 256) 0) {u : Security0} (htx : u.tx = Function.update s.tx i x)
    (hcalls : u.nCalls = s.nCalls) (hout : u.out = s.out) :
    Told env ⟨u, t.sends ++ [(data, len)], t.segments⟩ := by
  have hself : u.tx i = x := by rw [htx, Function.update_self]
  have hrest : ∀ j, j ≠ i → u.tx j = s.tx j := by
    intro j hj
    rw [htx, Function.update_of_ne hj]
  have hnew : ∀ j, (u.tx j).callback = some t.sends.length → j = i := by
    intro j hj
    by_contra hji
    rw [hrest j hji] at hj
    exact absurd (hsame j _ hj) (by omega)
  refine ⟨h.sends.trans hcalls.symm, ?_, h.known, ?_, ?_, ?_⟩
  · exact (congrArg (fun out => out.reverse.filterMap S0Out.message) hout).trans h.frames
  · intro j k call hj hk
    by_cases hlast : call = t.sends.length
    · rw [hnew j (hlast ▸ hj), hnew k (hlast ▸ hk)]
    · have hne : ∀ m, (u.tx m).callback = some call → m ≠ i := by
        rintro m hm rfl
        rw [hself, hcall] at hm
        exact hlast (Option.some.inj hm).symm
      have hj' : (s.tx j).callback = some call := by
        rw [← hrest j (hne j hj)]
        exact hj
      have hk' : (s.tx k).callback = some call := by
        rw [← hrest k (hne k hk)]
        exact hk
      exact h.distinct j k call hj' hk'
  · intro j call hj
    by_cases hji : j = i
    · subst hji
      change (u.tx j).callback = some call at hj
      change ∃ d n, _ ∧ ((u.tx j).state.pass < 3 → (u.tx j).At _ _ _ ∧ _)
      rw [hself, hcall] at hj
      obtain rfl : t.sends.length = call := Option.some.inj hj
      rw [hself, hpass]
      refine ⟨data, len, List.getElem?_concat_length, fun _ => ⟨hat, ?_⟩⟩
      exact hold.ne_length.2.2
    · change (u.tx j).callback = some call at hj
      change ∃ d n, _ ∧ ((u.tx j).state.pass < 3 → (u.tx j).At _ _ _ ∧ _)
      rw [hrest j hji] at hj ⊢
      exact h.slot j call hj
  · intro call hmem
    have hmem' : S0Out.completed call transmitCompleteOk ∈ s.out := hout ▸ hmem
    obtain ⟨hsent, hover⟩ := h.done call hmem'
    refine ⟨hsent, fun j hj => ?_⟩
    have hji : j ≠ i := by
      rintro rfl
      change (u.tx j).callback = some call at hj
      rw [hself, hcall] at hj
      exact hdone ((Option.some.inj hj) ▸ hmem')
    change (u.tx j).callback = some call at hj
    change 3 ≤ (u.tx j).state.pass
    rw [hrest j hji] at hj ⊢
    exact hover j hj

theorem sendData (h : Told env t) (p : TsParam) (data : Mem) (len : Nat) :
    Told env ⟨t.state.sec0SendData env p data len, t.sends ++ [(data, len)], t.segments⟩ := by
  unfold Security0.sec0SendData
  dsimp only
  have hcalled : ∀ accepted, Told env ⟨({ t.state with nCalls := t.state.nCalls + 1 } : Security0).log
      (.called t.state.nCalls p accepted), t.sends ++ [(data, len)], t.segments⟩ :=
    fun accepted => h.refused data len rfl rfl ⟨rfl, fun _ heq => by cases heq⟩ rfl
  split
  · exact hcalled false
  · split
    · exact hcalled false
    · rename_i i _
      obtain ⟨-, hdone, -⟩ := h.ne_length
      have hopen := (hcalled true).opened h (i := i)
        (u := ((({ t.state with nCalls := t.state.nCalls + 1 } : Security0).log
          (.called t.state.nCalls p true)).openTxSession i p data (len % 256) t.state.nCalls).setTx i
            { t.state.tx i with
              param := p, data := data, dataLen := len % 256, callback := some t.state.nCalls
              seq := t.state.seq + 1, state := .nonceGet })
        (x := { t.state.tx i with
              param := p, data := data, dataLen := len % 256, callback := some t.state.nCalls
              seq := t.state.seq + 1, state := .nonceGet })
        (fun j call hj => by
          obtain ⟨d, n, hsend, -⟩ := h.slot j call hj
          exact lt_of_getElem? hsend)
        (fun hmem => by
          rcases List.mem_cons.mp hmem with heq | hmem
          · cases heq
          · exact hdone hmem)
        (congrArg some h.sends.symm) rfl ⟨by funext i; rw [Nat.zero_add], rfl⟩
        (by
          change Function.update (Function.update t.state.tx i _) i _ = Function.update t.state.tx i _
          rw [Function.update_idem]) rfl rfl
      refine hopen.quiet ?_
      have hquiet := Security0.Quiet.enterNonceGet env ((({ t.state with nCalls := t.state.nCalls + 1 } : Security0).log
          (.called t.state.nCalls p true)).openTxSession i p data (len % 256) t.state.nCalls) i
      rw [show (((({ t.state with nCalls := t.state.nCalls + 1 } : Security0).log
          (.called t.state.nCalls p true)).openTxSession i p data (len % 256)
            t.state.nCalls).tx i) = _ from Security0.tx_setTx_self _ _ _] at hquiet
      exact hquiet

theorem enterEncMsg (h : Told env t) {pass2 : Bool} {draws : List Nonce} {p : Nat}
    (hpass : (t.state.tx i).state.pass = p) (hlt : p < 2)
    (hnext : (if pass2 then S0TxState.encMsg2 else .encMsg).pass = p + 1)
    (henter : Security0.enterEncMsg env t.state i pass2 draws = some s) :
    Told env ⟨s, t.sends, t.segments ++ (t.state.segmentFrom env i pass2 draws).toList⟩ := by
  rcases Security0.enterEncMsg_cases henter with ⟨hnone, hquiet⟩ | ⟨call, g, hsome, hsent⟩
  · rw [hnone, Option.toList_none, List.append_nil]
    exact h.quiet hquiet
  · rw [hsome]
    exact h.sent hsent hpass hlt hnext

/-- A call of `tx_session_state_set` whose loop does not end draws no nonce, and sends nothing. -/
theorem segmentFrom_eq_none {pass2 : Bool} {draws : List Nonce} (h : Security0.enterEncMsg env s i pass2 draws = none) :
    s.segmentFrom env i pass2 draws = none := by
  unfold Security0.enterEncMsg Security0.encryptMsg at h
  unfold Security0.segmentFrom
  dsimp only at h ⊢
  rw [Security0.tx_setTx_self] at h
  cases hdraw : drawNonce s.nonceTable (s.tx i).param.dnode.toUInt8 (s.tx i).param.snode.toUInt8 draws with
  | none => rfl
  | some iv =>
    have hnonces : ∀ x, (s.setTx i x).nonceTable = s.nonceTable := fun _ => rfl
    rw [hnonces, hdraw] at h
    dsimp only at h
    cases hget : getNonce s.nonceTable (s.tx i).param.dnode.toUInt8 (s.tx i).param.snode.toUInt8 none with
    | none => simp [hget] at h
    | some e =>
      rw [hget] at h
      dsimp only at h
      split at h
      · cases h
      · cases h

theorem nonceReport (h : Told env t) (src dst : UInt8) (nonce : Nonce) (draws : List Nonce) :
    Told env (t.step env (.nonceReport src dst nonce draws)) := by
  unfold Transcript.step Security0.step Security0.segment Security0.sec0RegisterNonce
  dsimp only
  rw [show (S0Event.nonceReport src dst nonce draws).send = none from rfl, Option.toList_none, List.append_nil]
  split
  · rw [Option.getD_some, Option.toList_none, List.append_nil]
    exact h
  cases t.state.getTxSessionByNode dst src with
  | none =>
    dsimp only
    rw [Option.getD_some, Option.toList_none, List.append_nil]
    exact h
  | some i =>
    dsimp only
    have hquiet : Security0.Quiet t.state
        ((t.state.registerNonce .reported src dst nonce).sec0BlacklistAddNonce src dst nonce) := by
      obtain ⟨hext, htx, -⟩ := Security0.extends_registerNonce t.state .reported src dst nonce
      exact (Security0.Quiet.of_extends hext htx).trans (Security0.Quiet.of_extends (.of_eq rfl rfl) rfl)
    generalize (t.state.registerNonce .reported src dst nonce).sec0BlacklistAddNonce src dst nonce = u at hquiet
    have hu := h.quiet hquiet
    have hframe : ∀ (pass2 : Bool) (p : Nat), (u.tx i).state.pass = p → p < 2 →
        (if pass2 then S0TxState.encMsg2 else .encMsg).pass = p + 1 →
        Told env ⟨(Security0.enterEncMsg env u i pass2 draws).getD t.state, t.sends,
          t.segments ++ (u.segmentFrom env i pass2 draws).toList⟩ := by
      intro pass2 p hpass hlt hnext
      cases henter : Security0.enterEncMsg env u i pass2 draws with
      | none =>
        rw [segmentFrom_eq_none henter, Option.getD_none, Option.toList_none, List.append_nil]
        exact h
      | some v => exact hu.enterEncMsg hpass hlt hnext henter
    split
    · rename_i hstate
      apply hframe false 0 ?_ (by omega) rfl
      rcases hstate with hstate | hstate
      · rw [hstate]
        rfl
      · rw [hstate]
        rfl
    · split
      · rename_i hstate
        apply hframe true 1 ?_ (by omega) rfl
        rcases hstate with hstate | ⟨hstate, -⟩
        · rw [hstate]
          rfl
        · rw [hstate]
          rfl
      · rw [Option.getD_some, Option.toList_none, List.append_nil]
        exact hu

theorem msg1Callback (h : Told env t) (i : Fin 2) (status : UInt8) :
    Told env { t with state := t.state.msg1Callback i status } := by
  unfold Security0.msg1Callback
  dsimp only
  split
  · rename_i hstate
    split
    · unfold Security0.enterEncMsgSent
      dsimp only
      have hset : Security0.Quiet t.state ((t.state.setTx i { t.state.tx i with txCode := status }).setTx
          i { (t.state.setTx i { t.state.tx i with txCode := status }).tx i with
            state := .encMsgSent }) := by
        refine (Security0.Quiet.edit t.state i { t.state.tx i with txCode := status } rfl rfl rfl
          rfl).trans (Security0.Quiet.edit _ i _ rfl ?_ rfl rfl)
        rw [Security0.tx_setTx_self]
        dsimp only
        rw [hstate]
        rfl
      split
      · rename_i hzero
        refine (h.quiet hset).txDone (.inl ⟨?_, hzero⟩)
        dsimp only
        rw [Security0.tx_setTx_self]
        rfl
      · refine h.quiet (hset.trans ?_)
        exact Security0.Quiet.edit _ i _ rfl rfl rfl rfl
    · rename_i hstatus
      exact h.quiet (Security0.Quiet.callbackFail _ i hstatus)
  · exact h

theorem msg2Callback (h : Told env t) (i : Fin 2) (status : UInt8) :
    Told env { t with state := t.state.msg2Callback i status } := by
  unfold Security0.msg2Callback
  dsimp only
  split
  · rename_i hstate
    split
    · unfold Security0.enterEncMsg2Sent
      have hset : Security0.Quiet t.state ((t.state.setTx i { t.state.tx i with txCode := status }).setTx
          i { (t.state.setTx i { t.state.tx i with txCode := status }).tx i with
            state := .encMsg2Sent }) := by
        refine (Security0.Quiet.edit t.state i { t.state.tx i with txCode := status } rfl rfl rfl
          rfl).trans (Security0.Quiet.edit _ i _ rfl ?_ rfl rfl)
        rw [Security0.tx_setTx_self]
        dsimp only
        rw [hstate]
        rfl
      refine (h.quiet hset).txDone (.inr ?_)
      dsimp only
      rw [Security0.tx_setTx_self]
      rfl
    · rename_i hstatus
      exact h.quiet (Security0.Quiet.callbackFail _ i hstatus)
  · exact h

theorem transmitDone (h : Told env t) (n : Nat) (status : UInt8) :
    Told env { t with state := t.state.transmitDone n status } := by
  unfold Security0.transmitDone
  cases ho : t.state.owed[n]? with
  | none => exact h
  | some o =>
    dsimp only
    have hquiet : Security0.Quiet t.state
        (({ t.state with owed := t.state.owed.eraseIdx n } : Security0).log (.txDone o.tx status)) :=
      ⟨rfl, ⟨[_], rfl, by
        intro o' ho'
        rw [List.mem_singleton.mp ho']
        exact ⟨rfl, fun _ heq => by cases heq⟩⟩, fun _ => .refl _⟩
    unfold Security0.runCallback
    cases o.callback with
    | noceGetCallback => exact h.quiet (hquiet.trans (.noceGetCallback _ o.slot status))
    | msg1Callback => exact (h.quiet hquiet).msg1Callback o.slot status
    | msg2Callback => exact (h.quiet hquiet).msg2Callback o.slot status

theorem step (h : Told env t) (e : S0Event) : Told env (t.step env e) := by
  have hquiet : ∀ s, Security0.Quiet t.state s → Told env ⟨s, t.sends ++ [], t.segments ++ []⟩ := by
    intro s hs
    rw [List.append_nil, List.append_nil]
    exact h.quiet hs
  cases e with
  | sendData p data len =>
    have hsend := h.sendData p data len
    rw [← List.append_nil t.segments] at hsend
    exact hsend
  | abortAll => exact hquiet _ (.sec0AbortAllTxSessions _)
  | timeout i => exact hquiet _ (.txTimeout _ i)
  | nonceGet src draws =>
    apply hquiet
    change Security0.Quiet t.state ((Security0.sec0SendNonce env t.state src draws).getD t.state)
    cases hsend : Security0.sec0SendNonce env t.state src draws with
    | none => exact .refl _
    | some u => exact .sec0SendNonce hsend
  | nonceReport src dst nonce draws => exact h.nonceReport src dst nonce draws
  | encapsulated snode dnode encData len => exact hquiet _ (.sec0DecryptMessage env _ _ _ _ _)
  | transmitDone n status =>
    have hdone := h.transmitDone n status
    rw [← List.append_nil t.sends, ← List.append_nil t.segments] at hdone
    exact hdone
  | nonceTimer => exact hquiet _ (.of_extends (.of_eq rfl rfl) rfl)
  | setKey netkey => exact hquiet _ (.of_extends (.of_eq rfl rfl) rfl)
  | secureLearn active => exact hquiet _ (.of_extends (.of_eq rfl rfl) rfl)
  | time ms => exact hquiet _ (.of_extends (.of_eq rfl rfl) rfl)

theorem run (env : S0Env) (keys : S0Keys) (events : List S0Event) : Told env ((Transcript.init keys).run env events) :=
  Machine.run_invariant (fun _ e h => h.step e) (init env keys) events

theorem framesOf (h : Told env t) (call : Nat) :
    t.state.framesOf call = (t.segmentsOf call).map fun g => g.frame env.aes := by
  unfold Security0.framesOf Transcript.segmentsOf
  rw [h.frames, List.filter_map, List.map_map, List.map_map]
  rfl

end Told

def transcript (env : S0Env) (keys : S0Keys) (events : List S0Event) : Transcript :=
  (Transcript.init keys).run env events

/-- A send that reports success has handed over frames of its segments, and their plaintexts are all
of the data exactly when it is at most 52 bytes long. -/
theorem sent_whole_iff (env : S0Env) (keys : S0Keys) (events : List S0Event) {call : Nat} {data : Mem}
    {len : Nat} (hcall : (events.filterMap S0Event.send)[call]? = some (data, len))
    (hok : .completed call transmitCompleteOk ∈ (Security0.run env (Security0.init keys) events).out) :
    (Security0.run env (Security0.init keys) events).framesOf call =
        ((transcript env keys events).segmentsOf call).map (fun g => g.frame env.aes) ∧
      (((transcript env keys events).segmentsOf call).flatMap Segment.plaintext = data.slice 0 len ↔ len ≤ 52) := by
  have htold := Told.run env keys events
  obtain ⟨hstate, hsends⟩ := (Transcript.init keys).run_eq env events
  have hrun : (transcript env keys events).state = Security0.run env (Security0.init keys) events :=
    hstate
  rw [← hrun] at hok ⊢
  refine ⟨htold.framesOf call, ?_⟩
  obtain ⟨⟨d, n, hsend, htext⟩, -⟩ := htold.done call hok
  rw [hsends] at hsend
  obtain ⟨rfl, rfl⟩ : data = d ∧ len = n :=
    Prod.mk.inj (Option.some.inj (hcall.symm.trans hsend))
  have hall : ((transcript env keys events).segmentsOf call).flatMap Segment.plaintext =
      data.slice 0 (min (len % 256) 52) := htext
  rw [hall]
  constructor
  · intro heq
    have hlength := congrArg List.length heq
    rw [Mem.length_slice, Mem.length_slice] at hlength
    omega
  · intro hle
    rw [show min (len % 256) 52 = len by omega]

def sampleTransfer (len : Nat) : List S0Event :=
  [.sendData (Security0.sampleParam 5) (fun _ => 0x20) len, .transmitDone 0 0,
    .nonceReport 5 1 (Nonce.ofFn fun _ => 5) [Nonce.ofFn fun _ => 1], .transmitDone 0 0,
    .nonceReport 5 1 (Nonce.ofFn fun _ => 6) [Nonce.ofFn fun _ => 2], .transmitDone 0 0]

theorem sampleTransfer_whole : ((transcript Security0.sampleS0Env (sec0SetKey Security0.sampleS0Env.aes [])
        (sampleTransfer 52)).segmentsOf 0).flatMap Segment.plaintext = List.replicate 52 0x20 := by
  have hcall : ((sampleTransfer 52).filterMap S0Event.send)[0]? = some (fun _ => 0x20, 52) := rfl
  have hiff := sent_whole_iff Security0.sampleS0Env (sec0SetKey Security0.sampleS0Env.aes [])
    (sampleTransfer 52) hcall (by decide)
  exact (hiff.2.mpr (by decide)).trans (by decide)

theorem sampleTransfer_truncated :
    ¬∀ (env : S0Env) (keys : S0Keys) (events : List S0Event) (call : Nat) (data : Mem) (len : Nat),
      (events.filterMap S0Event.send)[call]? = some (data, len) →
      .completed call transmitCompleteOk ∈ (Security0.run env (Security0.init keys) events).out →
      ((transcript env keys events).segmentsOf call).flatMap Segment.plaintext = data.slice 0 len := by
  intro hall
  have hwhole := hall Security0.sampleS0Env (sec0SetKey Security0.sampleS0Env.aes [])
    (sampleTransfer 53) 0 (fun _ => 0x20) 53 rfl (by decide)
  exact absurd (congrArg List.length hwhole) (by decide)

end ZipGateway

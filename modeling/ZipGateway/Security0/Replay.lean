import ZipGateway.Security0.Receive

/-!
# A nonce is used once

The nonce table together with the part of the log that speaks of nonces. A registration gets a
number of its own, and the entry it makes keeps that number; a frame that passes authentication
takes all entries of its pair of nodes out of the table, so the number cannot come back.
-/

namespace ZipGateway

def S0Out.ofNonce : S0Out → Bool
  | .registered .. => true
  | .authenticated .. => true
  | _ => false

def S0Out.isAuthenticated (issue : Nat) : S0Out → Bool
  | .authenticated i _ _ _ => i == issue
  | _ => false

structure NonceBook where
  table : List NonceEntry
  nIssues : Nat
  log : List S0Out

variable {draws : List Nonce} {env : S0Env} {t : Security0} (i : Fin 2)

namespace NonceBook

structure Sound (b : NonceBook) : Prop where
  known : ∀ e ∈ b.table, 0 < e.timeout → ∃ use, .registered e.issue use e.src e.dst e.nonce ∈ b.log
  unused : ∀ e ∈ b.table, 0 < e.timeout → ∀ snode dnode nonce, .authenticated e.issue snode dnode nonce ∉ b.log
  numbered : ∀ issue use src dst nonce, .registered issue use src dst nonce ∈ b.log → issue < b.nIssues
  distinct : ∀ issue use src dst nonce use' src' dst' nonce', .registered issue use src dst nonce ∈ b.log →
    .registered issue use' src' dst' nonce' ∈ b.log →
      use = use' ∧ src = src' ∧ dst = dst' ∧ nonce = nonce'
  justified : ∀ issue snode dnode nonce, .authenticated issue snode dnode nonce ∈ b.log →
    ∃ use, .registered issue use dnode snode nonce ∈ b.log
  once : ∀ issue, b.log.countP (S0Out.isAuthenticated issue) ≤ 1

variable {b : NonceBook}

theorem Sound.age (h : b.Sound) {table : List NonceEntry}
    (htable : ∀ e ∈ table, 0 < e.timeout → ∃ old ∈ b.table, 0 < old.timeout ∧
      e.issue = old.issue ∧ e.src = old.src ∧ e.dst = old.dst ∧ e.nonce = old.nonce) :
    Sound { b with table } := by
  refine ⟨?_, ?_, h.numbered, h.distinct, h.justified, h.once⟩
  · intro e he hlive
    obtain ⟨old, hmem, holdLive, hissue, hsrc, hdst, hnonce⟩ := htable e he hlive
    rw [hissue, hsrc, hdst, hnonce]
    exact h.known old hmem holdLive
  · intro e he hlive
    obtain ⟨old, hmem, holdLive, hissue, -⟩ := htable e he hlive
    rw [hissue]
    exact h.unused old hmem holdLive

theorem Sound.nonceClear (h : b.Sound) (src dst : UInt8) : Sound { b with table := nonceClear b.table src dst } := by
  apply h.age
  intro e he hlive
  exact ⟨e, mem_of_mem_nonceClear he hlive, hlive, rfl, rfl, rfl, rfl⟩

theorem Sound.nonceTimerTimeout (h : b.Sound) : Sound { b with table := nonceTimerTimeout b.table } := by
  apply h.age
  intro e he hlive
  obtain ⟨old, hmem, hissue, hsrc, hdst, hnonce, htimeout⟩ := mem_of_mem_nonceTimerTimeout he
  exact ⟨old, hmem, htimeout hlive, hissue, hsrc, hdst, hnonce⟩

theorem Sound.register (h : b.Sound) {use : NonceUse} {src dst : UInt8} {nonce : Nonce} {table : List NonceEntry}
    (htable : registerEntry b.table src dst (use == .reply) nonce b.nIssues = some table) :
    Sound ⟨table, b.nIssues + 1, .registered b.nIssues use src dst nonce :: b.log⟩ := by
  have hfresh : ∀ snode dnode nonce, .authenticated b.nIssues snode dnode nonce ∉ b.log := by
    intro snode dnode nonce hmem
    obtain ⟨use, hreg⟩ := h.justified _ _ _ _ hmem
    exact Nat.lt_irrefl _ (h.numbered _ _ _ _ _ hreg)
  have hnew : ∀ use src dst nonce, .registered b.nIssues use src dst nonce ∉ b.log := by
    intro use src dst nonce hmem
    exact Nat.lt_irrefl _ (h.numbered _ _ _ _ _ hmem)
  refine ⟨?_, ?_, ?_, ?_, ?_, ?_⟩
  · intro e he hlive
    rcases mem_of_registerEntry htable he with hold | ⟨hissue, hsrc, hdst, hnonce⟩
    · obtain ⟨use', hreg⟩ := h.known e hold hlive
      exact ⟨use', List.mem_cons_of_mem _ hreg⟩
    · rw [hissue, hsrc, hdst, hnonce]
      exact ⟨use, List.mem_cons_self⟩
  · intro e he hlive snode dnode nonce' hmem
    replace hmem := List.mem_of_ne_of_mem (by simp) hmem
    rcases mem_of_registerEntry htable he with hold | ⟨hissue, -⟩
    · exact h.unused e hold hlive snode dnode nonce' hmem
    · rw [hissue] at hmem
      exact hfresh snode dnode nonce' hmem
  · intro issue use' src' dst' nonce' hmem
    rcases List.mem_cons.mp hmem with heq | hmem
    · cases heq
      exact Nat.lt_succ_self _
    · exact Nat.lt_succ_of_lt (h.numbered _ _ _ _ _ hmem)
  · intro issue use₁ src₁ dst₁ nonce₁ use₂ src₂ dst₂ nonce₂ hmem₁ hmem₂
    rcases List.mem_cons.mp hmem₁ with heq₁ | hmem₁
    · cases heq₁
      rcases List.mem_cons.mp hmem₂ with heq₂ | hmem₂
      · cases heq₂
        exact ⟨rfl, rfl, rfl, rfl⟩
      · exact absurd hmem₂ (hnew _ _ _ _)
    · rcases List.mem_cons.mp hmem₂ with heq₂ | hmem₂
      · cases heq₂
        exact absurd hmem₁ (hnew _ _ _ _)
      · exact h.distinct _ _ _ _ _ _ _ _ _ hmem₁ hmem₂
  · intro issue snode dnode nonce' hmem
    obtain ⟨use', hreg⟩ := h.justified _ _ _ _ (List.mem_of_ne_of_mem (by simp) hmem)
    exact ⟨use', List.mem_cons_of_mem _ hreg⟩
  · intro issue
    rw [List.countP_cons_of_neg (by simp [S0Out.isAuthenticated])]
    exact h.once issue

theorem Sound.authenticate (h : b.Sound) {e : NonceEntry} {snode dnode : UInt8}
    (he : e ∈ b.table) (hlive : e.Live dnode snode) :
    Sound ⟨ZipGateway.nonceClear b.table dnode snode, b.nIssues,
      .authenticated e.issue snode dnode e.nonce :: b.log⟩ := by
  obtain ⟨htimeout, hsrc, hdst⟩ := hlive
  obtain ⟨use, hreg⟩ := h.known e he htimeout
  have hclear := h.nonceClear dnode snode
  refine ⟨?_, ?_, ?_, ?_, ?_, ?_⟩
  · intro e' he' hlive'
    obtain ⟨use', hreg'⟩ := hclear.known e' he' hlive'
    exact ⟨use', List.mem_cons_of_mem _ hreg'⟩
  · intro e' he' hlive' snode' dnode' nonce' hmem
    rcases List.mem_cons.mp hmem with heq | hmem
    · -- The number tells the pair, and the pair has no entry left.
      injection heq with hissue
      obtain ⟨use', hreg'⟩ := hclear.known e' he' hlive'
      rw [hissue] at hreg'
      obtain ⟨-, hsrc', hdst', -⟩ := h.distinct _ _ _ _ _ _ _ _ _ hreg' hreg
      exact not_live_nonceClear he' ⟨hlive', hsrc'.trans hsrc, hdst'.trans hdst⟩
    · exact hclear.unused e' he' hlive' snode' dnode' nonce' hmem
  · intro issue use' src' dst' nonce' hmem
    exact h.numbered _ _ _ _ _ (List.mem_of_ne_of_mem (by simp) hmem)
  · intro issue use₁ src₁ dst₁ nonce₁ use₂ src₂ dst₂ nonce₂ hmem₁ hmem₂
    exact h.distinct _ _ _ _ _ _ _ _ _ (List.mem_of_ne_of_mem (by simp) hmem₁) (List.mem_of_ne_of_mem (by simp) hmem₂)
  · intro issue snode' dnode' nonce' hmem
    rcases List.mem_cons.mp hmem with heq | hmem
    · cases heq
      rw [hsrc, hdst] at hreg
      exact ⟨use, List.mem_cons_of_mem _ hreg⟩
    · obtain ⟨use', hreg'⟩ := h.justified _ _ _ _ hmem
      exact ⟨use', List.mem_cons_of_mem _ hreg'⟩
  · intro issue
    by_cases heq : e.issue = issue
    · subst heq
      have hzero : b.log.countP (S0Out.isAuthenticated e.issue) = 0 := by
        rw [List.countP_eq_zero]
        intro o ho hauth
        cases o with
        | authenticated i snode' dnode' nonce' =>
          obtain rfl : i = e.issue := by simpa [S0Out.isAuthenticated] using hauth
          exact h.unused e he htimeout _ _ _ ho
        | _ => simp [S0Out.isAuthenticated] at hauth
      rw [List.countP_cons_of_pos (by simp [S0Out.isAuthenticated]), hzero]
    · rw [List.countP_cons_of_neg (by simpa [S0Out.isAuthenticated] using heq)]
      exact h.once issue

end NonceBook

namespace Security0

def nonceBook (s : Security0) : NonceBook :=
  ⟨s.nonceTable, s.nIssues, s.out.filter S0Out.ofNonce⟩

section Book

variable (s : Security0)

@[simp]
theorem nonceBook_setTx (t : TxSession) : (s.setTx i t).nonceBook = s.nonceBook := rfl

theorem nonceBook_log {o : S0Out} (h : o.ofNonce = false) : (s.log o).nonceBook = s.nonceBook := by
  simp [nonceBook, log, h]

@[simp]
theorem nonceBook_complete (status : UInt8) : (s.complete i status).nonceBook = s.nonceBook := by
  unfold complete
  split
  · exact nonceBook_log s rfl
  · rfl

@[simp]
theorem nonceBook_txDone : (s.txDone i).nonceBook = s.nonceBook := by
  simp [txDone]

@[simp]
theorem nonceBook_txFail : (s.txFail i).nonceBook = s.nonceBook := by
  simp [txFail]

@[simp]
theorem nonceBook_txFailNow : (s.txFailNow i).nonceBook = s.nonceBook := by
  simp [txFailNow]

theorem nonceBook_sendFrame {s t : Security0} {i : Fin 2} {cb : S0Callback} {frame : Bytes}
    {ok : Bool} (h : sendFrame env s i cb frame = (ok, t)) : t.nonceBook = s.nonceBook := by
  cases h
  rfl

theorem nonceBook_enterNonceGet (env : S0Env) (i : Fin 2) : (enterNonceGet env s i).nonceBook = s.nonceBook := by
  unfold enterNonceGet
  dsimp only
  split
  · rename_i hsend
    rw [nonceBook_txFailNow, nonceBook_sendFrame hsend, nonceBook_setTx]
  · rename_i hsend
    split
    · rw [nonceBook_setTx, nonceBook_sendFrame hsend, nonceBook_setTx]
    · rw [nonceBook_sendFrame hsend, nonceBook_setTx]

theorem nonceBook_enterEncMsgSent : (s.enterEncMsgSent i).nonceBook = s.nonceBook := by
  unfold enterEncMsgSent
  dsimp only
  split
  · rw [nonceBook_txDone, nonceBook_setTx]
  · rfl

theorem nonceBook_runCallback (o : S0Owed) (status : UInt8) : (s.runCallback o status).nonceBook = s.nonceBook := by
  unfold runCallback noceGetCallback msg1Callback msg2Callback enterNonceGetSent enterEncMsg2Sent
  split
  · dsimp only
    split_ifs <;> simp
  · dsimp only
    split_ifs <;> simp [nonceBook_enterEncMsgSent]
  · dsimp only
    split_ifs <;> simp

theorem nonceBook_transmitDone (n : Nat) (status : UInt8) : (s.transmitDone n status).nonceBook = s.nonceBook := by
  unfold transmitDone
  split
  · rw [nonceBook_runCallback]
    rfl
  · rfl

theorem nonceBook_txTimeout : (s.txTimeout i).nonceBook = s.nonceBook := by
  unfold txTimeout
  split
  · rw [nonceBook_txFailNow, nonceBook_setTx]
  · rfl

theorem nonceBook_abortTxSession : (s.abortTxSession i).nonceBook = s.nonceBook := by
  unfold abortTxSession
  split
  · rw [nonceBook_txFailNow]
  · rfl

theorem nonceBook_sec0SendData (env : S0Env) (p : TsParam) (data : Mem) (len : Nat) :
    (sec0SendData env s p data len).nonceBook = s.nonceBook := by
  unfold sec0SendData
  dsimp only
  split
  · rfl
  · split
    · rfl
    · rw [nonceBook_enterNonceGet]
      rfl

theorem nonceBook_rxSessionFor {snode dnode : UInt8} {j : Nat} (h : s.rxSessionFor snode dnode = some (j, t)) :
    t.nonceBook = s.nonceBook ∧ t.keys = s.keys := by
  unfold rxSessionFor at h
  split at h
  · cases h
    exact ⟨rfl, rfl⟩
  · split at h
    · cases h
      exact ⟨rfl, rfl⟩
    · cases h

theorem nonceBook_reassemble (j : Nat) (plain : Bytes) (behind : UInt8) :
    (s.reassemble j plain behind).1.nonceBook = s.nonceBook := by
  unfold reassemble
  dsimp only
  split
  · split
    · rfl
    · split
      · rfl
      · split <;> rfl
  · rfl

end Book

section Sound

variable {s : Security0}

theorem soundBook_registerNonce (h : s.nonceBook.Sound) (use : NonceUse) (src dst : UInt8)
    (nonce : Nonce) : (s.registerNonce use src dst nonce).nonceBook.Sound := by
  unfold registerNonce
  split
  · rename_i table htable
    exact h.register htable
  · exact h

theorem soundBook_encryptMsg {i : Fin 2} {pass2 : Bool} {frame : Option Bytes}
    (h : s.nonceBook.Sound) (hmsg : encryptMsg env s i pass2 draws = some (t, frame)) :
    t.nonceBook.Sound := by
  unfold encryptMsg at hmsg
  dsimp only at hmsg
  split at hmsg
  · cases hmsg
  · split at hmsg
    · cases hmsg
      exact h
    · cases hmsg
      exact soundBook_registerNonce (s := { s with nonceTable := _ }) (h.nonceClear _ _) _ _ _ _

theorem soundBook_enterEncMsg {i : Fin 2} {pass2 : Bool} (h : s.nonceBook.Sound)
    (hmsg : enterEncMsg env s i pass2 draws = some t) : t.nonceBook.Sound := by
  unfold enterEncMsg at hmsg
  dsimp only at hmsg
  split at hmsg
  · cases hmsg
  · rename_i u henc
    cases hmsg
    rw [nonceBook_txFailNow]
    exact soundBook_encryptMsg (by exact h) henc
  · rename_i u frame henc
    have hu : u.nonceBook.Sound := soundBook_encryptMsg (by exact h) henc
    split at hmsg
    · rename_i hsend
      cases hmsg
      rw [nonceBook_txFailNow, nonceBook_sendFrame hsend]
      exact hu
    · rename_i hsend
      cases hmsg
      rw [nonceBook_sendFrame hsend]
      exact hu

theorem soundBook_sec0RegisterNonce {src dst : UInt8} {nonce : Nonce} (h : s.nonceBook.Sound)
    (hreg : sec0RegisterNonce env s src dst nonce draws = some t) : t.nonceBook.Sound := by
  unfold sec0RegisterNonce at hreg
  split at hreg
  · cases hreg
    exact h
  split at hreg
  · cases hreg
    exact h
  have hbook := soundBook_registerNonce h .reported src dst nonce
  dsimp only at hreg
  split at hreg
  · exact soundBook_enterEncMsg (by exact hbook) hreg
  split at hreg
  · exact soundBook_enterEncMsg (by exact hbook) hreg
  · cases hreg
    exact hbook

theorem soundBook_sec0SendNonce {src : TsParam} (h : s.nonceBook.Sound)
    (hsend : sec0SendNonce env s src draws = some t) : t.nonceBook.Sound := by
  unfold sec0SendNonce at hsend
  dsimp only at hsend
  split at hsend
  · cases hsend
  · cases hsend
    split
    · exact soundBook_registerNonce (by exact h) _ _ _ _
    · exact h

theorem soundBook_sec0DecryptMessage {snode dnode : UInt8} {encData : Mem} {len : Nat} (h : s.nonceBook.Sound) :
    (sec0DecryptMessage env s snode dnode encData len).1.nonceBook.Sound := by
  unfold sec0DecryptMessage
  split
  · exact h
  split
  · exact h
  rename_i e hget
  obtain ⟨hmem, hlive⟩ := getNonce_eq_some hget
  dsimp only
  split
  · exact h.nonceClear _ _
  rename_i j t hrx
  obtain ⟨hbook, -⟩ := nonceBook_rxSessionFor _ hrx
  have hclear : t.nonceBook = { s.nonceBook with
      table := nonceClear s.nonceBook.table dnode snode } := hbook
  unfold authenticate
  dsimp only
  split
  · rw [hclear]
    exact h.nonceClear _ _
  · rw [nonceBook_reassemble]
    have hauth := h.authenticate hmem hlive
    have hnext : (t.log (.authenticated e.issue snode dnode e.nonce)).nonceBook = { t.nonceBook with
          log := .authenticated e.issue snode dnode e.nonce :: t.nonceBook.log } := rfl
    rw [hnext, hclear]
    exact hauth

theorem soundBook_step (env : S0Env) (h : s.nonceBook.Sound) (e : S0Event) : (step env s e).nonceBook.Sound := by
  cases e with
  | sendData p data len =>
    rw [step, nonceBook_sec0SendData]
    exact h
  | abortAll =>
    rw [step, sec0AbortAllTxSessions, nonceBook_abortTxSession, nonceBook_abortTxSession]
    exact h
  | timeout i =>
    rw [step, nonceBook_txTimeout]
    exact h
  | nonceGet src draws =>
    rw [step]
    cases hsend : sec0SendNonce env s src draws with
    | none => exact h
    | some t => exact soundBook_sec0SendNonce h hsend
  | nonceReport src dst nonce draws =>
    rw [step]
    cases hreg : sec0RegisterNonce env s src dst nonce draws with
    | none => exact h
    | some t => exact soundBook_sec0RegisterNonce h hreg
  | encapsulated snode dnode encData len => exact soundBook_sec0DecryptMessage h
  | transmitDone n status =>
    rw [step, nonceBook_transmitDone]
    exact h
  | nonceTimer => exact h.nonceTimerTimeout
  | setKey netkey => exact h
  | secureLearn active => exact h
  | time ms => exact h

theorem soundBook_init (keys : S0Keys) : (init keys).nonceBook.Sound := by
  have hfree : ∀ e ∈ (init keys).nonceBook.table, ¬0 < e.timeout := by
    intro e he
    rw [List.eq_of_mem_replicate he]
    simp [NonceEntry.zero]
  refine ⟨fun e he hlive => absurd hlive (hfree e he), fun e he hlive => absurd hlive (hfree e he), ?_, ?_, ?_, ?_⟩
  all_goals simp [nonceBook, init]

/-- In every run, each registration of a nonce (those of `sec0_send_nonce` among them) lets at most
one frame pass, which comes from the node the nonce was sent to; and the number tells which nonce
it was. -/
theorem nonce_authorises_at_most_once (env : S0Env) (keys : S0Keys) (events : List S0Event) (issue : Nat) :
    (run env (init keys) events).out.countP (S0Out.isAuthenticated issue) ≤ 1 ∧ (∀ snode dnode nonce,
        .authenticated issue snode dnode nonce ∈ (run env (init keys) events).out →
          ∃ use, .registered issue use dnode snode nonce ∈ (run env (init keys) events).out) ∧
      ∀ use src dst nonce use' src' dst' nonce',
        .registered issue use src dst nonce ∈ (run env (init keys) events).out →
        .registered issue use' src' dst' nonce' ∈ (run env (init keys) events).out →
          use = use' ∧ src = src' ∧ dst = dst' ∧ nonce = nonce' := by
  have hsound : (run env (init keys) events).nonceBook.Sound :=
    @Machine.run_invariant Security0 S0Event (step env) (fun s => s.nonceBook.Sound)
      (fun _ e h => soundBook_step env h e) _ (soundBook_init keys) events
  generalize run env (init keys) events = s at hsound
  have hmem : ∀ o : S0Out, o.ofNonce = true → (o ∈ s.nonceBook.log ↔ o ∈ s.out) := by
    intro o ho
    simp [nonceBook, List.mem_filter, ho]
  refine ⟨?_, ?_, ?_⟩
  · have honce := hsound.once issue
    rw [nonceBook, List.countP_filter] at honce
    refine Nat.le_trans (Nat.le_of_eq ?_) honce
    apply List.countP_congr
    intro o _
    cases o <;> simp [S0Out.isAuthenticated, S0Out.ofNonce]
  · intro snode dnode nonce hauth
    obtain ⟨use, hreg⟩ := hsound.justified issue snode dnode nonce ((hmem _ rfl).mpr hauth)
    exact ⟨use, (hmem _ rfl).mp hreg⟩
  · intro use src dst nonce use' src' dst' nonce' hreg hreg'
    exact hsound.distinct _ _ _ _ _ _ _ _ _ ((hmem _ rfl).mpr hreg) ((hmem _ rfl).mpr hreg')

end Sound

end Security0

end ZipGateway

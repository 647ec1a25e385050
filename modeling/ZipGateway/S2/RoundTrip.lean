import ZipGateway.S2.Accounting
import ZipGateway.S2.Parse

/-!
# A frame and its way back

The decoder opens what the encoder seals. It does so for the frames whose extensions the encoder
chains as the decoder reads them: at most two in clear, and at most one MPAN.
-/

namespace ZipGateway.S2

/-! ## The search for the class -/

def nextClass (classId : UInt8) : UInt8 :=
  if (classId + 1).toNat ≥ nSecClass then 0 else classId + 1

theorem exists_iterate_nextClass {from_ to_ : UInt8} (hfrom : from_.toNat < nSecClass)
    (hto : to_.toNat < nSecClass) : ∃ m, m < nSecClass ∧ nextClass^[m] from_ = to_ := by
  have hall : ∀ a b : Fin 7, ∃ m : Fin 7, nextClass^[m.val] (UInt8.ofNat a) = UInt8.ofNat b := by
    decide
  obtain ⟨m, hm⟩ := hall ⟨from_.toNat, hfrom⟩ ⟨to_.toNat, hto⟩
  exact ⟨m, m.isLt, by simpa using hm⟩

section Search

variable (env : Env) {s : S2} {i : SpanRef} {aad text : Bytes}

theorem attemptClass_of_loaded (h : s.classLoaded (s.spanTable i).classId = true) : s.attemptClass env i aad text =
      let key := (s.sg (s.spanTable i).classId).encKey
      let nonce := (env.nextNonceGenerate (s.spanTable i).d).1
      let r := env.ccmDecryptAndAuth key nonce aad text
      (r.1, r.2, (s.setSpan i { s.spanTable i with
        d := (env.nextNonceGenerate (s.spanTable i).d).2 }).log (.ccmDecrypt false key nonce aad text r.1)) := by
  simp only [attemptClass, h, if_true]
  rfl

theorem attemptClass_of_not_loaded (h : s.classLoaded (s.spanTable i).classId = false) :
    s.attemptClass env i aad text = (0, text, s) := by
  simp [attemptClass, h]

structure Attempted (i : SpanRef) (s s' : S2) : Prop where
  config : s'.config = s.config
  recognised : s'.recognised = s.recognised
  transmitted : s'.transmitted = s.transmitted
  mpan : s'.mpan = s.mpan
  mosList : s'.mosList = s.mosList
  workbuf : s'.workbuf = s.workbuf
  spanTable : ∃ classId d, s'.spanTable =
    Function.update s.spanTable i { s.spanTable i with classId := classId, d := d }

theorem attempted_attemptClass (s : S2) (i : SpanRef) (aad text : Bytes) :
    Attempted i s (s.attemptClass env i aad text).2.2 := by
  cases h : s.classLoaded (s.spanTable i).classId with
  | true =>
    rw [attemptClass_of_loaded env h]
    exact ⟨rfl, rfl, rfl, rfl, rfl, rfl, _, _, rfl⟩
  | false =>
    rw [attemptClass_of_not_loaded env h]
    exact ⟨rfl, rfl, rfl, rfl, rfl, rfl, _, _, (Function.update_eq_self i s.spanTable).symm⟩

def tryNext (s : S2) (i : SpanRef) (locals : Locals) : S2 :=
  s.setSpan i { s.spanTable i with
      classId := nextClass (s.spanTable i).classId
      d := env.nextNonceInstantiate locals.sNonce locals.rNonce (s.sg (nextClass (s.spanTable i).classId)).nonceKey }

theorem tryClasses_succ (locals : Locals) (con : Connection) (n : Nat) :
    tryClasses env locals con i aad (n + 1) s text =
      let r := s.attemptClass env i aad text
      if r.1 ≠ 0 then
        (r.1, r.2.1, r.2.2.acceptSinglecast con i locals.mpan)
      else if r.2.2.fsm ≠ .idle ∨ (r.2.2.spanTable i).state = .negotiated then
        (0, r.2.1, con, r.2.2)
      else
        tryClasses env locals con i aad n (r.2.2.tryNext env i locals) (r.2.2.workbuf.slice 0 text.length) := by
  rfl

theorem attempted_tryNext (locals : Locals) : Attempted i s (s.tryNext env i locals) :=
  ⟨rfl, rfl, rfl, rfl, rfl, rfl, _, _, rfl⟩

theorem Attempted.trans {s s' s'' : S2} (h : Attempted i s s') (h' : Attempted i s' s'') : Attempted i s s'' := by
  obtain ⟨classId, d, htable⟩ := h.spanTable
  obtain ⟨classId', d', htable'⟩ := h'.spanTable
  refine ⟨h'.config.trans h.config, h'.recognised.trans h.recognised,
    h'.transmitted.trans h.transmitted, h'.mpan.trans h.mpan, h'.mosList.trans h.mosList, h'.workbuf.trans h.workbuf, classId', d', ?_⟩
  rw [htable', htable, Function.update_self, Function.update_idem]

theorem Attempted.state_eq {s s' : S2} (h : Attempted i s s') : (s'.spanTable i).state = (s.spanTable i).state := by
  obtain ⟨classId, d, htable⟩ := h.spanTable
  rw [htable, Function.update_self]

theorem Attempted.fsm_eq {s s' : S2} (h : Attempted i s s') : s'.fsm = s.fsm :=
  congrArg Config.fsm h.config

def Authenticated (aad text : Bytes) : Prop :=
  ∃ key nonce, (env.ccmDecryptAndAuth key nonce aad text).1 ≠ 0

theorem authenticated_attemptClass (h : (s.attemptClass env i aad text).1 ≠ 0) : Authenticated env aad text := by
  cases hloaded : s.classLoaded (s.spanTable i).classId with
  | true =>
    rw [attemptClass_of_loaded env hloaded] at h
    exact ⟨_, _, h⟩
  | false =>
    rw [attemptClass_of_not_loaded env hloaded] at h
    exact absurd rfl h

theorem authenticated_tryClasses (locals : Locals) (con : Connection) (n : Nat) (s : S2)
    (hrestore : s.fsm ≠ .idle ∨ (s.spanTable i).state = .negotiated ∨ s.workbuf.slice 0 text.length = text)
    (hlen : (tryClasses env locals con i aad n s text).1 ≠ 0) : Authenticated env aad text := by
  induction n generalizing s with
  | zero => exact absurd rfl hlen
  | succ n ih =>
    have hattempted := attempted_attemptClass env s i aad text
    rw [tryClasses_succ] at hlen
    dsimp only at hlen
    by_cases hfound : (s.attemptClass env i aad text).1 ≠ 0
    · exact authenticated_attemptClass env hfound
    · rw [if_neg hfound] at hlen
      split at hlen
      · exact absurd rfl hlen
      · rename_i hretry
        rw [hattempted.fsm_eq, hattempted.state_eq, not_or, not_not] at hretry
        have hbuf : s.workbuf.slice 0 text.length = text := by
          rcases hrestore with hfsm | hstate | hbuf
          · exact absurd hretry.1 hfsm
          · exact absurd hstate hretry.2
          · exact hbuf
        rw [hattempted.workbuf, hbuf] at hlen
        have hrestored : ((s.attemptClass env i aad text).2.2.tryNext env i
            locals).workbuf.slice 0 text.length = text := by
          rw [(attempted_tryNext env locals).workbuf, hattempted.workbuf, hbuf]
        exact ih _ (.inr (.inr hrestored)) hlen

structure Search (env : Env) (s : S2) (i : SpanRef) (locals : Locals) (text : Bytes)
    (generator : UInt8 → SpanData) (classId : UInt8) (m : Nat) : Prop where
  d : (s.spanTable i).d = generator (s.spanTable i).classId
  away : nextClass^[m] (s.spanTable i).classId = classId
  loaded : s.classLoaded classId
  search : m ≠ 0 → s.fsm = .idle ∧ (s.spanTable i).state ≠ .negotiated ∧ s.workbuf.slice 0 text.length = text ∧
    ∀ k, generator k = env.nextNonceInstantiate locals.sNonce locals.rNonce (s.sg k).nonceKey

theorem Search.next {env : Env} {s s' : S2} {locals : Locals} {generator : UInt8 → SpanData}
    {classId : UInt8} {m : Nat} (h : Search env s i locals text generator classId (m + 1))
    (hattempted : Attempted i s s') (hclass : (s'.spanTable i).classId = (s.spanTable i).classId) :
    Search env (s'.tryNext env i locals) i locals text generator classId m := by
  obtain ⟨hfsm, hstate, hbuf, hgenerator⟩ := h.search (by omega)
  have hsg : s'.sg = s.sg := congrArg Config.sg hattempted.config
  have hkeys : s'.loadedKeys = s.loadedKeys := congrArg Config.loadedKeys hattempted.config
  refine ⟨?_, ?_, ?_, fun _ => ⟨?_, ?_, ?_, ?_⟩⟩
  · simp only [tryNext, spanTable_setSpan_self]
    rw [hgenerator, hsg]
  · simp only [tryNext, spanTable_setSpan_self]
    rw [hclass]
    exact h.away
  · have hloaded := h.loaded
    unfold classLoaded at hloaded ⊢
    rw [show (s'.tryNext env i locals).loadedKeys = s.loadedKeys from hkeys]
    exact hloaded
  · exact hattempted.fsm_eq.trans hfsm
  · rw [(attempted_tryNext env locals).state_eq, hattempted.state_eq]
    exact hstate
  · rw [(attempted_tryNext env locals).workbuf, hattempted.workbuf]
    exact hbuf
  · intro k
    rw [hgenerator, ← hsg]
    rfl

theorem classId_attemptClass : ((s.attemptClass env i aad text).2.2.spanTable i).classId = (s.spanTable i).classId := by
  cases h : s.classLoaded (s.spanTable i).classId with
  | true => simp [attemptClass_of_loaded env h, log]
  | false => rw [attemptClass_of_not_loaded env h]

def OnlyUnder (env : Env) (s : S2) (generator : UInt8 → SpanData) (key nonce : Block) (aad text : Bytes) : Prop :=
  ∀ k, s.classLoaded k → (env.ccmDecryptAndAuth (s.sg k).encKey
      (env.nextNonceGenerate (generator k)).1 aad text).1 ≠ 0 →
    (s.sg k).encKey = key ∧ (env.nextNonceGenerate (generator k)).1 = nonce

structure Found (env : Env) (s s' : S2) (i : SpanRef) (generator : UInt8 → SpanData)
    (key nonce : Block) (classId : UInt8) : Prop where
  attempted : Attempted i s s'
  spanTable : s'.spanTable = Function.update s.spanTable i
    { s.spanTable i with classId := classId, d := (env.nextNonceGenerate (generator classId)).2 }
  loaded : s.classLoaded classId
  key : (s.sg classId).encKey = key
  nonce : (env.nextNonceGenerate (generator classId)).1 = nonce

theorem tryClasses_found {locals : Locals} {con : Connection} {generator : UInt8 → SpanData}
    {classId : UInt8} {key nonce : Block} {plain : Nat × Bytes}
    (hplain : env.ccmDecryptAndAuth key nonce aad text = plain) (hlen : plain.1 ≠ 0)
    (m n : Nat) (hm : m < n) (s : S2)
    (honly : OnlyUnder env s generator key nonce aad text) (hkey : (s.sg classId).encKey = key)
    (hnonce : (env.nextNonceGenerate (generator classId)).1 = nonce)
    (hsearch : Search env s i locals text generator classId m) :
    ∃ classId' s', tryClasses env locals con i aad n s text =
        (plain.1, plain.2, s'.acceptSinglecast con i locals.mpan) ∧
      Found env s s' i generator key nonce classId' := by
  induction m generalizing n s with
  | zero =>
    obtain ⟨n, rfl⟩ : ∃ n', n = n' + 1 := ⟨n - 1, by omega⟩
    have hclass : (s.spanTable i).classId = classId := hsearch.away
    have hloaded : s.classLoaded (s.spanTable i).classId = true := hclass ▸ hsearch.loaded
    rw [tryClasses_succ, attemptClass_of_loaded env hloaded]
    dsimp only
    rw [hsearch.d, hclass, hkey, hnonce, hplain, if_pos hlen]
    exact ⟨classId, _, rfl, ⟨rfl, rfl, rfl, rfl, rfl, rfl, _, _, rfl⟩, rfl, hsearch.loaded, hkey, hnonce⟩
  | succ m ih =>
    obtain ⟨n, rfl⟩ : ∃ n', n = n' + 1 := ⟨n - 1, by omega⟩
    obtain ⟨hfsm, hstate, hbuf, -⟩ := hsearch.search (by omega)
    have hattempted := attempted_attemptClass env s i aad text
    by_cases hfound : (s.attemptClass env i aad text).1 = 0
    · -- The class is not the one, or its key is not loaded.
      have hsg : (s.attemptClass env i aad text).2.2.sg = s.sg :=
        congrArg Config.sg hattempted.config
      have hkeys : (s.attemptClass env i aad text).2.2.loadedKeys = s.loadedKeys :=
        congrArg Config.loadedKeys hattempted.config
      have honly' : OnlyUnder env ((s.attemptClass env i aad text).2.2.tryNext env i locals)
          generator key nonce aad text := by
        unfold OnlyUnder classLoaded at honly ⊢
        rw [← hsg, ← hkeys] at honly
        exact honly
      obtain ⟨classId', s', heq, hf⟩ := ih n (by omega)
        ((s.attemptClass env i aad text).2.2.tryNext env i locals) honly'
        (by rw [← hkey, ← hsg]; rfl)
        (hsearch.next hattempted (classId_attemptClass env))
      have hstep := hattempted.trans (attempted_tryNext env locals)
      obtain ⟨c, d, htable⟩ := hstep.spanTable
      rw [tryClasses_succ]
      dsimp only
      rw [if_neg (by simpa using hfound), hattempted.fsm_eq, hattempted.state_eq,
        if_neg (by simp [hfsm, hstate]), hattempted.workbuf, hbuf]
      refine ⟨classId', s', heq, hstep.trans hf.attempted, ?_, ?_, ?_, hf.nonce⟩
      · rw [hf.spanTable, htable, Function.update_self, Function.update_idem]
      · have hloaded := hf.loaded
        unfold classLoaded at hloaded ⊢
        rw [← hkeys]
        exact hloaded
      · rw [← hf.key, ← hsg]
        rfl
    · rw [tryClasses_succ]
      dsimp only
      rw [if_pos hfound]
      cases hloaded : s.classLoaded (s.spanTable i).classId with
      | false =>
        rw [attemptClass_of_not_loaded env hloaded] at hfound
        exact absurd rfl hfound
      | true =>
        rw [attemptClass_of_loaded env hloaded] at hfound ⊢
        dsimp only at hfound ⊢
        rw [hsearch.d] at hfound ⊢
        obtain ⟨hkey', hnonce'⟩ := honly _ hloaded hfound
        rw [hkey', hnonce', hplain]
        refine ⟨(s.spanTable i).classId, _, rfl, ⟨rfl, rfl, rfl, rfl, rfl, rfl, _, _, rfl⟩, ?_, hloaded, hkey', hnonce'⟩
        rfl

structure CanFind (env : Env) (s : S2) (i : SpanRef) (locals : Locals)
    (generator : UInt8 → SpanData) (classId : UInt8) : Prop where
  d : (s.spanTable i).d = generator (s.spanTable i).classId
  loaded : s.classLoaded classId
  class_eq : (s.spanTable i).classId = classId ∨
    s.fsm = .idle ∧ (s.spanTable i).state = .instantiate ∧
      (s.spanTable i).classId.toNat < nSecClass ∧ classId.toNat < nSecClass ∧
      ∀ k, generator k = env.nextNonceInstantiate locals.sNonce locals.rNonce (s.sg k).nonceKey

theorem decryptSinglecast_found {locals : Locals} (con : Connection)
    {generator : UInt8 → SpanData} {classId : UInt8} {key nonce : Block} {plain : Nat × Bytes}
    (hplain : env.ccmDecryptAndAuth key nonce aad text = plain) (hlen : plain.1 ≠ 0)
    (honly : OnlyUnder env s generator key nonce aad text)
    (hkey : (s.sg classId).encKey = key)
    (hnonce : (env.nextNonceGenerate (generator classId)).1 = nonce)
    (hfind : CanFind env s i locals generator classId) :
    ∃ w classId' s', s.decryptSinglecast env locals con i aad text =
        (plain.1, plain.2, s'.acceptSinglecast con i locals.mpan) ∧
      Found env { s with workbuf := w } s' i generator key nonce classId' := by
  have hsearch : ∀ w, (s.fsm = .idle ∧ (s.spanTable i).state = .instantiate →
      w = s.workbuf.write 0 text) → ∃ m, m < nSecClass ∧
        Search env { s with workbuf := w } i locals text generator classId m := by
    intro w hw
    rcases hfind.class_eq with hclass | ⟨hfsm, hstate, hfrom, hto, hgenerator⟩
    · exact ⟨0, by decide, hfind.d, hclass, hfind.loaded, fun hne => absurd rfl hne⟩
    · obtain ⟨m, hm, haway⟩ := exists_iterate_nextClass hfrom hto
      refine ⟨m, hm, hfind.d, haway, hfind.loaded, fun _ => ⟨hfsm, ?_, ?_, hgenerator⟩⟩
      · simp [hstate]
      · rw [hw ⟨hfsm, hstate⟩]
        exact Mem.slice_write_self _ 0 text
  simp only [decryptSinglecast]
  split
  · obtain ⟨m, hm, hs⟩ := hsearch (s.workbuf.write 0 text) fun _ => rfl
    obtain ⟨classId', s', heq, hfound⟩ := tryClasses_found env hplain hlen m nSecClass hm
      { s with workbuf := s.workbuf.write 0 text } honly hkey hnonce hs
    exact ⟨_, classId', s', heq, hfound⟩
  · rename_i hnot
    obtain ⟨m, hm, hs⟩ := hsearch s.workbuf fun h => absurd h hnot
    obtain ⟨classId', s', heq, hfound⟩ := tryClasses_found env hplain hlen m nSecClass hm s honly hkey hnonce hs
    exact ⟨s.workbuf, classId', s', heq, hfound⟩

theorem authenticated_decryptSinglecast (locals : Locals) (con : Connection)
    (hstate : (s.spanTable i).state = .negotiated ∨ (s.spanTable i).state = .instantiate)
    (hlen : (s.decryptSinglecast env locals con i aad text).1 ≠ 0) : Authenticated env aad text := by
  simp only [decryptSinglecast] at hlen
  split at hlen
  · refine authenticated_tryClasses env locals con _ _ (.inr (.inr ?_)) hlen
    exact Mem.slice_write_self _ 0 text
  · rename_i hnot
    refine authenticated_tryClasses env locals con _ _ ?_ hlen
    by_cases hfsm : s.fsm = .idle
    · exact .inr (.inl (hstate.resolve_right fun h => hnot ⟨hfsm, h⟩))
    · exact .inl hfsm

theorem recognised_acceptSinglecast (s : S2) (con : Connection) (i : SpanRef) (mpan : Option MpanRef) :
    (s.acceptSinglecast con i mpan).2.recognised = s.recognised := by
  cases mpan with
  | none => rfl
  | some m =>
    simp only [acceptSinglecast]
    split
    · unfold gotEncMsgMos
      split <;> rfl
    · rfl

end Search

/-! ## The two sides of a connection -/

structure CorrectCcm (env : Env) : Prop where
  length : ∀ key nonce aad text, (env.ccmEncryptAndAuth key nonce aad text).length = text.length + authTagLen
  decrypt : ∀ key nonce aad text, ∃ rest,
    env.ccmDecryptAndAuth key nonce aad (env.ccmEncryptAndAuth key nonce aad text) = (text.length, text ++ rest)

structure SameCiphers (env env' : Env) : Prop where
  ccmDecryptAndAuth : env'.ccmDecryptAndAuth = env.ccmDecryptAndAuth
  nextNonceInstantiate : env'.nextNonceInstantiate = env.nextNonceInstantiate
  nextNonceGenerate : env'.nextNonceGenerate = env.nextNonceGenerate

/-- Of a frame only the ciphertext authenticates, and under nothing but what it was made with. -/
def Unforged (env : Env) (frame : Bytes) (draft : Draft) : Prop :=
  ∀ key nonce aad text, text <:+ frame → (env.ccmDecryptAndAuth key nonce aad text).1 ≠ 0 →
    key = draft.key ∧ nonce = draft.nonce ∧ aad = draft.aad ∧ text = draft.ciphertext env

def SpansMeet (s t : S2) (i j : SpanRef) : Prop :=
  (s.spanTable i).state = .negotiated ∧ (t.spanTable j).state = .negotiated ∧
    (t.spanTable j).d = (s.spanTable i).d ∧ (t.spanTable j).classId = s.peer.classId ∨
  (s.spanTable i).state = .sosRemoteNonce ∧ (t.spanTable j).state = .sosLocalNonce ∧
    (t.spanTable j).d.rNonce = (s.spanTable i).d.rNonce ∧
    (t.spanTable j).classId.toNat < nSecClass ∧ s.peer.classId.toNat < nSecClass ∧
    (t.fsm = .idle ∨ (t.spanTable j).classId = s.peer.classId)

/-- The sender `s` is about to encrypt for its peer, and `t` is that peer, which knows the sender as
`con`. -/
structure Synchronised (s t : S2) (con : Connection) (i j : SpanRef) : Prop where
  lNode : con.lNode = s.peer.rNode
  rNode : con.rNode = s.peer.lNode
  singlecast : con.isMulticast = false
  sender : slot s.spanTable s.peer = some i
  receiver : slot t.spanTable con = some j
  home : t.myHomeId = s.myHomeId
  group : t.sg s.peer.classId = s.sg s.peer.classId
  loaded : t.classLoaded s.peer.classId
  fresh : (t.spanTable j).rxSeq - (s.spanTable i).txSeq ≥ seqDuplWindowSize
  spans : SpansMeet s t i j

theorem isGroup_mgrpExtensions {s : S2} {e : Extension}
    (he : e ∈ s.mgrpExtensions ++ s.mosExtensions) : Extension.IsGroup e := by
  rcases List.mem_append.mp he with h | h
  · unfold mgrpExtensions at h
    split at h
    · split at h
      · exact .inr ⟨_, by simpa using h⟩
      · simp at h
    · simp at h
  · unfold mosExtensions at h
    split at h
    · split at h
      · exact .inl (by simpa using h)
      · simp at h
    · simp at h

theorem clearExtensions_eq (env : Env) (s : S2) (i : SpanRef) : s.clearExtensions env i =
      (if (s.spanTable i).state = .sosRemoteNonce then [.sn (env.random s.nRandom)] else []) ++
        (s.mgrpExtensions ++ s.mosExtensions) := by
  rw [clearExtensions, snExtensions, List.append_assoc]

theorem orderly_clearExtensions (env : Env) (s : S2) (i : SpanRef) : Extension.Orderly (s.clearExtensions env i) := by
  rw [clearExtensions_eq]
  intro e he
  split at he
  · exact isGroup_mgrpExtensions (by simpa using he)
  · exact isGroup_mgrpExtensions (List.mem_of_mem_tail (by simpa using he))

theorem length_clearExtensions_le (env : Env) (s : S2) (i : SpanRef) :
    (Extension.encodeLast (s.clearExtensions env i)).length ≤ 23 := by
  have hsn : (Extension.encodeLast (s.snExtensions env i)).length ≤ 18 := by
    unfold snExtensions
    split <;> simp [Extension.encodeLast, Extension.size]
  have hmgrp : (Extension.encodeLast s.mgrpExtensions).length ≤ 3 := by
    unfold mgrpExtensions
    repeat' split
    all_goals simp [Extension.encodeLast, Extension.size]
  have hmos : (Extension.encodeLast s.mosExtensions).length ≤ 2 := by
    unfold mosExtensions
    repeat' split
    all_goals simp [Extension.encodeLast, Extension.size]
  have hsum : (Extension.encodeLast (s.clearExtensions env i)).length =
      (Extension.encodeLast (s.snExtensions env i)).length + (Extension.encodeLast s.mgrpExtensions).length +
        (Extension.encodeLast s.mosExtensions).length := by
    simp [clearExtensions, Extension.encodeLast, Nat.add_assoc]
  omega

theorem aadOf_ne_nil {home : UInt32} {sender receiver : NodeId} {header : Bytes} {msgLen : Nat}
    (h : header.length ≤ 58) : aadOf home sender receiver header msgLen ≠ [] := by
  unfold aadOf
  rw [if_neg (by omega)]
  simp [be16]

section Opening

variable {env env' : Env} {s t : S2} {con : Connection} {i j : SpanRef}

def heardSeq (t : S2) (j : SpanRef) (seq : UInt8) : S2 :=
  t.setSpan j { t.spanTable j with rxSeq := seq }

theorem Synchronised.verifySeq_eq (h : Synchronised s t con i j) :
    t.verifySeq env con (s.spanTable i).txSeq = (true, t.heardSeq j (s.spanTable i).txSeq) := by
  simp only [verifySeq, findSpanByNode_of_slot env t con h.receiver]
  rw [if_pos (.inr h.fresh)]
  rfl

theorem Synchronised.slot_heardSeq (h : Synchronised s t con i j) :
    slot (t.heardSeq j (s.spanTable i).txSeq).spanTable con = some j :=
  slot_setSpan h.receiver rfl rfl (state_ne_notUsed h.receiver)

theorem Synchronised.expects (h : Synchronised s t con i j) :
    (t.heardSeq j (s.spanTable i).txSeq).Expects j (s.clearExtensions env i) := by
  intro e he
  rw [clearExtensions_eq] at he
  rcases h.spans with ⟨hnegotiated, -⟩ | ⟨hremote, hlocal, -⟩
  · rw [hnegotiated, if_neg (by simp), List.nil_append] at he
    exact .inl (isGroup_mgrpExtensions (List.mem_of_mem_head? he))
  · rw [hremote, if_pos rfl] at he
    refine .inr ⟨?_, env.random s.nRandom, ?_⟩
    · simpa [heardSeq] using hlocal
    · simpa using he.symm

theorem Synchronised.canFind (h : Synchronised s t con i j) (henv : SameCiphers env env')
    {locals : Locals} {r : S2 × Locals}
    (hparsed : ClearParsed env' j (t.heardSeq j (s.spanTable i).txSeq) locals ((s.clearExtensions env i).take 2) r) :
    ∃ generator, CanFind env' r.1 j r.2 generator s.peer.classId ∧ generator s.peer.classId = (s.spanUsed env i).d ∧
      ((r.1.spanTable j).state = .negotiated ∨ (r.1.spanTable j).state = .instantiate) := by
  have htable := congrFun hparsed.spanTable j
  rw [Function.update_self] at htable
  have hsg : r.1.sg = t.sg := congrArg Config.sg hparsed.config
  have hfsm : r.1.fsm = t.fsm := congrArg Config.fsm hparsed.config
  have hloaded : r.1.classLoaded s.peer.classId = true := by
    unfold classLoaded
    rw [show r.1.loadedKeys = t.loadedKeys from congrArg Config.loadedKeys hparsed.config]
    exact h.loaded
  have hheard : (t.heardSeq j (s.spanTable i).txSeq).spanTable j =
      { t.spanTable j with rxSeq := (s.spanTable i).txSeq } := by
    simp [heardSeq]
  rcases h.spans with ⟨hnegotiated, hstate, hd, hclass⟩ | ⟨hremote, hlocal, hnonce, hfrom, hto, hsearch⟩
  · have hsame : (r.1.spanTable j) = { t.spanTable j with rxSeq := (s.spanTable i).txSeq } := by
      rw [htable, spanHeard_group, hheard]
      intro e he
      refine isGroup_mgrpExtensions (s := s) ?_
      have hmem := List.mem_of_mem_take he
      rw [clearExtensions_eq, hnegotiated, if_neg (by simp)] at hmem
      simpa using hmem
    refine ⟨fun _ => (t.spanTable j).d, ⟨?_, hloaded, .inl ?_⟩, ?_, .inl ?_⟩
    · rw [hsame]
    · rw [hsame]
      exact hclass
    · rw [hd, spanUsed, if_neg (by simp [hnegotiated])]
    · rw [hsame]
      exact hstate
  · obtain ⟨rest, hclear⟩ : ∃ rest, (s.clearExtensions env i).take 2 = .sn (env.random s.nRandom) :: rest := by
      rw [clearExtensions_eq, if_pos hremote]
      exact ⟨_, rfl⟩
    obtain ⟨hs, hr⟩ := hparsed.sNonce _ _ hclear
    rw [hheard] at hr
    rw [hclear] at htable
    simp only [spanHeard, hheard] at htable
    refine ⟨fun k => env'.nextNonceInstantiate (env.random s.nRandom) (t.spanTable j).d.rNonce
      (t.sg k).nonceKey, ⟨?_, hloaded, ?_⟩, ?_, .inr ?_⟩
    · rw [htable]
      rfl
    · rw [htable, hfsm, hs, hr, hsg]
      rcases hsearch with hidle | hclass
      · exact .inr ⟨hidle, rfl, hfrom, hto, fun _ => rfl⟩
      · exact .inl hclass
    · dsimp only
      rw [spanUsed, if_pos hremote, hnonce, h.group, henv.nextNonceInstantiate]
    · rw [htable]

structure Arrives (env : Env) (s : S2) (i : SpanRef) (msg : Mem) (len : Nat) : Prop where
  ccm : CorrectCcm env
  len_eq : len = (s.draft env i).header.length + ((s.draft env i).plain.length + authTagLen)
  slice : msg.slice 0 len = (s.draft env i).header ++ (s.draft env i).ciphertext env

theorem arrives_encrypt (hccm : CorrectCcm env) (hslot : slot s.spanTable s.peer = some i)
    {msg : Mem} (hmsg : msg.slice 0 (s.encrypt env).1.length = (s.encrypt env).1) :
    Arrives env s i msg (s.encrypt env).1.length := by
  have hframe := (encrypted env hslot).frame
  refine ⟨hccm, ?_, hmsg.trans hframe⟩
  rw [hframe, List.length_append, Draft.ciphertext, hccm.length]

theorem Arrives.hasHeader {msg : Mem} {len : Nat} (h : Arrives env s i msg len) :
    HasHeader msg len (s.draft env i).header (s.spanTable i).txSeq (s.clearExtensions env i)
      (s.mpanExtensions env i != []) := by
  have hlen := h.len_eq
  refine ⟨rfl, ?_, by omega⟩
  have hslice := h.slice
  rw [h.len_eq, Mem.slice_add] at hslice
  exact (List.append_inj hslice (by simp)).1

theorem Arrives.slice_ciphertext {msg : Mem} {len : Nat} (h : Arrives env s i msg len) :
    msg.slice (s.draft env i).header.length (len - (s.draft env i).header.length) = (s.draft env i).ciphertext env := by
  have hslice := h.slice
  have hlen := h.len_eq
  rw [h.len_eq, Mem.slice_add, Nat.zero_add] at hslice
  rw [show len - (s.draft env i).header.length = (s.draft env i).plain.length + authTagLen by omega]
  exact (List.append_inj hslice (by simp)).2

theorem Synchronised.decryptMsg_eq (h : Synchronised s t con i j) {msg : Mem} {len : Nat}
    (harrives : Arrives env s i msg len) :
    ∃ r locals, t.decryptMsg env' con msg len = r.1.decryptSpan env' r.2 con j msg len ∧
      ClearParsed env' j (t.heardSeq j (s.spanTable i).txSeq) locals
        ((s.clearExtensions env i).take 2) r ∧ locals.hdrLen = 4 ∧ locals.mpan = none := by
  have hheader := harrives.hasHeader
  have hseq : msg 2 = (s.spanTable i).txSeq := hheader.byte rfl
  have hlen : ¬len < 4 + authTagLen := by
    have hroom := hheader.len
    have hsize := hheader.length_eq
    omega
  obtain ⟨r, locals, heq, hparsed, hhdrLen, hmpan⟩ := clearParsed_parseHeader env'
    h.singlecast hheader (orderly_clearExtensions env s i) h.expects
  refine ⟨r, locals, ?_, hparsed, hhdrLen, hmpan⟩
  simp only [decryptMsg, hlen, h.singlecast, hseq, h.verifySeq_eq, if_false, Bool.false_eq_true,
    if_true, findSpanByNode_of_slot env' _ con h.slot_heardSeq, decryptBody, heq]

theorem suffix_slice (msg : Mem) {k len : Nat} (hk : k ≤ len) : msg.slice k (len - k) <:+ msg.slice 0 len := by
  refine ⟨msg.slice 0 k, ?_⟩
  have hsplit := Mem.slice_add msg 0 k (len - k)
  rw [Nat.zero_add, Nat.add_sub_of_le hk] at hsplit
  exact hsplit.symm

theorem rc_finishDecrypt_zero (span : Option SpanRef) (mpan : Option MpanRef) (msg : Mem)
    (hdrLen : Nat) (aad text : Bytes) :
    (finishDecrypt env span mpan msg hdrLen aad 0 text con s).rc ≠ .authOk := by
  rw [finishDecrypt, if_pos (.inl rfl)]
  simp [authFail, Decrypted.failed]

theorem Synchronised.not_authOk (h : Synchronised s t con i j) (henv : SameCiphers env env')
    {msg : Mem} {len : Nat} (harrives : Arrives env s i msg len)
    (hunforged : Unforged env (msg.slice 0 len) (s.draft env i))
    (hbad : 2 < (s.clearExtensions env i).length ∨ (s.draft env i).plain = []) :
    (t.decryptMsg env' con msg len).rc ≠ .authOk := by
  obtain ⟨r, locals, heq, hparsed, hfour, -⟩ := h.decryptMsg_eq harrives
  obtain ⟨generator, -, -, hstate⟩ := h.canFind henv hparsed
  have hhdrLen := hparsed.hdrLen
  have hheaderLen := harrives.hasHeader.length_eq
  have hlen := harrives.len_eq
  rw [hfour] at hhdrLen
  have hnone : ∀ aad key nonce, (env'.ccmDecryptAndAuth key nonce aad
      (msg.slice r.2.hdrLen (len - r.2.hdrLen))).1 = 0 := by
    intro aad key nonce
    rw [henv.ccmDecryptAndAuth]
    by_contra hauth
    obtain ⟨rfl, rfl, rfl, htext⟩ :=
      hunforged key nonce aad _ (suffix_slice msg (by omega)) hauth
    rcases hbad with hmany | hempty
    · have hpos : 2 ≤ (Extension.encodeLast ((s.clearExtensions env i).drop 2)).length := by
        obtain ⟨e, es, hes⟩ := List.exists_cons_of_length_pos
          (show 0 < ((s.clearExtensions env i).drop 2).length by rw [List.length_drop]; omega)
        have hsize := Extension.size_pos e
        rw [hes]
        simp only [Extension.encodeLast, List.map_cons, List.flatten_cons, List.length_append, Extension.length_encode]
        omega
      have hsizes := congrArg List.length htext
      rw [Mem.length_slice, Draft.ciphertext, harrives.ccm.length] at hsizes
      omega
    · obtain ⟨rest, hdecrypt⟩ := harrives.ccm.decrypt (s.draft env i).key (s.draft env i).nonce
        (s.draft env i).aad (s.draft env i).plain
      rw [htext, Draft.ciphertext, hdecrypt, hempty] at hauth
      exact hauth rfl
  have hzero : (r.1.decryptSinglecast env' r.2 con j (r.1.makeAad con.rNode con.lNode msg r.2.hdrLen len)
      (msg.slice r.2.hdrLen (len - r.2.hdrLen))).1 = 0 := by
    by_contra hfound
    obtain ⟨key, nonce, hauth⟩ := authenticated_decryptSinglecast env' r.2 con hstate hfound
    exact hauth (hnone _ key nonce)
  rw [heq, decryptSpan, if_pos hstate]
  dsimp only
  rw [hzero]
  exact rc_finishDecrypt_zero _ _ _ _ _ _

structure Opened (env env' : Env) (s t : S2) (con : Connection) (i j : SpanRef) (msg : Mem) (len : Nat)
    (r : S2 × Locals) (w : Mem) (classId : UInt8) (s' : S2) (rest : Bytes) : Prop where
  eq : t.decryptMsg env' con msg len =
    finishDecrypt env' (some j) r.2.mpan msg (s.draft env i).header.length (s.draft env i).aad
      (s.draft env i).plain.length ((s.draft env i).plain ++ rest)
      (s'.acceptSinglecast con j r.2.mpan).1 (s'.acceptSinglecast con j r.2.mpan).2
  parsed : ∃ locals, ClearParsed env' j (t.heardSeq j (s.spanTable i).txSeq) locals
    (s.clearExtensions env i) r ∧ locals.mpan = none
  found : ∃ generator, Found env' { r.1 with workbuf := w } s' j generator (s.draft env i).key
    (s.draft env i).nonce classId ∧ generator s.peer.classId = (s.spanUsed env i).d

def OpensOnlyOwn (env env' : Env) (s t : S2) (i : SpanRef) : Prop :=
  ∀ generator, generator s.peer.classId = (s.spanUsed env i).d →
    OnlyUnder env' t generator (s.draft env i).key (s.draft env i).nonce (s.draft env i).aad
      ((s.draft env i).ciphertext env)

theorem opensOnlyOwn_of_unforged (henv : SameCiphers env env') {frame : Bytes}
    (hunforged : Unforged env frame (s.draft env i))
    (hsuffix : (s.draft env i).ciphertext env <:+ frame) : OpensOnlyOwn env env' s t i := by
  intro generator _ k _ hauth
  rw [henv.ccmDecryptAndAuth] at hauth
  obtain ⟨hkey, hnonce, -⟩ := hunforged _ _ _ _ hsuffix hauth
  exact ⟨hkey, hnonce⟩

theorem Synchronised.opened (h : Synchronised s t con i j) (henv : SameCiphers env env') {msg : Mem}
    {len : Nat} (harrives : Arrives env s i msg len) (hown : OpensOnlyOwn env env' s t i)
    (hfew : (s.clearExtensions env i).length ≤ 2) (hplain : (s.draft env i).plain ≠ []) :
    ∃ r w classId s' rest, Opened env env' s t con i j msg len r w classId s' rest := by
  obtain ⟨r, locals, heq, hparsed, hfour, hmpan⟩ := h.decryptMsg_eq harrives
  obtain ⟨generator, hcanFind, hgenerator, hstate⟩ := h.canFind henv hparsed
  obtain ⟨rest, hdecrypt⟩ := harrives.ccm.decrypt (s.draft env i).key (s.draft env i).nonce
    (s.draft env i).aad (s.draft env i).plain
  have hheader := harrives.hasHeader
  have hhdrLen : r.2.hdrLen = (s.draft env i).header.length := by
    rw [hparsed.hdrLen, hheader.length_eq, hfour, List.drop_eq_nil_of_le hfew]
    rfl
  rw [List.take_of_length_le hfew] at hparsed
  have hsg : r.1.sg = t.sg := congrArg Config.sg hparsed.config
  have hhome : r.1.myHomeId = t.myHomeId := congrArg Config.myHomeId hparsed.config
  have haad : r.1.makeAad con.rNode con.lNode msg (s.draft env i).header.length len = (s.draft env i).aad := by
    rw [makeAad_of_slice hheader.slice (by have := hheader.length_eq; omega), hhome, h.home,
      h.rNode, h.lNode, harrives.len_eq]
    simp only [draft]
    refine congrArg (aadOf _ _ _ _) ?_
    omega
  have hkeys : r.1.loadedKeys = t.loadedKeys := congrArg Config.loadedKeys hparsed.config
  have honly : OnlyUnder env' r.1 generator (s.draft env i).key (s.draft env i).nonce
      (s.draft env i).aad ((s.draft env i).ciphertext env) := by
    have hall := hown generator hgenerator
    unfold OnlyUnder classLoaded at hall ⊢
    rw [hsg, hkeys]
    exact hall
  rw [← henv.ccmDecryptAndAuth] at hdecrypt
  obtain ⟨w, classId, s', hsearch, hfound⟩ := decryptSinglecast_found env' con hdecrypt
    (by simpa using hplain) honly (by rw [hsg, h.group]; rfl)
    (by rw [hgenerator, henv.nextNonceGenerate]; rfl) hcanFind
  refine ⟨r, w, classId, s', rest, ?_, ⟨locals, hparsed, hmpan⟩, ⟨generator, hfound, hgenerator⟩⟩
  rw [heq, decryptSpan, if_pos hstate]
  dsimp only
  rw [hhdrLen, haad, harrives.slice_ciphertext]
  rw [Draft.ciphertext, hsearch]

theorem length_mpanArea (env : Env) (s : S2) (i : SpanRef) :
    (mpanArea (s.mpanExtensions env i) (s.stale env i)).length = 19 * (s.mpanExtensions env i).length := by
  unfold mpanArea
  split
  · rename_i hnone
    simp [hnone]
  · rename_i hne
    have hpos := List.length_pos_iff.mpr hne
    simp only [List.length_set, List.length_append, length_mpanStores hne, stale, Mem.length_slice]
    omega

theorem mpanChain_single (mpan : UInt8 × Block) : MpanChain (mpanArea [mpan] []) [mpan] := by
  refine ⟨exthdrTypeMpan ||| exthdrCriticalFlag, [], ?_, by decide, by decide, rfl⟩
  simp [mpanArea, mpanStores]
  decide

/-- The bytes of the encrypted extensions are a chain of what was to be attached. -/
def WellChained (env : Env) (s : S2) (i : SpanRef) : Prop :=
  ∃ mpans, mpans.Perm (s.mpanExtensions env i) ∧ MpanChain (mpanArea (s.mpanExtensions env i) (s.stale env i)) mpans

theorem wellChained_of_length_le {env : Env} {s : S2} {i : SpanRef}
    (h : (s.mpanExtensions env i).length ≤ 1) : s.WellChained env i := by
  refine ⟨s.mpanExtensions env i, List.Perm.refl _, ?_⟩
  have hstale : (s.mpanExtensions env i).length ≤ 1 → s.stale env i = [] := by
    intro hle
    simp only [stale]
    rw [show (s.mpanExtensions env i).length - 1 = 0 by omega]
    rfl
  rw [hstale h]
  rcases hm : s.mpanExtensions env i with _ | ⟨mpan, _ | ⟨mpan', rest⟩⟩
  · simp [mpanArea, MpanChain]
  · exact mpanChain_single mpan
  · simp [hm] at h

def Faithful (env env' : Env) (s t : S2) (con : Connection) (msg : Mem) : Prop :=
  let sent := s.encrypt env
  let d := t.decryptMsg env' con msg sent.1.length
  d.rc = .authOk ∧ d.plainText.slice 0 d.plainTextLen = s.buf.slice 0 s.length ∧
    ∃ attached recognised, sent.2.attached = attached ++ s.attached ∧
      d.s.recognised = recognised ++ t.recognised ∧ recognised.Perm attached

section Finish

variable {msg : Mem} {len : Nat} {r : S2 × Locals} {w : Mem} {classId : UInt8} {s' : S2} {rest : Bytes}

theorem Opened.recognised_eq (h : Opened env env' s t con i j msg len r w classId s' rest) :
    (s'.acceptSinglecast con j r.2.mpan).2.recognised = (s.clearExtensions env i).reverse ++ t.recognised := by
  obtain ⟨locals, hparsed, -⟩ := h.parsed
  obtain ⟨generator, hfound, -⟩ := h.found
  rw [recognised_acceptSinglecast, hfound.attempted.recognised]
  exact hparsed.recognised

structure Decoded (env : Env) (s : S2) (i : SpanRef) (m : Mem) : Prop where
  flag : m 3 &&& encapsulationEncryptedExtension ≠ 0 ↔ s.mpanExtensions env i ≠ []
  area : m.slice (s.draft env i).header.length (19 * (s.mpanExtensions env i).length) =
    mpanArea (s.mpanExtensions env i) (s.stale env i)
  payload : m.slice ((s.draft env i).header.length + 19 * (s.mpanExtensions env i).length)
    s.length = s.buf.slice 0 s.length

theorem length_plain (env : Env) (s : S2) (i : SpanRef) :
    (s.draft env i).plain.length = 19 * (s.mpanExtensions env i).length + s.length := by
  simp only [draft, List.length_append, length_mpanArea, Mem.length_slice]

theorem Arrives.decoded (h : Arrives env s i msg len) (rest : Bytes) : Decoded env s i
      (msg.write (s.draft env i).header.length ((s.draft env i).plain ++ rest)) := by
  have hheader := h.hasHeader
  have hsize := hheader.length_eq
  have hslice : (msg.write (s.draft env i).header.length ((s.draft env i).plain ++ rest)).slice
      (s.draft env i).header.length (s.draft env i).plain.length = (s.draft env i).plain := by
    have hself := Mem.slice_write_self msg (s.draft env i).header.length ((s.draft env i).plain ++ rest)
    rw [List.length_append, Mem.slice_add] at hself
    exact (List.append_inj hself (by simp)).1
  rw [length_plain, Mem.slice_add] at hslice
  obtain ⟨harea, hpayload⟩ := List.append_inj hslice (by simp [length_mpanArea])
  refine ⟨?_, harea, hpayload⟩
  rw [Mem.write_of_lt _ (by omega), hheader.byte (k := 3) rfl]
  cases (s.clearExtensions env i != []) <;> cases hm : (s.mpanExtensions env i != []) <;>
    simp_all <;> decide

theorem aad_ne_nil (env : Env) (s : S2) (i : SpanRef) : (s.draft env i).aad ≠ [] := by
  have hlen := length_clearExtensions_le env s i
  refine aadOf_ne_nil ?_
  rw [List.length_append, Extension.length_encodeClear]
  simp only [leadBytes, List.length_cons, List.length_nil]
  omega

theorem mpanExtension_injective : Function.Injective mpanExtension := by
  rintro ⟨g, inner⟩ ⟨g', inner'⟩ heq
  cases heq
  rfl

theorem perm_extensions {env : Env} {s : S2} {i : SpanRef} {mpans : List (UInt8 × Block)} :
    ((mpans.map mpanExtension).reverse ++ (s.clearExtensions env i).reverse).Perm
        (s.extensions env i).reverse ↔ mpans.Perm (s.mpanExtensions env i) := by
  have hextensions : s.extensions env i = s.clearExtensions env i ++ (s.mpanExtensions env i).map mpanExtension := rfl
  rw [← List.reverse_append, List.reverse_perm', List.perm_comm, List.reverse_perm',
    List.perm_comm, hextensions, List.perm_append_left_iff,
    List.map_perm_map_iff mpanExtension_injective]

theorem Opened.finish_eq (h : Opened env env' s t con i j msg len r w classId s' rest)
    (hplain : (s.draft env i).plain ≠ []) :
    t.decryptMsg env' con msg len =
      let m := msg.write (s.draft env i).header.length ((s.draft env i).plain ++ rest)
      let accepted := s'.acceptSinglecast con j r.2.mpan
      let p :=
        if m 3 &&& encapsulationEncryptedExtension ≠ 0 then
          parseEncrypted env' (some j) m (s.draft env i).header.length
            (s.draft env i).plain.length (s.draft env i).plain.length accepted.2 accepted.1 0
        else (true, accepted.2, accepted.1, 0)
      if p.1 then
        { rc := .authOk, con := p.2.2.1, s := p.2.1
          plainText := fun k => m ((s.draft env i).header.length + p.2.2.2 + k)
          plainTextLen := (s.draft env i).plain.length - p.2.2.2 }
      else
        .failed .parseFail p.2.2.1 p.2.1 := by
  rw [h.eq, finishDecrypt, if_neg]
  simp [hplain, aad_ne_nil]

theorem Opened.faithful (h : Opened env env' s t con i j msg (s.encrypt env).1.length r w classId s' rest)
    (harrives : Arrives env s i msg (s.encrypt env).1.length)
    (hslot : slot s.spanTable s.peer = some i) (hplain : (s.draft env i).plain ≠ [])
    (hchained : s.WellChained env i) : Faithful env env' s t con msg := by
  have hdecoded := harrives.decoded rest
  have hlength := length_plain env s i
  have heq := h.finish_eq hplain
  dsimp only at heq
  generalize msg.write (s.draft env i).header.length ((s.draft env i).plain ++ rest) = m at *
  obtain ⟨mpans, hperm, hchain⟩ := hchained
  have hcount := hperm.length_eq
  have hparsed : ∃ t' con', (if m 3 &&& encapsulationEncryptedExtension ≠ 0 then
        parseEncrypted env' (some j) m (s.draft env i).header.length (s.draft env i).plain.length
          (s.draft env i).plain.length (s'.acceptSinglecast con j r.2.mpan).2
          (s'.acceptSinglecast con j r.2.mpan).1 0
      else (true, (s'.acceptSinglecast con j r.2.mpan).2, (s'.acceptSinglecast con j r.2.mpan).1, 0)) =
          (true, t', con', 19 * (s.mpanExtensions env i).length) ∧
      t'.recognised = (mpans.map mpanExtension).reverse ++ (s'.acceptSinglecast con j r.2.mpan).2.recognised := by
    by_cases hnone : s.mpanExtensions env i = []
    · rw [if_neg (fun hflag => hdecoded.flag.mp hflag hnone)]
      rw [hnone, List.length_nil, List.length_eq_zero_iff] at hcount
      exact ⟨_, _, by rw [hnone]; rfl, by rw [hcount]; rfl⟩
    · have hne : mpans ≠ [] := by
        intro hempty
        rw [hempty, List.length_nil] at hcount
        exact hnone (List.length_eq_zero_iff.mp hcount.symm)
      have hpos := List.length_pos_iff.mpr hne
      have hchain' : MpanChain (m.slice ((s.draft env i).header.length + 0) (19 * mpans.length))
          mpans := by
        rw [hcount, Nat.add_zero, hdecoded.area]
        exact hchain
      rw [if_pos (hdecoded.flag.mpr hnone)]
      obtain ⟨t', con', hparse, hrecognised⟩ := parseEncrypted_chain env' j m
        (s.draft env i).header.length mpans hne (s.draft env i).plain.length (by omega)
        (s'.acceptSinglecast con j r.2.mpan).2 (s'.acceptSinglecast con j r.2.mpan).1 0 hchain'
        (show 0 + 19 * mpans.length ≤ (s.draft env i).plain.length by omega)
      rw [Nat.zero_add, hcount] at hparse
      exact ⟨t', con', hparse, hrecognised⟩
  obtain ⟨t', con', hparse, hrecognised⟩ := hparsed
  rw [hparse] at heq
  rw [h.recognised_eq, ← List.append_assoc] at hrecognised
  refine ⟨?_, ?_, _, _, (encrypted env hslot).attached, ?_, perm_extensions.mpr hperm⟩
  · rw [heq]
    rfl
  · rw [heq]
    simp only [if_true]
    rw [Mem.slice_shift, hlength, Nat.add_sub_cancel_left]
    exact hdecoded.payload
  · rw [heq]
    exact hrecognised

theorem Opened.wellChained (h : Opened env env' s t con i j msg (s.encrypt env).1.length r w classId s' rest)
    (harrives : Arrives env s i msg (s.encrypt env).1.length)
    (hslot : slot s.spanTable s.peer = some i) (hplain : (s.draft env i).plain ≠ [])
    (hfaithful : Faithful env env' s t con msg) : s.WellChained env i := by
  by_cases hnone : s.mpanExtensions env i = []
  · exact wellChained_of_length_le (by rw [hnone]; exact Nat.zero_le 1)
  have hdecoded := harrives.decoded rest
  have hlength := length_plain env s i
  have heq := h.finish_eq hplain
  have hclear := h.recognised_eq
  obtain ⟨hrc, hpayload, attached, recognised, hattached, hrecognised, hperm⟩ := hfaithful
  dsimp only at heq
  generalize msg.write (s.draft env i).header.length ((s.draft env i).plain ++ rest) = m at *
  generalize (s'.acceptSinglecast con j r.2.mpan) = accepted at *
  rw [if_pos (hdecoded.flag.mpr hnone)] at heq
  rw [heq] at hrc hpayload hrecognised
  rcases hparse : parseEncrypted env' (some j) m (s.draft env i).header.length
    (s.draft env i).plain.length (s.draft env i).plain.length accepted.2 accepted.1 0 with
    ⟨ok, t', con', hdrLen⟩
  simp only [hparse] at hrc hpayload hrecognised
  cases ok with
  | false => cases hrc
  | true =>
    obtain ⟨mpans, hheard, hle, hend, hchain⟩ := mpanChain_parseEncrypted env' _ _ _ _ hparse
    simp only [if_true] at hpayload hrecognised
    have hexts : attached = (s.extensions env i).reverse :=
      List.append_cancel_right (hattached.symm.trans (encrypted env hslot).attached)
    have hall : recognised = (mpans.map mpanExtension).reverse ++ (s.clearExtensions env i).reverse := by
      rw [hheard, hclear, ← List.append_assoc] at hrecognised
      exact List.append_cancel_right hrecognised.symm
    rw [hexts, hall, perm_extensions] at hperm
    have hcount := hperm.length_eq
    have hsize := congrArg List.length hpayload
    rw [Mem.length_slice, Mem.length_slice] at hsize
    obtain ⟨hbytes, -⟩ := hchain (by omega)
    rw [hcount, Nat.add_zero, hdecoded.area] at hbytes
    exact ⟨mpans, hperm, hbytes⟩

end Finish

/-- A synchronised peer opens a frame exactly when the encoder chained its extensions as the decoder
reads them: at most two in clear, at most one MPAN (more of them only by chance), and not a frame
without any plain text. -/
theorem frame_roundTrip (hccm : CorrectCcm env) (henv : SameCiphers env env') (h : Synchronised s t con i j)
    (hunforged : Unforged env (s.encrypt env).1 (s.draft env i)) (msg : Mem)
    (hmsg : msg.slice 0 (s.encrypt env).1.length = (s.encrypt env).1) :
    Faithful env env' s t con msg ↔
      (s.clearExtensions env i).length ≤ 2 ∧ (s.length ≠ 0 ∨ s.mpanExtensions env i ≠ []) ∧
        ((s.mpanExtensions env i).length ≤ 1 ∨ s.WellChained env i) := by
  have hframe := (encrypted env h.sender).frame
  have harrives := arrives_encrypt hccm h.sender hmsg
  have hplain : (s.draft env i).plain ≠ [] ↔ s.length ≠ 0 ∨ s.mpanExtensions env i ≠ [] := by
    rw [ne_eq, ← List.length_eq_zero_iff, length_plain, ne_eq (s.mpanExtensions env i), ← List.length_eq_zero_iff]
    omega
  rw [← hmsg] at hunforged
  have hown : OpensOnlyOwn env env' s t i :=
    opensOnlyOwn_of_unforged henv hunforged ⟨_, (hmsg.trans hframe).symm⟩
  rw [← hplain]
  constructor
  · intro hfaithful
    have hfew : (s.clearExtensions env i).length ≤ 2 := by
      by_contra hmany
      exact h.not_authOk henv harrives hunforged (.inl (by omega)) hfaithful.1
    have hsome : (s.draft env i).plain ≠ [] := by
      intro hempty
      exact h.not_authOk henv harrives hunforged (.inr hempty) hfaithful.1
    obtain ⟨r, w, classId, s', rest, hopened⟩ := h.opened henv harrives hown hfew hsome
    exact ⟨hfew, hsome, .inr (hopened.wellChained harrives h.sender hsome hfaithful)⟩
  · rintro ⟨hfew, hsome, hchained⟩
    obtain ⟨r, w, classId, s', rest, hopened⟩ := h.opened henv harrives hown hfew hsome
    refine hopened.faithful harrives h.sender hsome ?_
    rcases hchained with hone | hchained
    · exact wellChained_of_length_le hone
    · exact hchained

end Opening

/-! ## Two frames -/

def markedEnv (draft : Draft) : Env :=
  { sampleEnv with
    ccmEncryptAndAuth := fun key nonce aad text =>
      text ++ List.replicate 8 (if key = draft.key ∧ nonce = draft.nonce ∧ aad = draft.aad ∧ text = draft.plain then 1
          else 0)
    ccmDecryptAndAuth := fun key nonce aad text =>
      let front := text.take (text.length - 8)
      if text = front ++ List.replicate 8
          (if key = draft.key ∧ nonce = draft.nonce ∧ aad = draft.aad ∧ front = draft.plain then 1
            else 0) then
        (front.length, text)
      else
        (0, text) }

theorem correctCcm_markedEnv (draft : Draft) : CorrectCcm (markedEnv draft) := by
  refine ⟨fun key nonce aad text => by simp [markedEnv, authTagLen], fun key nonce aad text => ?_⟩
  refine ⟨List.replicate 8 (if key = draft.key ∧ nonce = draft.nonce ∧ aad = draft.aad ∧ text = draft.plain then 1
      else 0), ?_⟩
  simp [markedEnv]

theorem unforged_markedEnv (draft : Draft) :
    Unforged (markedEnv draft) (draft.header ++ draft.ciphertext (markedEnv draft)) draft := by
  intro key nonce aad text hsuffix hauth
  have hciphertext : draft.ciphertext (markedEnv draft) = draft.plain ++ List.replicate 8 1 := by
    simp [Draft.ciphertext, markedEnv]
  have htext : text = text.take (text.length - 8) ++ List.replicate 8
      (if key = draft.key ∧ nonce = draft.nonce ∧ aad = draft.aad ∧
        text.take (text.length - 8) = draft.plain then 1 else 0) := by
    by_contra hother
    exact hauth (congrArg Prod.fst (if_neg hother))
  by_cases hown : key = draft.key ∧ nonce = draft.nonce ∧ aad = draft.aad ∧ text.take (text.length - 8) = draft.plain
  · rw [if_pos hown, hown.2.2.2] at htext
    exact ⟨hown.1, hown.2.1, hown.2.2.1, htext.trans hciphertext.symm⟩
  · -- The last byte of such a text is 0, and that of the frame is 1.
    rw [if_neg hown] at htext
    have hlast : text.getLast? = some 0 := by
      rw [htext]
      simp [List.getLast?_append]
    obtain ⟨front, hframe⟩ := hsuffix
    have hone := congrArg List.getLast? hframe
    rw [List.getLast?_append, hlast, hciphertext] at hone
    simp [List.getLast?_append] at hone

def sendingAfter (env : Env) (events : List Event) (buf : Bytes) : S2 :=
  { (Machine.run (step env 0) sampleStart events).setPeer (sampleCon 0) buf with
    fsm := .sendingMsg, retry := 2 }

def samplePeer : S2 :=
  start 0 (init 0).sg 1 <| sampleSpans fun span =>
    { span with lnode := 2, rnode := 1, rxSeq := 100, state := .negotiated }

def samplePeerCon : Connection :=
  { zeroConnection with lNode := 2, rNode := 1 }

def mosTwice : List Event :=
  [ .call (.sendDataMulticast { sampleCon 0 with rNode := 7 } [0x20, 0x01, 0xFF]), .sendFrameDone .ok 0,
    .call (.sendDataFollowUpWithKeyset
      { sampleCon txoptionSinglecastFollowup with mgrpGroupId := 7 } false [0x20, 0x01, 0xFF]),
    .receive (sampleCon 0) (.ofBytes [0x9F, 0x03, 0x05, 0x01, 2, 0x84, 2, 0x84, 2, 0x7F, 0, 0, 0, 0, 0, 0, 0, 0]) 18,
    .sendFrameDone .ok 0 ]

def mosTwiceDraft : Draft where
  header := [0x9F, 0x03, 1, 2]
  key := Block.zero
  nonce := Block.zero
  aad := [1, 2, 0, 0, 0, 0, 0, 53, 1, 2]
  plain := [19, 0xC2, 7, 19, 0xC2, 7, 1, 1, 1, 1, 1, 1, 1, 1, 1, 1, 1, 1, 1, 1, 1, 2,
    0, 0, 0, 0, 0, 0, 0, 0, 0, 0, 0, 0, 0, 0, 0, 0, 0x20, 0x01, 0xFF]

/-- Node 2 is out of step with group 7, and its nonce report begins a new span. -/
def mosThenNonce : List Event :=
  [ .call (.sendDataMulticast { sampleCon 0 with rNode := 7 } [0x20, 0x01, 0xFF]), .sendFrameDone .ok 0,
    .call (.sendDataFollowUpWithKeyset
      { sampleCon txoptionSinglecastFollowup with mgrpGroupId := 7 } false [0x20, 0x01, 0xFF]),
    .receive (sampleCon 0)
      (.ofBytes [0x9F, 0x03, 0x05, 0x01, 2, 0x04, 0x20, 0x03, 0xFF, 0, 0, 0, 0, 0, 0, 0, 0]) 17,
    .sendFrameDone .ok 0,
    .receive (sampleCon 0) (.ofBytes ([0x9F, 0x02, 6, 0x01] ++ List.replicate 16 9)) 20 ]

def extendedDraft : Draft where
  header := [0x9F, 0x03, 1, 3, 18, 0x41] ++ List.replicate 16 2
  key := Block.zero
  nonce := Vector.replicate 16 2
  aad := [1, 2, 0, 0, 0, 0, 0, 52, 1, 3, 18, 0x41] ++ List.replicate 16 2
  plain := [19, 0x42, 7, 1, 1, 1, 1, 1, 1, 1, 1, 1, 1, 1, 1, 1, 1, 1, 2, 0x20, 0x01, 0xFF]

def reportingPeer : S2 :=
  start 0 (init 0).sg 1 <| sampleSpans fun span =>
    { span with
      lnode := 2, rnode := 1, rxSeq := 100, state := .sosLocalNonce, d.rNonce := Vector.replicate 16 9 }

theorem unforged_of_draft {draft : Draft} {s : S2} {i : SpanRef}
    (hslot : slot s.spanTable s.peer = some i) (hdraft : s.draft (markedEnv draft) i = draft) :
    Unforged (markedEnv draft) (s.encrypt (markedEnv draft)).1 (s.draft (markedEnv draft) i) := by
  rw [(encrypted _ hslot).frame, hdraft]
  exact unforged_markedEnv draft

/-- The two MPAN extensions are written over each other, and node 2 reads something else. -/
theorem mosTwice_not_faithful :
    let env := markedEnv mosTwiceDraft
    let s := sendingAfter env mosTwice [0x20, 0x01, 0xFF]
    CorrectCcm env ∧ Synchronised s samplePeer samplePeerCon 0 0 ∧ Unforged env (s.encrypt env).1 (s.draft env 0) ∧
      ¬Faithful env env s samplePeer samplePeerCon (.ofBytes (s.encrypt env).1) := by
  refine ⟨correctCcm_markedEnv _, ⟨?_, ?_, ?_, ?_, ?_, ?_, ?_, ?_, ?_, .inl ?_⟩,
    unforged_of_draft ?_ ?_, fun hfaithful => absurd hfaithful.2.1 ?_⟩
  all_goals decide +kernel

/-- A frame with the sender's nonce in clear and one encrypted inner state. -/
theorem extended_faithful :
    let env := markedEnv extendedDraft
    let s := sendingAfter env mosThenNonce [0x20, 0x01, 0xFF]
    (s.extensions env 0).length = 2 ∧ Faithful env env s reportingPeer samplePeerCon (.ofBytes (s.encrypt env).1) := by
  have hsync : Synchronised (sendingAfter (markedEnv extendedDraft) mosThenNonce [0x20, 0x01, 0xFF]) reportingPeer
      samplePeerCon 0 0 := by
    refine ⟨?_, ?_, ?_, ?_, ?_, ?_, ?_, ?_, ?_, .inr ?_⟩
    all_goals decide +kernel
  refine ⟨by decide, (frame_roundTrip (correctCcm_markedEnv _) ⟨rfl, rfl, rfl⟩ hsync (unforged_of_draft ?_ ?_) _
    (Mem.slice_ofBytes _)).mpr ⟨?_, .inl ?_, .inl ?_⟩⟩
  all_goals decide +kernel

end ZipGateway.S2

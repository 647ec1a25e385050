import ZipGateway.Security0.Receive

/-!
# The round trip

What one side encrypts, the other side decrypts, when both use the same keys. The sender chooses the
keys anew for each of the two frames of a message, by the bytes its data pointer is at; the receiver
knows one set of keys.
-/

set_option maxRecDepth 8000

namespace ZipGateway

structure SameKeys (sender : S0Keys) (data : Mem) (peer : S0Keys) : Prop where
  enc : sender.encFor data = peer.enckey
  auth : sender.authFor data = peer.authkey

variable {e : NonceEntry}

namespace TxSession

variable (t : TxSession) (aes : BlockCipher) (keys : S0Keys) (pass2 : Bool) (senderNonce receiverNonce : Nonce)

def cipherText : Bytes :=
  aesOfb aes (keys.encFor t.data) (senderNonce.bytes ++ receiverNonce.bytes)
    (t.flags pass2 :: t.data.slice 0 t.segmentLen)

def tag : Bytes :=
  (aesCbcMac aes (keys.authFor t.data) (senderNonce.bytes ++ receiverNonce.bytes)
    (authData t.sh t.param.snode.toUInt8 t.param.dnode.toUInt8
      (t.cipherText aes keys pass2 senderNonce receiverNonce))).take 8

theorem encryptedFrame_eq : t.encryptedFrame aes keys pass2 senderNonce receiverNonce =
      [commandClassSecurity, t.sh] ++ senderNonce.bytes ++
        t.cipherText aes keys pass2 senderNonce receiverNonce ++ [receiverNonce.id] ++
        t.tag aes keys pass2 senderNonce receiverNonce := rfl

@[simp]
theorem length_cipherText : (t.cipherText aes keys pass2 senderNonce receiverNonce).length = t.segmentLen + 1 := by
  simp [cipherText]

@[simp]
theorem length_tag : (t.tag aes keys pass2 senderNonce receiverNonce).length = 8 := by
  simp [tag, length_aesCbcMac]

structure Reads (encData : Mem) : Prop where
  sh : encData 1 = t.sh
  iv : encData.slice 2 8 = senderNonce.bytes
  payload : encData.slice 10 (t.segmentLen + 1) = t.cipherText aes keys pass2 senderNonce receiverNonce
  ri : encData (t.segmentLen + 11) = receiverNonce.id
  mac : encData.slice (t.segmentLen + 12) 8 = t.tag aes keys pass2 senderNonce receiverNonce

theorem length_encryptedFrame :
    (t.encryptedFrame aes keys pass2 senderNonce receiverNonce).length = t.segmentLen + 20 := by
  have hnonce := senderNonce.length_bytes
  simp only [encryptedFrame_eq, List.length_append, List.length_cons, List.length_nil, hnonce,
    length_cipherText, length_tag]
  omega

theorem reads_encryptedFrame : t.Reads aes keys pass2 senderNonce receiverNonce
      (Mem.ofBytes (t.encryptedFrame aes keys pass2 senderNonce receiverNonce)) := by
  have hnonce := senderNonce.length_bytes
  have htext := t.length_cipherText aes keys pass2 senderNonce receiverNonce
  have htag := t.length_tag aes keys pass2 senderNonce receiverNonce
  have hhead : ([commandClassSecurity, t.sh] ++ senderNonce.bytes).length = 10 := by simp [hnonce]
  rw [encryptedFrame_eq]
  set text := t.cipherText aes keys pass2 senderNonce receiverNonce
  set mac := t.tag aes keys pass2 senderNonce receiverNonce
  have hfront : ([commandClassSecurity, t.sh] ++ senderNonce.bytes ++ text).length = t.segmentLen + 11 := by
    rw [List.length_append, hhead, htext]
    omega
  refine ⟨rfl, ?_, ?_, ?_, ?_⟩
  · have hslice := Mem.slice_ofBytes_append [commandClassSecurity, t.sh] senderNonce.bytes
      (text ++ ([receiverNonce.id] ++ mac))
    rw [hnonce] at hslice
    simp only [List.append_assoc] at hslice ⊢
    exact hslice
  · have hslice := Mem.slice_ofBytes_append ([commandClassSecurity, t.sh] ++ senderNonce.bytes) text
      ([receiverNonce.id] ++ mac)
    rw [hhead, htext] at hslice
    simp only [List.append_assoc] at hslice ⊢
    exact hslice
  · have hbyte := Mem.ofBytes_append ([commandClassSecurity, t.sh] ++ senderNonce.bytes ++ text) mac receiverNonce.id
    rw [hfront] at hbyte
    exact hbyte
  · have hslice := Mem.slice_ofBytes_append
      ([commandClassSecurity, t.sh] ++ senderNonce.bytes ++ text ++ [receiverNonce.id]) mac []
    rw [List.length_append, hfront, htag, List.append_nil] at hslice
    exact hslice

end TxSession

namespace Security0

def HoldsNonce (table : List NonceEntry) (src dst : UInt8) (nonce : Nonce) : Prop :=
  ∃ e, getNonce table src dst (some nonce.id) = some e ∧ e.nonce = nonce

def withoutNonces (s : Security0) (snode dnode : UInt8) : Security0 :=
  { s with nonceTable := nonceClear s.nonceTable dnode snode }

section Decrypt

variable {env : S0Env} {s : Security0} {t : TxSession} {keys : S0Keys} {pass2 : Bool}
  {senderNonce receiverNonce : Nonce} {encData : Mem} {snode dnode : UInt8}

theorem sec0DecryptMessage_eq {j : Nat} {u : Security0}
    (hreads : t.Reads env.aes keys pass2 senderNonce receiverNonce encData)
    (hnonce : getNonce s.nonceTable dnode snode (some receiverNonce.id) = some e)
    (hrx : (s.withoutNonces snode dnode).rxSessionFor snode dnode = some (j, u)) :
    sec0DecryptMessage env s snode dnode encData (t.segmentLen + 20) =
      authenticate env u snode dnode encData (t.segmentLen + 20) e j := by
  unfold sec0DecryptMessage
  rw [if_neg (by omega), show t.segmentLen + 20 - 9 = t.segmentLen + 11 by omega, hreads.ri, hnonce]
  dsimp only
  unfold withoutNonces at hrx
  rw [hrx]

variable (env) in
theorem sec0DecryptMessage_noSession (hreads : t.Reads env.aes keys pass2 senderNonce receiverNonce encData)
    (hnonce : getNonce s.nonceTable dnode snode (some receiverNonce.id) = some e)
    (hrx : (s.withoutNonces snode dnode).rxSessionFor snode dnode = none) :
    sec0DecryptMessage env s snode dnode encData (t.segmentLen + 20) = (s.withoutNonces snode dnode, none) := by
  unfold sec0DecryptMessage
  rw [if_neg (by omega), show t.segmentLen + 20 - 9 = t.segmentLen + 11 by omega, hreads.ri, hnonce]
  dsimp only
  unfold withoutNonces at hrx ⊢
  rw [hrx]

theorem authenticate_same {u : Security0} {j : Nat}
    (hreads : t.Reads env.aes keys pass2 senderNonce receiverNonce encData)
    (hnonce : e.nonce = receiverNonce) (hkeys : SameKeys keys t.data u.keys)
    (hsnode : snode = t.param.snode.toUInt8) (hdnode : dnode = t.param.dnode.toUInt8) :
    authenticate env u snode dnode encData (t.segmentLen + 20) e j =
      (u.log (.authenticated e.issue snode dnode e.nonce)).reassemble j
        (t.flags pass2 :: t.data.slice 0 t.segmentLen) receiverNonce.id := by
  unfold authenticate
  dsimp only
  rw [show t.segmentLen + 20 - 19 = t.segmentLen + 1 by omega,
    show t.segmentLen + 20 - 8 = t.segmentLen + 12 by omega,
    show t.segmentLen + 20 - 9 = t.segmentLen + 11 by omega, hreads.iv, hreads.payload, hreads.mac,
    hreads.sh, hreads.ri, hnonce, ← hkeys.auth, ← hkeys.enc, hsnode, hdnode]
  rw [if_neg (by simp [TxSession.tag]), TxSession.cipherText, aesOfb_aesOfb]

theorem authenticate_other {u : Security0} {j : Nat}
    (hreads : t.Reads env.aes keys pass2 senderNonce receiverNonce encData)
    (hmac : ∀ iv data : Bytes, 0 < data.length → (aesCbcMac env.aes u.keys.authkey iv data).take 8 ≠ t.tag env.aes keys pass2 senderNonce receiverNonce) :
    authenticate env u snode dnode encData (t.segmentLen + 20) e j = (u, none) := by
  unfold authenticate
  dsimp only
  rw [show t.segmentLen + 20 - 8 = t.segmentLen + 12 by omega, hreads.mac, if_pos (hmac _ _ (by simp [authData]))]

end Decrypt

/-! ### Reassembly -/

section Reassemble

variable {s : Security0} {t : TxSession} {j : Nat} {data : Bytes} {behind : UInt8}

theorem flag_bits (q : UInt8) : (sequencedBitMask ||| (q &&& 0xF)) &&& sequencedBitMask ≠ 0 ∧
    (sequencedBitMask ||| (q &&& 0xF)) &&& secondFrameBitMask = 0 ∧
    (sequencedBitMask ||| (q &&& 0xF)) &&& 0xF = q &&& 0xF ∧
    (sequencedBitMask ||| secondFrameBitMask ||| (q &&& 0xF)) &&& sequencedBitMask ≠ 0 ∧
    (sequencedBitMask ||| secondFrameBitMask ||| (q &&& 0xF)) &&& secondFrameBitMask ≠ 0 ∧
    (sequencedBitMask ||| secondFrameBitMask ||| (q &&& 0xF)) &&& 0xF = q &&& 0xF := by
  have hall : ∀ i : Fin 256, (sequencedBitMask ||| (UInt8.ofFin i &&& 0xF)) &&& sequencedBitMask ≠ 0 ∧
      (sequencedBitMask ||| (UInt8.ofFin i &&& 0xF)) &&& secondFrameBitMask = 0 ∧
      (sequencedBitMask ||| (UInt8.ofFin i &&& 0xF)) &&& 0xF = UInt8.ofFin i &&& 0xF ∧
      (sequencedBitMask ||| secondFrameBitMask ||| (UInt8.ofFin i &&& 0xF)) &&& sequencedBitMask ≠ 0 ∧
      (sequencedBitMask ||| secondFrameBitMask ||| (UInt8.ofFin i &&& 0xF)) &&& secondFrameBitMask ≠ 0 ∧
      (sequencedBitMask ||| secondFrameBitMask ||| (UInt8.ofFin i &&& 0xF)) &&& 0xF = UInt8.ofFin i &&& 0xF := by
    decide
  exact hall q.toFin

theorem reassemble_single (hmore : t.moreToSend = false) :
    s.reassemble j (t.flags false :: data) behind = (s.freeRx j, some data) := by
  have hflags : t.flags false = 0 := by simp [TxSession.flags, hmore]
  unfold reassemble
  dsimp only
  rw [List.getD_cons_zero, hflags, if_neg (by decide), List.drop_one, List.tail_cons]

theorem reassemble_first (hmore : t.moreToSend = true) : s.reassemble j (t.flags false :: data) behind =
      (s.setRx j fun e => { e with seqNr := t.seq &&& 0xF, state := .rxEnc1, msg := data }, none) := by
  obtain ⟨hseq, hfirst, hnr, -, -, -⟩ := flag_bits t.seq
  have hflags : t.flags false = sequencedBitMask ||| (t.seq &&& 0xF) := by
    simp [TxSession.flags, hmore]
  unfold reassemble
  dsimp only
  rw [List.getD_cons_zero, hflags, if_pos hseq, if_pos hfirst, hnr, List.drop_one, List.tail_cons]

theorem flags_true : t.flags true = sequencedBitMask ||| secondFrameBitMask ||| (t.seq &&& 0xF) := by
  simp [TxSession.flags]

theorem reassemble_second {e : RxSession} (hrx : s.rx[j]? = some e) (hstate : e.state = .rxEnc1)
    (hseq : e.seqNr = t.seq &&& 0xF) :
    s.reassemble j (t.flags true :: data) behind = (s.freeRx j, some (e.msg ++ data)) := by
  obtain ⟨-, -, -, hseqd, hsecond, hnr⟩ := flag_bits t.seq
  unfold reassemble
  dsimp only
  rw [List.getD_cons_zero, flags_true, if_pos hseqd, if_neg hsecond, hrx]
  dsimp only
  rw [if_neg (by simp [hstate, hnr, hseq]), List.drop_one, List.tail_cons]

theorem reassemble_second_init {e : RxSession} (hrx : s.rx[j]? = some e) (hstate : e.state = .rxInit) :
    s.reassemble j (t.flags true :: data) behind = (s, none) := by
  obtain ⟨-, -, -, hseqd, hsecond, -⟩ := flag_bits t.seq
  unfold reassemble
  dsimp only
  rw [List.getD_cons_zero, flags_true, if_pos hseqd, if_neg hsecond, hrx]
  dsimp only
  rw [if_pos (.inl (by simp [hstate]))]

end Reassemble

/-! ### The receive sessions -/

section Sessions

variable {s u : Security0} {snode dnode : UInt8} {j : Nat}

def OpenFor (snode dnode : UInt8) (now : Nat) (e : RxSession) : Prop :=
  e.isFree now = false ∧ e.dnode = dnode ∧ e.snode = snode

theorem OpenFor.earlier {now later : Nat} {e : RxSession} (h : OpenFor snode dnode later e)
    (hle : now ≤ later) : OpenFor snode dnode now e := by
  refine ⟨?_, h.2⟩
  have hfree := h.1
  simp only [RxSession.isFree, Bool.or_eq_false_iff, decide_eq_false_iff_not] at hfree ⊢
  exact ⟨hfree.1, by omega⟩

structure GotSession (s : Security0) (snode dnode : UInt8) (j : Nat) (u : Security0) : Prop where
  session : ∃ e, u.rx[j]? = some e ∧ OpenFor snode dnode s.clock e ∧ (e ∈ s.rx ∨ e.timeout = s.clock + rxSessionLife)
  first : ∀ i e, i < j → u.rx[i]? = some e → ¬OpenFor snode dnode s.clock e
  rest : u = { s with rx := u.rx }

theorem gotSession_of_rxSessionFor (h : s.rxSessionFor snode dnode = some (j, u)) : GotSession s snode dnode j u := by
  unfold rxSessionFor at h
  split at h
  · rename_i i hfound
    cases h
    obtain ⟨hlt, hp, hbefore⟩ := List.findIdx?_eq_some_iff_getElem.mp hfound
    simp only [Bool.and_eq_true, Bool.not_eq_true', beq_iff_eq] at hp
    refine ⟨⟨s.rx[j], List.getElem?_eq_getElem hlt, ⟨hp.1.1, hp.1.2, hp.2⟩, .inl (List.getElem_mem hlt)⟩, ?_, rfl⟩
    intro i e hi he hopen
    obtain ⟨hilt, rfl⟩ := List.getElem?_eq_some_iff.mp he
    have hno := hbefore i hi
    simp [hopen.1, hopen.2.1, hopen.2.2] at hno
  · rename_i hnone
    split at h
    · rename_i i hfree
      cases h
      obtain ⟨hlt, hp, -⟩ := List.findIdx?_eq_some_iff_getElem.mp hfree
      have hnone' := List.findIdx?_eq_none_iff.mp hnone
      refine ⟨?_, ?_, rfl⟩
      · refine ⟨_, by simp [newRxSession, setRx, hlt]; rfl, ⟨?_, rfl, rfl⟩, .inr rfl⟩
        simp [RxSession.isFree]
      · intro i e hi he hopen
        have hold : s.rx[i]? = some e := by
          simpa [newRxSession, setRx, List.getElem?_modify, Nat.ne_of_gt hi] using he
        have hno := hnone' e (List.mem_of_getElem? hold)
        simp [hopen.1, hopen.2.1, hopen.2.2] at hno
    · cases h

theorem keys_sec0DecryptMessage {env : S0Env} {encData : Mem} {len : Nat} :
    (sec0DecryptMessage env s snode dnode encData len).1.keys = s.keys := by
  unfold sec0DecryptMessage
  split
  · rfl
  split
  · rfl
  dsimp only
  split
  · rfl
  rename_i i t hrx
  have hkeys : t.keys = s.keys := (congrArg Security0.keys (gotSession_of_rxSessionFor hrx).rest).trans rfl
  unfold authenticate
  dsimp only
  split
  · exact hkeys
  · unfold reassemble
    dsimp only
    split
    · split
      · exact hkeys
      · split
        · exact hkeys
        · split <;> exact hkeys
    · exact hkeys

theorem getRxSessionByNodes_eq_none :
    s.getRxSessionByNodes snode dnode = none ↔ ∀ e ∈ s.rx, ¬OpenFor snode dnode s.clock e := by
  rw [getRxSessionByNodes, List.findIdx?_eq_none_iff]
  refine forall₂_congr fun e _ => ?_
  simp only [OpenFor, Bool.and_eq_false_iff, Bool.not_eq_false', beq_eq_false_iff_ne]
  grind

theorem rxSessionFor_isSome (h : ∃ e ∈ s.rx, OpenFor snode dnode s.clock e ∨
    e.isFree s.clock = true) : ∃ j u, s.rxSessionFor snode dnode = some (j, u) := by
  unfold rxSessionFor
  cases hfound : s.getRxSessionByNodes snode dnode with
  | some j => exact ⟨j, s, rfl⟩
  | none =>
    have hnone := getRxSessionByNodes_eq_none.mp hfound
    obtain ⟨e, hmem, hopen | hfree⟩ := h
    · exact absurd hopen (hnone e hmem)
    · cases hfind : s.freeRxSession with
      | some j => exact ⟨j, _, rfl⟩
      | none =>
        have hno := List.findIdx?_eq_none_iff.mp hfind e hmem
        exact absurd (hfree.symm.trans hno) (by decide)

theorem rxSessionFor_eq_none (h : ¬∃ e ∈ s.rx, OpenFor snode dnode s.clock e ∨
    e.isFree s.clock = true) : s.rxSessionFor snode dnode = none := by
  have hnone : s.getRxSessionByNodes snode dnode = none :=
    getRxSessionByNodes_eq_none.mpr fun e hmem hopen => h ⟨e, hmem, .inl hopen⟩
  have hfree : s.freeRxSession = none := by
    rw [freeRxSession, List.findIdx?_eq_none_iff]
    intro e hmem
    exact Bool.eq_false_iff.mpr fun hfree => h ⟨e, hmem, .inr hfree⟩
  rw [rxSessionFor, hnone]
  dsimp only
  rw [hfree]

theorem rxInit_of_new (hnone : s.getRxSessionByNodes snode dnode = none)
    (h : s.rxSessionFor snode dnode = some (j, u)) :
    ∃ e, u.rx[j]? = some e ∧ e.state = .rxInit := by
  rw [rxSessionFor, hnone] at h
  dsimp only at h
  split at h
  · rename_i i hfree
    cases h
    obtain ⟨hlt, -, -⟩ := List.findIdx?_eq_some_iff_getElem.mp hfree
    exact ⟨_, by simp [newRxSession, setRx, hlt]; rfl, rfl⟩
  · cases h

theorem rxSessionFor_of_open {e : RxSession} (he : s.rx[j]? = some e) (hopen : OpenFor snode dnode s.clock e)
    (hfirst : ∀ i e, i < j → s.rx[i]? = some e → ¬OpenFor snode dnode s.clock e) :
    s.rxSessionFor snode dnode = some (j, s) := by
  have hfound : s.getRxSessionByNodes snode dnode = some j := by
    rw [getRxSessionByNodes, List.findIdx?_eq_some_iff_getElem]
    obtain ⟨hlt, rfl⟩ := List.getElem?_eq_some_iff.mp he
    refine ⟨hlt, by simp [hopen.1, hopen.2.1, hopen.2.2], ?_⟩
    intro i hi hp
    simp only [Bool.and_eq_true, Bool.not_eq_true', beq_iff_eq] at hp
    exact hfirst i _ hi (List.getElem?_eq_getElem (by omega)) ⟨hp.1.1, hp.1.2, hp.2⟩
  rw [rxSessionFor, hfound]

end Sessions

end Security0

/-! ### The transfer of a message -/

def zeroKey : Bytes := List.replicate 16 0

def TxSession.isKeySetMessage (t : TxSession) : Bool :=
  decide (2 ≤ t.dataLen) && isNetworkKeySet t.data

/-- The frames of a session, a second one when data is left, with the sender's and the receiver's nonces. -/
def TxSession.frames (t : TxSession) (aes : BlockCipher) (keys : S0Keys) (nonces nonces2 : Nonce × Nonce) :
    List Bytes :=
  t.encryptedFrame aes keys false nonces.1 nonces.2 ::
    if t.advance.dataLen = 0 then []
    else [t.advance.encryptedFrame aes keys true nonces2.1 nonces2.2]

def Security0.receiveAll (env : S0Env) (snode dnode : UInt8) :
    Security0 → List (Bytes × List NonceEntry × Nat) → List Bytes
  | _, [] => []
  | s, (frame, table, clock) :: rest =>
    let r := sec0DecryptMessage env { s with nonceTable := table, clock := clock } snode dnode
      (Mem.ofBytes frame) frame.length
    r.2.toList ++ receiveAll env snode dnode r.1 rest

/-- A message from the session `t` to the node `peer`, which has the key it is meant for and the receiver's
nonce of each frame when it arrives, and whose session lives until the second frame. -/
structure S0Transfer where
  t : TxSession
  netkey : Bytes
  nonces : Nonce × Nonce
  nonces2 : Nonce × Nonce
  peer : Security0
  table : List NonceEntry
  table2 : List NonceEntry
  clock : Nat
  clock2 : Nat
  len_pos : 0 < t.dataLen
  len_le : t.dataLen ≤ 52
  holds : Security0.HoldsNonce table t.param.dnode.toUInt8 t.param.snode.toUInt8 nonces.2
  holds2 : Security0.HoldsNonce table2 t.param.dnode.toUInt8 t.param.snode.toUInt8 nonces2.2
  clock_le : clock ≤ clock2
  lives : ∀ e ∈ peer.rx, Security0.OpenFor t.param.snode.toUInt8 t.param.dnode.toUInt8 clock e → clock2 ≤ e.timeout
  lives_new : clock2 ≤ clock + rxSessionLife

namespace S0Transfer

variable (x : S0Transfer)

def snode : UInt8 := x.t.param.snode.toUInt8

def dnode : UInt8 := x.t.param.dnode.toUInt8

def peerNetkey : Bytes :=
  if x.t.isKeySetMessage then zeroKey else x.netkey

def received (aes : BlockCipher) : List Bytes :=
  Security0.receiveAll ⟨aes, fun _ => true⟩ x.snode x.dnode { x.peer with keys := sec0SetKey aes x.peerNetkey }
    ((x.t.frames aes (sec0SetKey aes x.netkey) x.nonces x.nonces2).zip [(x.table, x.clock), (x.table2, x.clock2)])

def payload : Bytes :=
  x.t.data.slice 0 x.t.dataLen

def SessionAvailable : Prop :=
  ∃ e ∈ x.peer.rx, Security0.OpenFor x.snode x.dnode x.clock e ∨ e.isFree x.clock = true

/-- Each frame looks like a `NETWORK_KEY_SET` exactly when the message is one. -/
def FramesLikeMessage : Prop :=
  isNetworkKeySet x.t.data = x.t.isKeySetMessage ∧
    (26 < x.t.dataLen → isNetworkKeySet (fun i => x.t.data (26 + i)) = x.t.isKeySetMessage)

end S0Transfer

namespace Security0

section Frame

variable (env : S0Env) {s : Security0} {t : TxSession} (keyset : S0Keys) (pass2 : Bool) {nonces : Nonce × Nonce}

theorem sec0DecryptMessage_frame (hholds : HoldsNonce s.nonceTable t.param.dnode.toUInt8 t.param.snode.toUInt8 nonces.2)
    {j : Nat} {u : Security0}
    (hrx : (s.withoutNonces t.param.snode.toUInt8 t.param.dnode.toUInt8).rxSessionFor
      t.param.snode.toUInt8 t.param.dnode.toUInt8 = some (j, u)) :
    ∃ e, e.nonce = nonces.2 ∧ sec0DecryptMessage env s t.param.snode.toUInt8 t.param.dnode.toUInt8
        (Mem.ofBytes (t.encryptedFrame env.aes keyset pass2 nonces.1 nonces.2))
        (t.encryptedFrame env.aes keyset pass2 nonces.1 nonces.2).length =
      authenticate env u t.param.snode.toUInt8 t.param.dnode.toUInt8
        (Mem.ofBytes (t.encryptedFrame env.aes keyset pass2 nonces.1 nonces.2))
        (t.segmentLen + 20) e j := by
  obtain ⟨e, hget, hnonce⟩ := hholds
  refine ⟨e, hnonce, ?_⟩
  rw [TxSession.length_encryptedFrame]
  exact sec0DecryptMessage_eq (t.reads_encryptedFrame env.aes keyset pass2 nonces.1 nonces.2) hget hrx

theorem sec0DecryptMessage_frame_same
    (hholds : HoldsNonce s.nonceTable t.param.dnode.toUInt8 t.param.snode.toUInt8 nonces.2)
    {j : Nat} {u : Security0}
    (hrx : (s.withoutNonces t.param.snode.toUInt8 t.param.dnode.toUInt8).rxSessionFor
      t.param.snode.toUInt8 t.param.dnode.toUInt8 = some (j, u))
    (hkeys : SameKeys keyset t.data u.keys) :
    ∃ o, sec0DecryptMessage env s t.param.snode.toUInt8 t.param.dnode.toUInt8
        (Mem.ofBytes (t.encryptedFrame env.aes keyset pass2 nonces.1 nonces.2))
        (t.encryptedFrame env.aes keyset pass2 nonces.1 nonces.2).length =
      (u.log o).reassemble j (t.flags pass2 :: t.data.slice 0 t.segmentLen) nonces.2.id := by
  obtain ⟨e, hnonce, heq⟩ := sec0DecryptMessage_frame env keyset pass2 hholds hrx
  rw [heq]
  exact ⟨_, authenticate_same (t.reads_encryptedFrame env.aes keyset pass2 nonces.1 nonces.2) hnonce hkeys rfl rfl⟩

theorem sec0DecryptMessage_frame_other
    (hholds : HoldsNonce s.nonceTable t.param.dnode.toUInt8 t.param.snode.toUInt8 nonces.2)
    (hmac : ∀ iv data : Bytes, 0 < data.length → (aesCbcMac env.aes s.keys.authkey iv data).take 8 ≠
        t.tag env.aes keyset pass2 nonces.1 nonces.2) :
    (sec0DecryptMessage env s t.param.snode.toUInt8 t.param.dnode.toUInt8
      (Mem.ofBytes (t.encryptedFrame env.aes keyset pass2 nonces.1 nonces.2))
      (t.encryptedFrame env.aes keyset pass2 nonces.1 nonces.2).length).2 = none := by
  have hreads := t.reads_encryptedFrame env.aes keyset pass2 nonces.1 nonces.2
  cases hrx : (s.withoutNonces t.param.snode.toUInt8 t.param.dnode.toUInt8).rxSessionFor
      t.param.snode.toUInt8 t.param.dnode.toUInt8 with
  | none =>
    obtain ⟨e, hget, -⟩ := hholds
    rw [TxSession.length_encryptedFrame, sec0DecryptMessage_noSession env hreads hget hrx]
  | some r =>
    obtain ⟨j, u⟩ := r
    obtain ⟨e, -, heq⟩ := sec0DecryptMessage_frame env keyset pass2 hholds hrx
    have hukeys : u.keys = s.keys :=
      (congrArg Security0.keys (gotSession_of_rxSessionFor hrx).rest).trans rfl
    rw [← hukeys] at hmac
    rw [heq, authenticate_other hreads hmac]

end Frame

end Security0

namespace TxSession

variable {t : TxSession}

theorem segment_single (h : t.dataLen ≤ 26) :
    t.segmentLen = t.dataLen ∧ t.moreToSend = false ∧ t.advance.dataLen = 0 := by
  have hseg : t.segmentLen = t.dataLen := by
    rw [segmentLen, if_neg (by simp only [getNodeMaxFrameSize]; omega)]
  refine ⟨hseg, ?_, ?_⟩
  · exact decide_eq_false (by simp only [getNodeMaxFrameSize]; omega)
  · simp [advance, hseg]

theorem segment_two (h : 26 < t.dataLen) (hle : t.dataLen ≤ 52) :
    t.segmentLen = 26 ∧ t.moreToSend = true ∧ t.advance.dataLen = t.dataLen - 26 ∧
      t.advance.segmentLen = t.dataLen - 26 ∧ t.advance.data = fun i => t.data (26 + i) := by
  have hseg : t.segmentLen = 26 := by
    rw [segmentLen, if_pos (by simp only [getNodeMaxFrameSize]; omega)]
    rfl
  have hlen : t.advance.dataLen = t.dataLen - 26 := by simp [advance, hseg]
  refine ⟨hseg, ?_, hlen, ?_, ?_⟩
  · exact decide_eq_true (by simp only [getNodeMaxFrameSize]; omega)
  · rw [segmentLen, if_neg (by simp only [getNodeMaxFrameSize]; omega), hlen]
  · simp [advance, hseg]

end TxSession

namespace S0Transfer

variable (x : S0Transfer) (aes : BlockCipher)

def atFirst : Security0 :=
  { x.peer with keys := sec0SetKey aes x.peerNetkey, nonceTable := x.table, clock := x.clock }

def first : Security0 × Option Bytes :=
  Security0.sec0DecryptMessage ⟨aes, fun _ => true⟩ (x.atFirst aes) x.snode x.dnode
    (Mem.ofBytes (x.t.encryptedFrame aes (sec0SetKey aes x.netkey) false x.nonces.1 x.nonces.2))
    (x.t.encryptedFrame aes (sec0SetKey aes x.netkey) false x.nonces.1 x.nonces.2).length

def atSecond : Security0 :=
  { (x.first aes).1 with nonceTable := x.table2, clock := x.clock2 }

def second : Security0 × Option Bytes :=
  Security0.sec0DecryptMessage ⟨aes, fun _ => true⟩ (x.atSecond aes) x.snode x.dnode (Mem.ofBytes
      (x.t.advance.encryptedFrame aes (sec0SetKey aes x.netkey) true x.nonces2.1 x.nonces2.2))
    (x.t.advance.encryptedFrame aes (sec0SetKey aes x.netkey) true x.nonces2.1 x.nonces2.2).length

theorem received_single (h : x.t.dataLen ≤ 26) : x.received aes = (x.first aes).2.toList := by
  obtain ⟨-, -, hlen⟩ := TxSession.segment_single h
  unfold received TxSession.frames
  rw [if_pos hlen]
  exact List.append_nil _

theorem received_two (h : 26 < x.t.dataLen) : x.received aes = (x.first aes).2.toList ++ (x.second aes).2.toList := by
  obtain ⟨-, -, hlen, -⟩ := TxSession.segment_two h x.len_le
  unfold received TxSession.frames
  rw [if_neg (by omega)]
  exact congrArg (_ ++ ·) (List.append_nil _)

variable {x aes}

theorem sameKeys_of_like {data : Mem} (h : x.netkey = zeroKey ∨ isNetworkKeySet data = x.t.isKeySetMessage) :
    SameKeys (sec0SetKey aes x.netkey) data (sec0SetKey aes x.peerNetkey) := by
  rcases h with hzero | hlike
  · have hpeer : x.peerNetkey = zeroKey := by simp [peerNetkey, hzero]
    rw [hpeer, hzero]
    constructor
    · unfold S0Keys.encFor
      split <;> rfl
    · unfold S0Keys.authFor
      split <;> rfl
  · unfold peerNetkey
    constructor
    · unfold S0Keys.encFor
      rw [hlike]
      split <;> rfl
    · unfold S0Keys.authFor
      rw [hlike]
      split <;> rfl

theorem session_first (aes : BlockCipher) (havail : x.SessionAvailable) :
    ∃ j u, ((x.atFirst aes).withoutNonces x.snode x.dnode).rxSessionFor x.snode x.dnode = some (j, u) :=
  Security0.rxSessionFor_isSome havail

theorem received_of_single (h : x.t.dataLen ≤ 26) (havail : x.SessionAvailable)
    (hkeys : SameKeys (sec0SetKey aes x.netkey) x.t.data (sec0SetKey aes x.peerNetkey)) :
    x.received aes = [x.payload] := by
  obtain ⟨j, u, hrx⟩ := session_first aes havail
  obtain ⟨hseg, hmore, -⟩ := TxSession.segment_single h
  have hukeys : u.keys = sec0SetKey aes x.peerNetkey :=
    (congrArg Security0.keys (Security0.gotSession_of_rxSessionFor hrx).rest).trans rfl
  obtain ⟨o, hfirst⟩ := Security0.sec0DecryptMessage_frame_same ⟨aes, fun _ => true⟩
    (sec0SetKey aes x.netkey) false (s := x.atFirst aes) x.holds hrx (hukeys ▸ hkeys)
  have hout : (x.first aes).2 = some x.payload := by
    rw [first, snode, dnode, hfirst, Security0.reassemble_single hmore, hseg, payload]
  rw [received_single x aes h, hout]
  rfl

theorem session_second (h : 26 < x.t.dataLen) (havail : x.SessionAvailable)
    (hkeys : SameKeys (sec0SetKey aes x.netkey) x.t.data (sec0SetKey aes x.peerNetkey)) :
    (x.first aes).2 = none ∧ ∃ j e, ((x.atSecond aes).withoutNonces x.snode x.dnode).rxSessionFor x.snode x.dnode =
        some (j, (x.atSecond aes).withoutNonces x.snode x.dnode) ∧
      (x.atSecond aes).rx[j]? = some e ∧ e.state = .rxEnc1 ∧ e.seqNr = x.t.seq &&& 0xF ∧
      e.msg = x.t.data.slice 0 26 ∧ (x.atSecond aes).keys = sec0SetKey aes x.peerNetkey := by
  obtain ⟨j, u, hrx⟩ := session_first aes havail
  obtain ⟨hseg, hmore, -⟩ := TxSession.segment_two h x.len_le
  have hgot := Security0.gotSession_of_rxSessionFor hrx
  have hukeys : u.keys = sec0SetKey aes x.peerNetkey :=
    (congrArg Security0.keys hgot.rest).trans rfl
  obtain ⟨o, hfirst⟩ := Security0.sec0DecryptMessage_frame_same ⟨aes, fun _ => true⟩
    (sec0SetKey aes x.netkey) false (s := x.atFirst aes) x.holds hrx (hukeys ▸ hkeys)
  have heq : x.first aes = ((u.log o).setRx j fun e =>
      { e with seqNr := x.t.seq &&& 0xF, state := .rxEnc1, msg := x.t.data.slice 0 26 }, none) := by
    rw [first, snode, dnode, hfirst, Security0.reassemble_first hmore, hseg]
  obtain ⟨e, hej, hopen, hlife⟩ := hgot.session
  have hrx2 : (x.atSecond aes).rx = u.rx.modify j fun e =>
      { e with seqNr := x.t.seq &&& 0xF, state := .rxEnc1, msg := x.t.data.slice 0 26 } := by
    rw [atSecond, heq]
    rfl
  have hnow : x.clock2 ≤ e.timeout := by
    rcases hlife with hmem | hnew
    · exact x.lives e hmem hopen
    · rw [hnew]
      exact x.lives_new
  have hej2 : (x.atSecond aes).rx[j]? = some
      { e with seqNr := x.t.seq &&& 0xF, state := .rxEnc1, msg := x.t.data.slice 0 26 } := by
    rw [hrx2, List.getElem?_modify_eq, hej]
    rfl
  refine ⟨by rw [heq], j, _, ?_, hej2, rfl, rfl, rfl, ?_⟩
  · apply Security0.rxSessionFor_of_open (s := (x.atSecond aes).withoutNonces x.snode x.dnode) hej2
    · refine ⟨?_, hopen.2⟩
      simp only [RxSession.isFree, Bool.or_eq_false_iff, decide_eq_false_iff_not]
      exact ⟨rfl, Nat.not_lt.mpr hnow⟩
    · intro i e' hi he' hopen'
      have hold : u.rx[i]? = some e' := by
        have hget : (x.atSecond aes).rx[i]? = some e' := he'
        rw [hrx2, List.getElem?_modify_ne _ _ (Nat.ne_of_gt hi)] at hget
        exact hget
      exact hgot.first i e' hi hold (hopen'.earlier x.clock_le)
  · rw [atSecond, heq]
    exact hukeys

theorem received_of_two (h : 26 < x.t.dataLen) (havail : x.SessionAvailable)
    (hkeys : SameKeys (sec0SetKey aes x.netkey) x.t.data (sec0SetKey aes x.peerNetkey))
    (hkeys2 : SameKeys (sec0SetKey aes x.netkey) x.t.advance.data (sec0SetKey aes x.peerNetkey)) :
    x.received aes = [x.payload] := by
  obtain ⟨hnone, j, e, hrx, hej, hstate, hseq, hmsg, hpeer⟩ := session_second h havail hkeys
  obtain ⟨hseg, -, -, hseg2, hdata2⟩ := TxSession.segment_two h x.len_le
  obtain ⟨o, hsecond⟩ := Security0.sec0DecryptMessage_frame_same ⟨aes, fun _ => true⟩
    (sec0SetKey aes x.netkey) true (s := x.atSecond aes) (t := x.t.advance) x.holds2 hrx
    (by rw [Security0.withoutNonces, hpeer]; exact hkeys2)
  have hout : (x.second aes).2 = some x.payload := by
    have hre : (((x.atSecond aes).withoutNonces x.snode x.dnode).log o).reassemble j
        (x.t.advance.flags true :: x.t.advance.data.slice 0 x.t.advance.segmentLen)
        x.nonces2.2.id = _ := Security0.reassemble_second hej hstate hseq
    rw [second, snode, dnode]
    refine (congrArg Prod.snd (hsecond.trans hre)).trans (congrArg some ?_)
    have hadd := Mem.slice_add x.t.data 0 26 (x.t.dataLen - 26)
    rw [Nat.zero_add, Nat.add_sub_cancel' (Nat.le_of_lt h)] at hadd
    rw [payload, hmsg, hseg2, hdata2, Mem.slice_shift, hadd]
  rw [received_two x aes h, hnone, hout]
  rfl

/-! #### When it fails -/

def keyedCipher : BlockCipher where
  encrypt key _ := if key = zeroKey then zeroKey else List.replicate 16 1
  length_encrypt key _ := by
    split <;> simp [zeroKey]

def constantCipher : BlockCipher where
  encrypt _ _ := zeroKey
  length_encrypt _ _ := by simp [zeroKey]

end S0Transfer

theorem aesCbcMac_const {aes : BlockCipher} {key block : Bytes}
    (hconst : ∀ b, aes.encrypt key b = block) (iv : Bytes) {data : Bytes} (hdata : 0 < data.length) :
    aesCbcMac aes key iv data = block := by
  have hloop : ∀ (data : Bytes) (mac : Bytes) (i : Nat), 0 < data.length →
      (i + data.length) % 16 = 0 → macLoop aes key mac i data = block := by
    intro data
    induction data with
    | nil => exact fun _ _ hpos _ => absurd hpos (by simp)
    | cons b data ih =>
      intro mac i _ hmod
      cases data with
      | nil =>
        simp only [macLoop, macByte]
        rw [if_pos (by simp at hmod; omega), hconst]
      | cons c data =>
        apply ih
        · simp
        · simp only [List.length_cons] at hmod ⊢
          omega
  unfold aesCbcMac
  dsimp only
  split
  · exact hconst _
  · exact hloop data _ 0 hdata (by omega)

namespace S0Transfer

variable {x : S0Transfer}

theorem take_aesCbcMac_ne {key key' iv iv' data data' : Bytes}
    (hkey : key = zeroKey ↔ ¬key' = zeroKey) (hdata : 0 < data.length) (hdata' : 0 < data'.length) :
    (aesCbcMac keyedCipher key iv data).take 8 ≠ (aesCbcMac keyedCipher key' iv' data').take 8 := by
  have hconst : ∀ key b, keyedCipher.encrypt key b =
      if key = zeroKey then zeroKey else List.replicate 16 1 := fun _ _ => rfl
  rw [aesCbcMac_const (hconst key) iv hdata, aesCbcMac_const (hconst key') iv' hdata']
  by_cases h : key = zeroKey
  · rw [if_pos h, if_neg (hkey.mp h)]
    decide
  · rw [if_neg h, if_pos (not_not.mp (mt hkey.mpr h))]
    decide

theorem authFor_keyedCipher (hkey : x.netkey ≠ zeroKey) {data : Mem}
    (hlike : isNetworkKeySet data ≠ x.t.isKeySetMessage) :
    (sec0SetKey keyedCipher x.peerNetkey).authkey = zeroKey ↔
      ¬(sec0SetKey keyedCipher x.netkey).authFor data = zeroKey := by
  cases hmsg : x.t.isKeySetMessage with
  | true =>
    have hdata : isNetworkKeySet data = false := by simpa [hmsg] using hlike
    simp only [S0Keys.authFor, hdata, peerNetkey, hmsg, sec0SetKey, keyedCipher, if_neg hkey,
      if_true, Bool.false_eq_true, if_false]
    decide
  | false =>
    have hdata : isNetworkKeySet data = true := by simpa [hmsg] using hlike
    simp only [S0Keys.authFor, hdata, peerNetkey, hmsg, sec0SetKey, keyedCipher, if_neg hkey,
      if_true, Bool.false_eq_true, if_false]
    decide

theorem keys_first (aes : BlockCipher) : (x.first aes).1.keys = sec0SetKey aes x.peerNetkey := by
  exact Security0.keys_sec0DecryptMessage

theorem first_of_unlike (hkey : x.netkey ≠ zeroKey)
    (hlike : isNetworkKeySet x.t.data ≠ x.t.isKeySetMessage) : (x.first keyedCipher).2 = none := by
  apply Security0.sec0DecryptMessage_frame_other ⟨keyedCipher, fun _ => true⟩
    (sec0SetKey keyedCipher x.netkey) false (s := x.atFirst keyedCipher) x.holds
  intro iv data hdata
  exact take_aesCbcMac_ne (authFor_keyedCipher hkey hlike) hdata (by simp [authData])

theorem first_of_unavailable (aes : BlockCipher) (havail : ¬x.SessionAvailable) :
    x.first aes = ((x.atFirst aes).withoutNonces x.snode x.dnode, none) := by
  have hrx : ((x.atFirst aes).withoutNonces x.snode x.dnode).rxSessionFor x.snode x.dnode = none :=
    Security0.rxSessionFor_eq_none havail
  obtain ⟨e, hget, -⟩ := x.holds
  rw [first, TxSession.length_encryptedFrame]
  exact Security0.sec0DecryptMessage_noSession ⟨aes, fun _ => true⟩ (s := x.atFirst aes)
    (x.t.reads_encryptedFrame aes (sec0SetKey aes x.netkey) false x.nonces.1 x.nonces.2) hget hrx

theorem second_of_unlike (hkey : x.netkey ≠ zeroKey) (hlike : isNetworkKeySet x.t.advance.data ≠ x.t.isKeySetMessage) :
    (x.second keyedCipher).2 = none := by
  apply Security0.sec0DecryptMessage_frame_other ⟨keyedCipher, fun _ => true⟩
    (sec0SetKey keyedCipher x.netkey) true (s := x.atSecond keyedCipher) (t := x.t.advance) x.holds2
  intro iv data hdata
  have hpeer : (x.atSecond keyedCipher).keys = sec0SetKey keyedCipher x.peerNetkey := keys_first _
  rw [hpeer]
  exact take_aesCbcMac_ne (authFor_keyedCipher hkey hlike) hdata (by simp [authData])

theorem sameKeys_constantCipher (data : Mem) :
    SameKeys (sec0SetKey constantCipher x.netkey) data (sec0SetKey constantCipher x.peerNetkey) := by
  constructor
  · unfold S0Keys.encFor
    split <;> rfl
  · unfold S0Keys.authFor
    split <;> rfl

theorem second_of_unavailable (havail : ¬x.SessionAvailable) : (x.second constantCipher).2 = none := by
  have hstate : x.atSecond constantCipher = { x.atFirst constantCipher with
      nonceTable := x.table2, clock := x.clock2 } := by
    rw [atSecond, first_of_unavailable constantCipher havail]
    rfl
  have hnone : ((x.atSecond constantCipher).withoutNonces x.snode x.dnode).getRxSessionByNodes
      x.snode x.dnode = none := by
    rw [hstate, Security0.getRxSessionByNodes_eq_none]
    intro e hmem hopen
    exact havail ⟨e, hmem, .inl (hopen.earlier x.clock_le)⟩
  have hreads := x.t.advance.reads_encryptedFrame constantCipher
    (sec0SetKey constantCipher x.netkey) true x.nonces2.1 x.nonces2.2
  cases hrx : ((x.atSecond constantCipher).withoutNonces x.snode x.dnode).rxSessionFor x.snode x.dnode with
  | none =>
    obtain ⟨e, hget, -⟩ := x.holds2
    rw [second, TxSession.length_encryptedFrame]
    have hlost := Security0.sec0DecryptMessage_noSession ⟨constantCipher, fun _ => true⟩
      (s := { x.atSecond constantCipher with nonceTable := x.table2 }) hreads hget hrx
    exact congrArg Prod.snd hlost
  | some r =>
    obtain ⟨j, u⟩ := r
    obtain ⟨e, hej, hinit⟩ := Security0.rxInit_of_new hnone hrx
    have hukeys : u.keys = sec0SetKey constantCipher x.peerNetkey :=
      (congrArg Security0.keys (Security0.gotSession_of_rxSessionFor hrx).rest).trans (keys_first constantCipher)
    obtain ⟨o, hsecond⟩ := Security0.sec0DecryptMessage_frame_same ⟨constantCipher, fun _ => true⟩
      (sec0SetKey constantCipher x.netkey) true (s := x.atSecond constantCipher) (t := x.t.advance)
      x.holds2 hrx (hukeys ▸ sameKeys_constantCipher _)
    exact congrArg Prod.snd (hsecond.trans (Security0.reassemble_second_init (s := u.log o) hej hinit))

/-- A message of 1 to 52 bytes arrives, whatever the block cipher is, exactly when the peer has a
receive session for it and each of its frames is encrypted under the key the message is meant for. -/
theorem round_trip_iff (x : S0Transfer) : (∀ aes, x.received aes = [x.payload]) ↔
      x.SessionAvailable ∧ (x.netkey = zeroKey ∨ x.FramesLikeMessage) := by
  constructor
  · intro hall
    have hnone : ∀ aes, (x.first aes).2 = none → (26 < x.t.dataLen → (x.second aes).2 = none) →
        False := by
      intro aes hfirst hsecond
      have hreceived := hall aes
      by_cases hlen : x.t.dataLen ≤ 26
      · rw [received_single x aes hlen, hfirst] at hreceived
        exact absurd hreceived (by simp)
      · rw [received_two x aes (by omega), hfirst, hsecond (by omega)] at hreceived
        exact absurd hreceived (by simp)
    have havail : x.SessionAvailable := by
      by_contra havail
      refine hnone constantCipher ?_ fun _ => second_of_unavailable havail
      rw [first_of_unavailable constantCipher havail]
    refine ⟨havail, ?_⟩
    by_cases hkey : x.netkey = zeroKey
    · exact .inl hkey
    refine .inr ⟨?_, ?_⟩
    · by_contra hlike
      refine hnone keyedCipher (first_of_unlike hkey hlike) fun hlen => ?_
      have hmsg : x.t.isKeySetMessage = isNetworkKeySet x.t.data := by
        simp [TxSession.isKeySetMessage, show 2 ≤ x.t.dataLen by omega]
      exact absurd hmsg.symm hlike
    · intro hlen
      by_contra hlike
      obtain ⟨-, -, -, -, hdata⟩ := TxSession.segment_two hlen x.len_le
      refine hnone keyedCipher ?_ fun _ => second_of_unlike hkey (by rw [hdata]; exact hlike)
      have hmsg : isNetworkKeySet x.t.data = x.t.isKeySetMessage := by
        simp [TxSession.isKeySetMessage, show 2 ≤ x.t.dataLen by omega]
      exact (session_second hlen havail (sameKeys_of_like (.inr hmsg))).1
  · rintro ⟨havail, hkeys⟩ aes
    have hfirst : x.netkey = zeroKey ∨ isNetworkKeySet x.t.data = x.t.isKeySetMessage :=
      hkeys.imp_right fun h => h.1
    by_cases hlen : x.t.dataLen ≤ 26
    · exact received_of_single hlen havail (sameKeys_of_like hfirst)
    · have hlen' : 26 < x.t.dataLen := by omega
      obtain ⟨-, -, -, -, hdata⟩ := TxSession.segment_two hlen' x.len_le
      refine received_of_two hlen' havail (sameKeys_of_like hfirst) (sameKeys_of_like ?_)
      rw [hdata]
      exact hkeys.imp_right fun h => h.2 hlen'

/-- The bytes 26 and 27 of the payload are the code of a `NETWORK_KEY_SET`. -/
def boundaryTransfer : S0Transfer where
  t := { TxSession.zero with
    param := { snode := 1, dnode := 2, txFlags := 0, rxFlags := 0 }
    data := fun i => if i = 26 then 0x98 else if i = 27 then 0x06 else 0x20
    dataLen := 28
    seq := 1 }
  netkey := List.replicate 16 1
  nonces := (Nonce.ofFn fun _ => 3, Nonce.ofFn fun _ => 4)
  nonces2 := (Nonce.ofFn fun _ => 5, Nonce.ofFn fun _ => 6)
  peer := Security0.init (sec0SetKey constantCipher zeroKey)
  table := [{ src := 2, dst := 1, timeout := 10, replyNonce := false
              nonce := Nonce.ofFn fun _ => 4, issue := 0 }]
  table2 := [{ src := 2, dst := 1, timeout := 10, replyNonce := false
               nonce := Nonce.ofFn fun _ => 6, issue := 1 }]
  clock := 5
  clock2 := 5
  len_pos := by decide
  len_le := by decide
  holds := ⟨_, rfl, rfl⟩
  holds2 := ⟨_, rfl, rfl⟩
  clock_le := by decide
  lives := by
    intro e hmem hopen
    rw [List.eq_of_mem_replicate hmem] at hopen
    exact absurd hopen.1 (by decide)
  lives_new := by decide

/-- The second frame of this message is encrypted under the key of zeros, and lost. -/
theorem boundaryTransfer_lost : ¬∀ aes, boundaryTransfer.received aes = [boundaryTransfer.payload] := by
  intro hall
  exact absurd (hall keyedCipher) (by decide)

end S0Transfer

/-! ### The frames of the machine -/

namespace Security0

variable {env : S0Env} {s t : Security0} {i : Fin 2} {pass2 : Bool} {draws : List Nonce}

theorem registerNonce_eq (s : Security0) (use : NonceUse) (src dst : UInt8) (nonce : Nonce) :
    (s.registerNonce use src dst nonce).tx = s.tx ∧ (s.registerNonce use src dst nonce).keys = s.keys ∧
      (s.registerNonce use src dst nonce).nTx = s.nTx := by
  unfold registerNonce
  split
  · exact ⟨rfl, rfl, rfl⟩
  · exact ⟨rfl, rfl, rfl⟩

theorem state_txFailNow (s : Security0) (i : Fin 2) : ((s.txFailNow i).tx i).state = .txFail := by
  unfold txFailNow txFail complete
  split <;> simp [log]

end Security0

end ZipGateway

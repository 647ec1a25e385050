import Mathlib
import ZipGateway.Security0.RoundTrip

/-!
# Where `sec0_decrypt_message` writes

The function once more, with the copies it makes. A copy is a buffer, an offset and a length; the
lengths are computed as in C, `msg_len` and the result in bytes, the length of a `memcpy` in a
`size_t` of 64 bits. The field `msg_len` of the receive sessions is a table of its own here.
-/

namespace ZipGateway

/-- `rxBuffer` of `security_CommandHandler`, `msg` of the receive session, and the received frame,
which is decrypted in place. -/
inductive S0Buffer where
  | output
  | message
  | frame
deriving DecidableEq, Repr

structure S0Write where
  buffer : S0Buffer
  offset : Nat
  length : Nat
deriving DecidableEq, Repr

/-- The size of a buffer, for a frame of length `len`. -/
def S0Buffer.size (len : Nat) : S0Buffer → Nat
  | .output => 64
  | .message => 128
  | .frame => len

def S0Write.InBounds (len : Nat) (w : S0Write) : Prop :=
  w.offset + w.length ≤ w.buffer.size len

structure S0Decryption where
  state : Security0
  msgLen : Nat → UInt8
  scratch : List S0Write
  copies : List S0Write
  returned : UInt8

namespace S0Decryption

def writes (d : S0Decryption) : List S0Write :=
  d.scratch ++ d.copies

def delivered (d : S0Decryption) : Nat :=
  ((d.copies.filter fun w => w.buffer == .output).map S0Write.length).sum

end S0Decryption

def sizeSub (a b : Nat) : Nat :=
  (a + 2 ^ 64 - b) % 2 ^ 64

namespace Security0

/-- `a - b` in a `uint8_t`. -/
def byteSub (a b : Nat) : UInt8 :=
  UInt8.ofNat (a + 256 - b)

def reassembleWrites (s : Security0) (msgLen : Nat → UInt8) (j : Nat) (flags : UInt8) (part : Bytes)
    (len : Nat) : S0Decryption :=
  if flags &&& sequencedBitMask ≠ 0 then
    if flags &&& secondFrameBitMask = 0 then
      { state := s.setRx j fun e => { e with seqNr := flags &&& 0xF, state := .rxEnc1, msg := part }
        msgLen := Function.update msgLen j (byteSub len 20)
        scratch := []
        copies := [⟨.message, 0, (byteSub len 20).toNat⟩]
        returned := 0 }
    else
      match s.rx[j]? with
      | none => { state := s, msgLen, scratch := [], copies := [], returned := 0 }
      | some e =>
        if e.state ≠ .rxEnc1 ∨ flags &&& 0xF ≠ e.seqNr then
          { state := s, msgLen, scratch := [], copies := [], returned := 0 }
        else
          { state := s.freeRx j
            msgLen
            scratch := []
            copies := [⟨.output, 0, (msgLen j).toNat⟩, ⟨.output, (msgLen j).toNat, sizeSub len 20⟩]
            returned := msgLen j + byteSub len 20 }
  else
    { state := s.freeRx j
      msgLen
      scratch := []
      copies := [⟨.output, 0, sizeSub len 20⟩]
      returned := byteSub len 20 }

def payload (encData : Mem) (len : Nat) : Bytes :=
  encData.slice 10 (len - 19)

def frameIv (encData : Mem) (e : NonceEntry) : Bytes :=
  encData.slice 2 8 ++ e.nonce.bytes

def Authentic (env : S0Env) (s : Security0) (snode dnode : UInt8) (encData : Mem) (len : Nat) (e : NonceEntry) : Prop :=
  (aesCbcMac env.aes s.keys.authkey (frameIv encData e)
    (authData (encData 1) snode dnode (payload encData len))).take 8 = encData.slice (len - 8) 8

instance (env : S0Env) (s : Security0) (snode dnode : UInt8) (encData : Mem) (len : Nat)
    (e : NonceEntry) : Decidable (Authentic env s snode dnode encData len e) :=
  inferInstanceAs (Decidable (_ = _))

def decrypted (env : S0Env) (s : Security0) (encData : Mem) (len : Nat) (e : NonceEntry) : Bytes :=
  aesOfb env.aes s.keys.enckey (frameIv encData e) (payload encData len)

def flagsOf (env : S0Env) (s : Security0) (encData : Mem) (len : Nat) (e : NonceEntry) : UInt8 :=
  (decrypted env s encData len e).getD 0 (encData (len - 9))

/-- `sec0_decrypt_message` behind the search for the session, with its copies, the header and the payload
first. -/
def authenticateWrites (env : S0Env) (s : Security0) (msgLen : Nat → UInt8) (snode dnode : UInt8)
    (encData : Mem) (len : Nat) (e : NonceEntry) (j : Nat) : S0Decryption :=
  let scratch := [⟨.output, 0, 4⟩, ⟨.output, 4, len - 19⟩]
  if Authentic env s snode dnode encData len e then
    let d := (s.log (.authenticated e.issue snode dnode e.nonce)).reassembleWrites msgLen j
      (flagsOf env s encData len e) ((decrypted env s encData len e).drop 1) len
    { d with scratch, copies := ⟨.frame, 10, len - 19⟩ :: d.copies }
  else { state := s, msgLen, scratch, copies := [], returned := 0 }

/-- `sec0_decrypt_message`, with its copies. -/
def sec0DecryptWrites (env : S0Env) (s : Security0) (msgLen : Nat → UInt8) (snode dnode : UInt8)
    (encData : Mem) (len : Nat) : S0Decryption :=
  if len < 19 then { state := s, msgLen, scratch := [], copies := [], returned := 0 }
  else
    match getNonce s.nonceTable dnode snode (some (encData (len - 9))) with
    | none => { state := s, msgLen, scratch := [], copies := [], returned := 0 }
    | some e =>
      let s := { s with nonceTable := nonceClear s.nonceTable dnode snode }
      match s.rxSessionFor snode dnode with
      | none => { state := s, msgLen, scratch := [], copies := [], returned := 0 }
      | some (j, s) => authenticateWrites env s msgLen snode dnode encData len e j

section Lemmas

variable {env : S0Env} {s u : Security0} {msgLen : Nat → UInt8} {snode dnode : UInt8} {encData : Mem}
  {len j : Nat} {e : NonceEntry} {flags behind : UInt8}

/-! ### The same function -/

theorem state_reassembleWrites (plain : Bytes) :
    (s.reassembleWrites msgLen j (plain.getD 0 behind) (plain.drop 1) len).state = (s.reassemble j plain behind).1 := by
  unfold reassembleWrites reassemble
  dsimp only
  split
  · split
    · rfl
    · cases s.rx[j]? with
      | none => rfl
      | some e =>
        dsimp only
        split <;> rfl
  · rfl

theorem state_authenticateWrites : (authenticateWrites env s msgLen snode dnode encData len e j).state =
    (authenticate env s snode dnode encData len e j).1 := by
  unfold authenticateWrites authenticate
  by_cases h : Authentic env s snode dnode encData len e
  · exact (congrArg S0Decryption.state (if_pos h)).trans
      ((state_reassembleWrites _).trans (congrArg Prod.fst (if_neg (not_not.mpr h))).symm)
  · refine (congrArg S0Decryption.state (if_neg h)).trans ?_
    symm
    exact congrArg Prod.fst (if_pos h)

theorem state_sec0DecryptWrites : (sec0DecryptWrites env s msgLen snode dnode encData len).state =
    (sec0DecryptMessage env s snode dnode encData len).1 := by
  unfold sec0DecryptWrites sec0DecryptMessage
  split
  · rfl
  cases getNonce s.nonceTable dnode snode (some (encData (len - 9))) with
  | none => rfl
  | some e =>
    dsimp only
    cases rxSessionFor _ snode dnode with
    | none => rfl
    | some r => exact state_authenticateWrites

def takenUp (s : Security0) (snode dnode : UInt8) (encData : Mem) (len : Nat) : Option (NonceEntry × Nat × Security0) :=
  if len < 19 then none
  else
    match getNonce s.nonceTable dnode snode (some (encData (len - 9))) with
    | none => none
    | some e => ((s.withoutNonces snode dnode).rxSessionFor snode dnode).map fun r => (e, r)

theorem sec0DecryptWrites_of_takenUp (h : s.takenUp snode dnode encData len = some (e, j, u)) :
    sec0DecryptWrites env s msgLen snode dnode encData len =
      authenticateWrites env u msgLen snode dnode encData len e j := by
  unfold takenUp at h
  unfold sec0DecryptWrites
  split at h
  · cases h
  · rename_i hlen
    rw [if_neg hlen]
    cases hget : getNonce s.nonceTable dnode snode (some (encData (len - 9))) with
    | none => simp [hget] at h
    | some e' =>
      rw [hget] at h
      dsimp only at h ⊢
      unfold withoutNonces at h
      cases hrx : ({ s with nonceTable := nonceClear s.nonceTable dnode snode } :
          Security0).rxSessionFor snode dnode with
      | none => simp [hrx] at h
      | some r =>
        rw [hrx, Option.map_some, Option.some.injEq] at h
        cases h
        rfl

theorem takenUp_eq_some (h : s.takenUp snode dnode encData len = some (e, j, u)) :
    19 ≤ len ∧ getNonce s.nonceTable dnode snode (some (encData (len - 9))) = some e ∧
      (s.withoutNonces snode dnode).rxSessionFor snode dnode = some (j, u) := by
  unfold takenUp at h
  split at h
  · cases h
  · cases hget : getNonce s.nonceTable dnode snode (some (encData (len - 9))) with
    | none => simp [hget] at h
    | some e' =>
      rw [hget] at h
      obtain ⟨r, hr, heq⟩ := Option.map_eq_some_iff.mp h
      cases heq
      exact ⟨by omega, rfl, hr⟩

structure Dropped (s : Security0) (msgLen : Nat → UInt8) (d : S0Decryption) : Prop where
  rx : d.state.rx = s.rx
  msgLen_eq : d.msgLen = msgLen
  writes : d.writes = []
  returned : d.returned = 0

theorem dropped_of_takenUp (env : S0Env) (msgLen : Nat → UInt8) (h : s.takenUp snode dnode encData len = none) :
    Dropped s msgLen (sec0DecryptWrites env s msgLen snode dnode encData len) := by
  unfold takenUp at h
  unfold sec0DecryptWrites
  split at h
  · rename_i hlen
    rw [if_pos hlen]
    exact ⟨rfl, rfl, rfl, rfl⟩
  · rename_i hlen
    rw [if_neg hlen]
    cases hget : getNonce s.nonceTable dnode snode (some (encData (len - 9))) with
    | none => exact ⟨rfl, rfl, rfl, rfl⟩
    | some e =>
      rw [hget] at h
      dsimp only at h ⊢
      unfold withoutNonces at h
      rw [Option.map_eq_none_iff.mp h]
      exact ⟨rfl, rfl, rfl, rfl⟩

/-! ### The receive sessions of a frame that fails -/

theorem getRxSessionByNodes_ne_none_iff (h : s.rxSessionFor snode dnode = some (j, u)) :
    u.rx = s.rx ↔ s.getRxSessionByNodes snode dnode ≠ none := by
  unfold rxSessionFor at h
  cases hfound : s.getRxSessionByNodes snode dnode with
  | some i =>
    rw [hfound] at h
    cases h
    exact ⟨fun _ => by simp, fun _ => rfl⟩
  | none =>
    rw [hfound] at h
    dsimp only at h
    cases hfree : s.freeRxSession with
    | none => simp [hfree] at h
    | some i =>
      rw [hfree] at h
      cases h
      refine ⟨fun hsame => ?_, fun hne => absurd rfl hne⟩
      -- The entry was free, and the session put there is not.
      obtain ⟨hlt, hold, -⟩ := List.findIdx?_eq_some_iff_getElem.mp hfree
      have hentry : (s.newRxSession snode dnode j).rx[j]? = some ({ s.rx[j] with
          snode := snode, dnode := dnode, timeout := s.clock + rxSessionLife, state := .rxInit }) := by
        simp [newRxSession, setRx, hlt]
      rw [hsame, List.getElem?_eq_getElem hlt] at hentry
      have hnew := congrArg (fun r => r.map fun r => r.isFree s.clock) hentry
      simp only [Option.map_some, Option.some.injEq] at hnew
      rw [hold] at hnew
      have hlate : s.clock + rxSessionLife < s.clock := of_decide_eq_true hnew.symm
      exact absurd hlate (Nat.not_lt.mpr (Nat.le_add_right _ _))

/-! ### The copies -/

theorem sizeSub_of_le (h : 20 ≤ len) (hlt : len < 256) : sizeSub len 20 = len - 20 := by
  unfold sizeSub
  omega

theorem toNat_byteSub (h : 20 ≤ len) (hlt : len < 256) : (byteSub len 20).toNat = len - 20 := by
  unfold byteSub
  rw [UInt8.toNat_ofNat']
  omega

theorem sub_of_lt (hle : 19 ≤ len) (h : len < 20) : sizeSub len 20 = 2 ^ 64 - 1 ∧ (byteSub len 20).toNat = 255 := by
  obtain rfl : len = 19 := by omega
  exact ⟨by decide, by decide⟩

/-- The frame is the second one of a message whose first one is there. -/
def InOrder (s : Security0) (j : Nat) (flags : UInt8) : Prop :=
  flags &&& sequencedBitMask ≠ 0 ∧ flags &&& secondFrameBitMask ≠ 0 ∧
    ∃ r, s.rx[j]? = some r ∧ r.state = .rxEnc1 ∧ flags &&& 0xF = r.seqNr

def OutOfOrder (s : Security0) (j : Nat) (flags : UInt8) : Prop :=
  flags &&& sequencedBitMask ≠ 0 ∧ flags &&& secondFrameBitMask ≠ 0 ∧ ¬InOrder s j flags

/-- There is room for what an authenticated frame of at most 79 bytes carries. -/
def Fits (s : Security0) (msgLen : Nat → UInt8) (j : Nat) (flags : UInt8) (len : Nat) : Prop :=
  OutOfOrder s j flags ∨ 20 ≤ len ∧ (InOrder s j flags → (msgLen j).toNat + (len - 20) ≤ 64)

theorem copies_inBounds_iff (part : Bytes) (hle : 19 ≤ len) (hlt : len ≤ 79) :
    (∀ w ∈ (s.reassembleWrites msgLen j flags part len).copies, w.InBounds len) ↔ Fits s msgLen j flags len := by
  have hshort : len < 20 → sizeSub len 20 = 2 ^ 64 - 1 ∧ (byteSub len 20).toNat = 255 := sub_of_lt hle
  unfold reassembleWrites
  by_cases hseq : flags &&& sequencedBitMask = 0
  · rw [if_neg (not_not.mpr hseq)]
    have horder : ¬InOrder s j flags := fun h => h.1 hseq
    have hout : ¬OutOfOrder s j flags := fun h => h.1 hseq
    simp only [List.forall_mem_singleton, S0Write.InBounds, S0Buffer.size, Fits, hout, horder,
      false_or, false_imp_iff, and_true, Nat.zero_add]
    by_cases hlen : 20 ≤ len
    · rw [sizeSub_of_le hlen (by omega)]
      omega
    · rw [(hshort (by omega)).1]
      omega
  · rw [if_pos hseq]
    by_cases hsecond : flags &&& secondFrameBitMask = 0
    · rw [if_pos hsecond]
      have horder : ¬InOrder s j flags := fun h => h.2.1 hsecond
      have hout : ¬OutOfOrder s j flags := fun h => h.2.1 hsecond
      simp only [List.forall_mem_singleton, S0Write.InBounds, S0Buffer.size, Fits, hout, horder,
        false_or, false_imp_iff, and_true, Nat.zero_add]
      by_cases hlen : 20 ≤ len
      · rw [toNat_byteSub hlen (by omega)]
        omega
      · rw [(hshort (by omega)).2]
        omega
    · rw [if_neg hsecond]
      cases hrx : s.rx[j]? with
      | none =>
        have hout : OutOfOrder s j flags := by
          refine ⟨hseq, hsecond, ?_⟩
          rintro ⟨-, -, r, hr, -⟩
          rw [hrx] at hr
          cases hr
        exact iff_of_true (by simp) (.inl hout)
      | some r =>
        dsimp only
        by_cases hstate : r.state ≠ .rxEnc1 ∨ flags &&& 0xF ≠ r.seqNr
        · rw [if_pos hstate]
          have hout : OutOfOrder s j flags := by
            refine ⟨hseq, hsecond, ?_⟩
            rintro ⟨-, -, r', hr', henc, hnr⟩
            obtain rfl : r = r' := Option.some.inj (hrx.symm.trans hr')
            rcases hstate with hstate | hstate
            · exact hstate henc
            · exact hstate hnr
          exact iff_of_true (by simp) (.inl hout)
        · rw [if_neg hstate]
          rw [not_or, not_not, not_not] at hstate
          have horder : InOrder s j flags := ⟨hseq, hsecond, r, hrx, hstate⟩
          have hout : ¬OutOfOrder s j flags := fun h => h.2.2 horder
          simp only [List.forall_mem_cons, List.not_mem_nil, false_imp_iff, implies_true, and_true,
            S0Write.InBounds, S0Buffer.size, Fits, hout, horder, false_or, true_imp_iff, Nat.zero_add]
          by_cases hlen : 20 ≤ len
          · rw [sizeSub_of_le hlen (by omega)]
            omega
          · rw [(hshort (by omega)).1]
            omega

theorem delivered_of_copies {d : S0Decryption} {a b n : Nat}
    (h : d.copies = [⟨.output, 0, a⟩, ⟨.output, b, n⟩]) : d.delivered = a + n := by
  simp [S0Decryption.delivered, h]

theorem delivered_of_copy {d : S0Decryption} {n : Nat} (h : d.copies = [⟨.output, 0, n⟩]) : d.delivered = n := by
  simp [S0Decryption.delivered, h]

theorem returned_le_delivered (part : Bytes) (hle : 19 ≤ len) (hlt : len < 256) :
    (s.reassembleWrites msgLen j flags part len).returned.toNat ≤
      (s.reassembleWrites msgLen j flags part len).delivered := by
  have hsize : (byteSub len 20).toNat ≤ sizeSub len 20 := by
    by_cases hlen : 20 ≤ len
    · rw [toNat_byteSub hlen hlt, sizeSub_of_le hlen hlt]
    · rw [(sub_of_lt hle (by omega)).1, (sub_of_lt hle (by omega)).2]
      omega
  unfold reassembleWrites
  by_cases hseq : flags &&& sequencedBitMask = 0
  · rw [if_neg (not_not.mpr hseq), delivered_of_copy (n := sizeSub len 20) rfl]
    exact hsize
  · rw [if_pos hseq]
    by_cases hsecond : flags &&& secondFrameBitMask = 0
    · rw [if_pos hsecond]
      exact Nat.zero_le _
    · rw [if_neg hsecond]
      cases s.rx[j]? with
      | none => exact Nat.zero_le _
      | some r =>
        dsimp only
        split
        · exact Nat.zero_le _
        · rw [delivered_of_copies (a := (msgLen j).toNat) (b := (msgLen j).toNat) (n := sizeSub len 20) rfl]
          calc (msgLen j + byteSub len 20).toNat ≤ (msgLen j).toNat + (byteSub len 20).toNat := by
                rw [UInt8.toNat_add]
                exact Nat.mod_le _ _
            _ ≤ (msgLen j).toNat + sizeSub len 20 := Nat.add_le_add_left hsize _

theorem authenticateWrites_of_authentic (h : Authentic env s snode dnode encData len e) :
    (authenticateWrites env s msgLen snode dnode encData len e j).scratch = [⟨.output, 0, 4⟩, ⟨.output, 4, len - 19⟩] ∧
      (authenticateWrites env s msgLen snode dnode encData len e j).copies = ⟨.frame, 10, len - 19⟩ ::
        ((s.log (.authenticated e.issue snode dnode e.nonce)).reassembleWrites msgLen j
          (flagsOf env s encData len e) ((decrypted env s encData len e).drop 1) len).copies ∧
      (authenticateWrites env s msgLen snode dnode encData len e j).returned =
        ((s.log (.authenticated e.issue snode dnode e.nonce)).reassembleWrites msgLen j
          (flagsOf env s encData len e) ((decrypted env s encData len e).drop 1) len).returned := by
  unfold authenticateWrites
  dsimp only
  rw [if_pos h]
  exact ⟨rfl, rfl, rfl⟩

theorem authenticateWrites_of_not (h : ¬Authentic env s snode dnode encData len e) :
    authenticateWrites env s msgLen snode dnode encData len e j =
      { state := s, msgLen, scratch := [⟨.output, 0, 4⟩, ⟨.output, 4, len - 19⟩], copies := []
        returned := 0 } := by
  unfold authenticateWrites
  dsimp only
  rw [if_neg h]

end Lemmas

/-! ### The result -/

def FailsAuthentication (env : S0Env) (s : Security0) (snode dnode : UInt8) (encData : Mem) (len : Nat) : Prop :=
  ∀ e, getNonce s.nonceTable dnode snode (some (encData (len - 9))) = some e →
    len < 19 ∨ ¬Authentic env s snode dnode encData len e

/-- The writes of a call are inside their buffers, it returns no more than it copied, and a frame that
fails authentication leaves the receive sessions as they are. -/
structure ReceivesSafely (env : S0Env) (s : Security0) (msgLen : Nat → UInt8) (snode dnode : UInt8)
    (encData : Mem) (len : Nat) : Prop where
  inBounds : ∀ w ∈ (sec0DecryptWrites env s msgLen snode dnode encData len).writes, w.InBounds len
  returned_le : (sec0DecryptWrites env s msgLen snode dnode encData len).returned.toNat ≤
    (sec0DecryptWrites env s msgLen snode dnode encData len).delivered
  atomic : FailsAuthentication env s snode dnode encData len →
    (sec0DecryptWrites env s msgLen snode dnode encData len).state.rx = s.rx ∧
      (sec0DecryptWrites env s msgLen snode dnode encData len).msgLen = msgLen

structure SafeFrame (env : S0Env) (s : Security0) (msgLen : Nat → UInt8) (snode dnode : UInt8)
    (encData : Mem) (len : Nat) (e : NonceEntry) (j : Nat) (u : Security0) : Prop where
  length_le : len ≤ 79
  fits : Authentic env s snode dnode encData len e → Fits u msgLen j (flagsOf env s encData len e) len
  session : ¬Authentic env s snode dnode encData len e → s.getRxSessionByNodes snode dnode ≠ none

/-- The exact condition under which a frame is received safely. -/
theorem receivesSafely_iff (env : S0Env) (s : Security0) (msgLen : Nat → UInt8)
    (snode dnode : UInt8) (encData : Mem) (len : UInt8) :
    ReceivesSafely env s msgLen snode dnode encData len.toNat ↔
      ∀ e j u, s.takenUp snode dnode encData len.toNat = some (e, j, u) →
        SafeFrame env s msgLen snode dnode encData len.toNat e j u := by
  have hbyte : len.toNat < 256 := len.toNat_lt
  generalize len.toNat = n at hbyte ⊢
  cases htaken : s.takenUp snode dnode encData n with
  | none =>
    obtain ⟨hrx, hmsg, hwrites, hreturned⟩ := dropped_of_takenUp env msgLen htaken
    refine iff_of_true ⟨?_, ?_, fun _ => ⟨hrx, hmsg⟩⟩ (by simp)
    · rw [hwrites]
      simp
    · rw [hreturned]
      exact Nat.zero_le _
  | some r =>
    obtain ⟨e, j, u⟩ := r
    obtain ⟨hlen, hget, hrx⟩ := takenUp_eq_some htaken
    have hkeys : u.keys = s.keys := (congrArg Security0.keys (gotSession_of_rxSessionFor hrx).rest).trans rfl
    have hauth : Authentic env u snode dnode encData n e ↔ Authentic env s snode dnode encData n e := by
      unfold Authentic
      rw [hkeys]
    have hflags : flagsOf env u encData n e = flagsOf env s encData n e := by
      unfold flagsOf decrypted
      rw [hkeys]
    have hscratch : (∀ w ∈ [(⟨.output, 0, 4⟩ : S0Write), ⟨.output, 4, n - 19⟩], w.InBounds n) ↔ n ≤ 79 := by
      simp only [List.forall_mem_cons, List.not_mem_nil, false_imp_iff, implies_true, and_true,
        S0Write.InBounds, S0Buffer.size]
      omega
    have hsession : u.rx = s.rx ↔ s.getRxSessionByNodes snode dnode ≠ none :=
      getRxSessionByNodes_ne_none_iff (s := s.withoutNonces snode dnode) hrx
    have hd : sec0DecryptWrites env s msgLen snode dnode encData n =
        authenticateWrites env u msgLen snode dnode encData n e j := sec0DecryptWrites_of_takenUp htaken
    have hiff : ReceivesSafely env s msgLen snode dnode encData n ↔
        SafeFrame env s msgLen snode dnode encData n e j u := by
      by_cases hok : Authentic env s snode dnode encData n e
      · obtain ⟨hscratched, hcopied, hreturned⟩ :=
          @authenticateWrites_of_authentic env u msgLen snode dnode encData n j e (hauth.mpr hok)
        rw [hflags] at hcopied hreturned
        have hcopies : n ≤ 79 → ((∀ w ∈ ((u.log (.authenticated e.issue snode dnode
            e.nonce)).reassembleWrites msgLen j (flagsOf env s encData n e)
              ((decrypted env u encData n e).drop 1) n).copies, w.InBounds n) ↔
            Fits u msgLen j (flagsOf env s encData n e) n) :=
          fun hle => copies_inBounds_iff _ hlen hle
        constructor
        · rintro ⟨hin, -, -⟩
          unfold S0Decryption.writes at hin
          rw [hd, hscratched, hcopied, List.forall_mem_append] at hin
          have hle := hscratch.mp hin.1
          refine ⟨hle, fun _ => ?_, fun hno => absurd hok hno⟩
          exact (hcopies hle).mp (List.forall_mem_cons.mp hin.2).2
        · rintro ⟨hle, hfits, -⟩
          refine ⟨?_, ?_, fun hfails => ?_⟩
          · unfold S0Decryption.writes
            rw [hd, hscratched, hcopied, List.forall_mem_append]
            refine ⟨hscratch.mpr hle, List.forall_mem_cons.mpr ⟨?_, (hcopies hle).mpr (hfits hok)⟩⟩
            change 10 + (n - 19) ≤ n
            omega
          · rw [hd, hreturned, S0Decryption.delivered, hcopied]
            exact returned_le_delivered _ hlen hbyte
          · rcases hfails e hget with hshort | hno
            · omega
            · exact absurd hok hno
      · have hfailed := @authenticateWrites_of_not env u msgLen snode dnode encData n j e (mt hauth.mp hok)
        constructor
        · rintro ⟨hin, -, hatomic⟩
          rw [hd, hfailed] at hin hatomic
          refine ⟨hscratch.mp fun w hw => hin w (List.mem_append_left _ hw), fun h => absurd h hok,
            fun _ => hsession.mp ?_⟩
          refine (hatomic fun e' he' => ?_).1
          obtain rfl : e = e' := Option.some.inj (hget.symm.trans he')
          exact .inr hok
        · rintro ⟨hle, -, hopen⟩
          rw [hfailed] at hd
          refine ⟨?_, ?_, fun _ => ?_⟩
          · rw [hd]
            intro w hw
            exact hscratch.mpr hle w (by simpa [S0Decryption.writes] using hw)
          · rw [hd]
            exact Nat.zero_le _
          · rw [hd]
            exact ⟨hsession.mpr (hopen hok), rfl⟩
    rw [hiff]
    constructor
    · rintro hsafe e' j' u' heq
      cases heq
      exact hsafe
    · exact fun hall => hall e j u rfl

def sampleReceiver : Security0 :=
  { init (sec0SetKey S0Transfer.constantCipher []) with
    nonceTable := [{ src := 1, dst := 5, timeout := 10, replyNonce := false, nonce := zeroNonce
                     issue := 0 }] }

/-- A frame of 21 bytes whose authentication tag is wrong opens a receive session. -/
theorem forged_opens_session :
    ¬∀ (env : S0Env) (s : Security0) (msgLen : Nat → UInt8) (snode dnode : UInt8) (encData : Mem)
      (len : UInt8), ReceivesSafely env s msgLen snode dnode encData len.toNat := by
  intro hall
  have hsafe := hall ⟨S0Transfer.constantCipher, fun _ => true⟩ sampleReceiver (fun _ => 0) 5 1
    (fun i => if i = 20 then 1 else 0) 21
  have hsame := hsafe.atomic fun e he => by
    obtain rfl := Option.some.inj he
    exact .inr (by decide)
  exact absurd (congrArg (List.map RxSession.state) hsame.1) (by decide)

end Security0

end ZipGateway

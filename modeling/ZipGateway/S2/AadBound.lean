import ZipGateway.Lib.Endian
import ZipGateway.S2.RoundTrip

/-!
# The buffer of the additional data

`S2_make_aad` compares the size of the buffer with the length of the short form, where a node id takes one
byte. In the long form each of the two takes one more, and a header of 57 or 58 bytes passes the check and
goes past the end of the buffer. Only a received header can be that long.
-/

namespace ZipGateway.S2

def aadBufSize : Nat := 64

/-- The two ids take the 16-bit form when one of them is a long range one. -/
def LongForm (sender receiver : NodeId) : Prop :=
  lowestLongRangeNodeId ≤ sender ∨ lowestLongRangeNodeId ≤ receiver

instance (sender receiver : NodeId) : Decidable (LongForm sender receiver) :=
  inferInstanceAs (Decidable (_ ∨ _))

def bigEndian (n x : Nat) : Bytes :=
  (Endian.toBytes n x).reverse

/-- The arguments of `S2_make_aad`, less the buffer. -/
structure AadArgs where
  s        : S2
  sender   : NodeId
  receiver : NodeId
  msg      : Mem
  hdrLen   : Nat
  msgLen   : Nat

def AadArgs.bytes (a : AadArgs) : Bytes :=
  a.s.makeAad a.sender a.receiver a.msg a.hdrLen a.msgLen

def AadArgs.fields (a : AadArgs) : List Bytes :=
  let width := if LongForm a.sender a.receiver then 2 else 1
  [bigEndian width a.sender.toNat, bigEndian width a.receiver.toNat, bigEndian 4 a.s.myHomeId.toNat,
    bigEndian 2 a.msgLen, a.msg.slice 2 (a.hdrLen - 2)]

/-- The bytes written fit the buffer and are the fields in order; none of a header that is too long. -/
structure AadArgs.Fits (a : AadArgs) : Prop where
  bound  : a.bytes.length ≤ aadBufSize
  fields : a.bytes = if 58 < a.hdrLen then [] else a.fields.flatten

inductive ReceivedAad (env : Env) : AadArgs → Prop where
  /-- A frame of the span `i`. -/
  | singlecast (t s : S2) (con : Connection) (i : SpanRef) (msg : Mem) (len : Nat) (r : S2 × Locals)
      (hlen : 4 + authTagLen ≤ len) (hcon : con.isMulticast = false)
      (hseq : (t.verifySeq env con (msg 2)).1 = true)
      (hspan : (t.verifySeq env con (msg 2)).2.findSpanByNode env con = (i, s))
      (hparsed : s.parseHeader env con (some i) msg len = (true, r))
      (hstate : (r.1.spanTable i).state = .negotiated ∨ (r.1.spanTable i).state = .instantiate) :
      ReceivedAad env ⟨r.1, con.rNode, con.lNode, msg, r.2.hdrLen, len⟩
  /-- A frame to the group of the MPAN `m`. -/
  | group (s : S2) (con : Connection) (m : MpanRef) (msg : Mem) (len : Nat) (r : S2 × Locals)
      (hlen : 4 + authTagLen ≤ len) (hcon : con.isMulticast = true)
      (hparsed : s.parseHeader env con none msg len = (true, r))
      (hmpan : r.2.mpan = some m) (hstate : (r.1.mpanTable m).state = .set) :
      ReceivedAad env ⟨r.1, con.rNode, (r.1.mpanTable m).groupId.toUInt16, msg, r.2.hdrLen, len⟩

inductive SentAad (env : Env) : AadArgs → Prop where
  | encrypt (t s s' : S2) (i : SpanRef) (h : Header) (mpans : S2 × Mem × Nat) (msg : Mem)
      (hspan : t.findSpanByNode env t.peer = (i, s))
      (hheader : (s.log (.encryptAndSend (s.spanTable i).state)).encryptHeader env i = (s', h))
      (hmpans : s'.addMpanExtensions env h.finish h.hdrLen = mpans)
      (hmsg : msg = (if mpans.2.2 = 0 then mpans.2.1
        else mpans.2.1.write 3 [mpans.2.1 3 ||| encapsulationEncryptedExtension])) :
      SentAad env ⟨mpans.1, mpans.1.peer.lNode, mpans.1.peer.rNode,
        msg.write (h.hdrLen + mpans.2.2) (mpans.1.buf.slice 0 mpans.1.length), h.hdrLen,
        mpans.1.length + mpans.2.2 + h.hdrLen + authTagLen⟩
  | encryptMulti (s : S2) (m : MpanRef) (msg : Mem)
      (hmsg : msg = s.workbuf.write 0
        [commandClassSecurity2, security2MessageEncapsulation, 0xFF, encapsulationExtension,
          3, exthdrCriticalFlag ||| exthdrTypeMgrp, (s.mpanTable m).groupId]) :
      SentAad env ⟨s, s.peer.lNode, s.peer.rNode, msg.write 7 (s.buf.slice 0 s.length), 7, s.length + 7 + authTagLen⟩

def AadCall (env : Env) (a : AadArgs) : Prop :=
  SentAad env a ∨ ReceivedAad env a

section Layout

theorem be16_eq (x : Nat) : be16 x = bigEndian 2 x := rfl

theorem be32_eq (x : Nat) : be16 (x / 65536) ++ be16 x = bigEndian 4 x := by
  have hhigh : x / 65536 / 256 = x / 256 / 256 / 256 := by omega
  have hnext : x / 65536 = x / 256 / 256 := by omega
  simp only [be16, hhigh]
  rw [hnext]
  rfl

variable (a : AadArgs)

theorem AadArgs.bytes_eq (h : 2 ≤ a.hdrLen) : a.bytes = if 58 < a.hdrLen then [] else a.fields.flatten := by
  have hsize : 64 < a.hdrLen - 2 + 8 ↔ 58 < a.hdrLen := by omega
  have hbyte : ∀ node : NodeId, [node.toUInt8] = bigEndian 1 node.toNat := fun node => rfl
  unfold AadArgs.bytes makeAad AadArgs.fields
  simp only [hsize, ← be16_eq, ← be32_eq]
  by_cases hlong : LongForm a.sender a.receiver
  · simp only [if_pos hlong, if_pos (show _ ∨ _ from hlong), List.flatten_cons, List.flatten_nil,
      List.append_nil, List.append_assoc]
    rfl
  · simp only [if_neg hlong, if_neg (show ¬(_ ∨ _) from hlong), ← hbyte, List.flatten_cons, List.flatten_nil,
      List.append_nil, List.append_assoc, List.cons_append, List.nil_append]

theorem AadArgs.length_bytes (h : 2 ≤ a.hdrLen) : a.bytes.length =
      if 58 < a.hdrLen then 0
      else if LongForm a.sender a.receiver then a.hdrLen + 8 else a.hdrLen + 6 := by
  rw [a.bytes_eq h]
  by_cases hlarge : 58 < a.hdrLen
  · rw [if_pos hlarge, if_pos hlarge, List.length_nil]
  · rw [if_neg hlarge, if_neg hlarge]
    simp only [AadArgs.fields, bigEndian, List.flatten_cons, List.flatten_nil, List.length_append,
      List.length_nil, List.length_reverse, Endian.length_toBytes, Mem.length_slice]
    split_ifs <;> omega

theorem AadArgs.fits_iff (h : 2 ≤ a.hdrLen) :
    a.Fits ↔ ¬(LongForm a.sender a.receiver ∧ (a.hdrLen = 57 ∨ a.hdrLen = 58)) := by
  have hlength := a.length_bytes h
  constructor
  · rintro ⟨hbound, -⟩ ⟨hlong, hcritical⟩
    rw [hlength, if_neg (by omega), if_pos hlong] at hbound
    unfold aadBufSize at hbound
    omega
  · intro hfits
    refine ⟨?_, a.bytes_eq h⟩
    rw [hlength]
    unfold aadBufSize
    split_ifs with hlarge hlong
    · omega
    · have hcritical : ¬(a.hdrLen = 57 ∨ a.hdrLen = 58) := fun hcritical => hfits ⟨hlong, hcritical⟩
      omega
    · omega

end Layout

section Calls

variable (env : Env)

theorem hdrLen_parseClear (con : Connection) (span : Option SpanRef) (msg : Mem) (len fuel : Nat) (s : S2)
    (locals : Locals) (h : (parseClear env con span msg len fuel s locals).1 = true) :
    locals.hdrLen ≤ (parseClear env con span msg len fuel s locals).2.2.hdrLen ∧
      (parseClear env con span msg len fuel s locals).2.2.hdrLen + authTagLen ≤ len := by
  induction fuel generalizing s locals with
  | zero => simp [parseClear] at h
  | succ fuel ih =>
    rw [parseClear] at h ⊢
    split at h
    · simp at h
    next hroom =>
      rw [if_neg hroom]
      split at h
      · simp at h
      next r hr =>
        simp only
        split at h
        next hmore =>
          have hrest := ih _ _ h
          rw [if_pos hmore]
          simp only at hrest ⊢
          omega
        next hlast =>
          rw [if_neg hlast]
          simp only
          omega

theorem hdrLen_parseHeader {s : S2} {con : Connection} {span : Option SpanRef} {msg : Mem} {len : Nat}
    (h : (s.parseHeader env con span msg len).1 = true) :
    4 ≤ (s.parseHeader env con span msg len).2.2.hdrLen := by
  unfold parseHeader at h ⊢
  split at h
  next hext =>
    rw [if_pos hext]
    exact (hdrLen_parseClear env con span msg len len _ _ h).1
  next hext =>
    rw [if_neg hext]

theorem hdrLen_encryptHeader (s : S2) (i : SpanRef) :
    4 ≤ (s.encryptHeader env i).2.hdrLen ∧ (s.encryptHeader env i).2.hdrLen ≤ 27 := by
  have hlength := (holds_encryptHeader env (s := s) i).hdrLen
  have hle := length_clearExtensions_le env s i
  omega

theorem SentAad.hdrLen_mem {env : Env} {a : AadArgs} (h : SentAad env a) : 4 ≤ a.hdrLen ∧ a.hdrLen ≤ 27 := by
  cases h with
  | encrypt t s s' i h mpans msg hspan hheader hmpans hmsg =>
    have hmem := hdrLen_encryptHeader env (s.log (.encryptAndSend (s.spanTable i).state)) i
    rwa [hheader] at hmem
  | encryptMulti s m msg hmsg =>
    simp only
    omega

theorem ReceivedAad.hdrLen_ge {env : Env} {a : AadArgs} (h : ReceivedAad env a) : 4 ≤ a.hdrLen := by
  cases h with
  | singlecast t s con i msg len r hlen hcon hseq hspan hparsed hstate =>
    have hge := hdrLen_parseHeader env (congrArg Prod.fst hparsed)
    rwa [hparsed] at hge
  | group s con m msg len r hlen hcon hparsed hmpan hstate =>
    have hge := hdrLen_parseHeader env (congrArg Prod.fst hparsed)
    rwa [hparsed] at hge

/-- A call stays within the buffer unless the ids are long and the header has one of the two lengths that the
check lets through. -/
theorem aadCall_fits_iff (a : AadArgs) (h : AadCall env a) :
    a.Fits ↔ ¬(LongForm a.sender a.receiver ∧ (a.hdrLen = 57 ∨ a.hdrLen = 58)) := by
  have hge : 4 ≤ a.hdrLen := by
    rcases h with hsent | hreceived
    · exact hsent.hdrLen_mem.1
    · exact hreceived.hdrLen_ge
  exact a.fits_iff (by omega)

def longRangeStart : S2 :=
  start 0 (init 0).sg 1 <| sampleSpans fun span => { span with lnode := 1, rnode := 256, state := .negotiated }

def longRangeCon : Connection :=
  { zeroConnection with lNode := 1, rNode := 256 }

def longHeader : Bytes :=
  [commandClassSecurity2, security2MessageEncapsulation, 5, encapsulationExtension, 53] ++ List.replicate 60 0

def longRangeParsed : Bool × S2 × Locals :=
  let s := (longRangeStart.verifySeq sampleEnv longRangeCon 5).2
  (s.findSpanByNode sampleEnv longRangeCon).2.parseHeader sampleEnv longRangeCon
    (List.finRange spanTableSize).head? (.ofBytes longHeader) 65

/-- The call of `S2_make_aad` for it. -/
def longArgs : AadArgs where
  s        := longRangeParsed.2.1
  sender   := longRangeCon.rNode
  receiver := longRangeCon.lNode
  msg      := .ofBytes longHeader
  hdrLen   := longRangeParsed.2.2.hdrLen
  msgLen   := 65

theorem hdrLen_longArgs : longArgs.hdrLen = 57 := by
  decide

theorem aadCall_longArgs : AadCall sampleEnv longArgs := by
  have hspan : ((longRangeStart.verifySeq sampleEnv longRangeCon 5).2.findSpanByNode sampleEnv longRangeCon).1 = 0 := by
    decide
  have hparsed : longRangeParsed.1 = true := by decide
  refine .inr (.singlecast longRangeStart _ longRangeCon 0 (.ofBytes longHeader) 65 longRangeParsed.2
    (by decide) (by decide) (by decide) (Prod.ext hspan rfl) (Prod.ext hparsed rfl) (.inl ?_))
  decide

theorem longArgs_fits_iff : AadCall sampleEnv longArgs ∧
      (longArgs.Fits ↔ ¬(LongForm 256 1 ∧ (longArgs.hdrLen = 57 ∨ longArgs.hdrLen = 58))) :=
  ⟨aadCall_longArgs, aadCall_fits_iff sampleEnv longArgs aadCall_longArgs⟩

theorem not_all_aadCalls_fit : ¬∀ (env : Env) (a : AadArgs), AadCall env a → a.Fits := by
  intro hall
  have hbound := (hall sampleEnv longArgs aadCall_longArgs).bound
  rw [longArgs.length_bytes (by rw [hdrLen_longArgs]; omega), hdrLen_longArgs] at hbound
  revert hbound
  decide

end Calls

end ZipGateway.S2

import ZipGateway.S2.Spans

/-!
# The layout of an encapsulation

A frame, as the encoder lays it out: four bytes, the clear extensions, and the ciphertext, whose
plain text is the MPAN extensions and the payload. An extension is its length, its type with the
flags, and what it carries.

The encoder gives the MORE flag to the first clear extension only, and it writes the second MPAN
extension over the first. With at most two clear extensions and one MPAN extension that is a chain
as the decoder wants it.
-/

namespace ZipGateway.S2

/-! ## Extensions -/

namespace Extension

def type : Extension → UInt8
  | .sn _ => exthdrCriticalFlag ||| exthdrTypeSn
  | .mgrp _ => exthdrCriticalFlag ||| exthdrTypeMgrp
  | .mos => exthdrTypeMos
  | .mpan .. => exthdrTypeMpan ||| exthdrCriticalFlag

def body : Extension → Bytes
  | .sn entropy => entropy.toList
  | .mgrp groupId => [groupId]
  | .mos => []
  | .mpan groupId innerState => groupId :: innerState.toList

def size : Extension → UInt8
  | .sn _ => 18
  | .mgrp _ => 3
  | .mos => 2
  | .mpan .. => 19

def encode (more : Bool) (e : Extension) : Bytes :=
  [size e, if more then type e ||| exthdrMoreFlag else type e] ++ body e

@[simp]
theorem length_encode (more : Bool) (e : Extension) : (encode more e).length = (size e).toNat := by
  cases e <;> simp [encode, body, size]

def encodeLast (es : List Extension) : Bytes :=
  (es.map (encode false)).flatten

def encodeClear : List Extension → Bytes
  | [] => []
  | e :: es => encode (es != []) e ++ encodeLast es

theorem length_encodeClear (es : List Extension) : (encodeClear es).length = (encodeLast es).length := by
  cases es <;> simp [encodeClear, encodeLast]

end Extension

/-! ## What encryption leaves alone -/

structure Config where
  peer : Connection
  buf : Mem
  length : Nat
  sg : UInt8 → SecGroup
  myHomeId : UInt32
  loadedKeys : UInt8
  fsm : FsmState

def config (s : S2) : Config where
  peer := s.peer
  buf := s.buf
  length := s.length
  sg := s.sg
  myHomeId := s.myHomeId
  loadedKeys := s.loadedKeys
  fsm := s.fsm

def attached (s : S2) : List Extension :=
  s.out.filterMap fun
    | .attach e => some e
    | _ => none

def Out.transmitted : Out → Option (Connection × Bytes)
  | .sendFrame con frame true | .inclusionSendFrame _ con frame true | .sendFrameNoCb con frame =>
    some (con, frame)
  | _ => none

def transmitted (s : S2) : List (Connection × Bytes) :=
  s.out.filterMap Out.transmitted

section Frame

variable (env : Env) (s : S2)

theorem config_findSpanByNode (con : Connection) : (s.findSpanByNode env con).2.config = s.config := by
  unfold findSpanByNode
  split <;> rfl

theorem config_addSn (i : SpanRef) (h : Header) : (s.addSn env i h).1.config = s.config := by
  unfold addSn
  split <;> rfl

theorem config_addMgrp (h : Header) : (s.addMgrp h).1.config = s.config := by
  unfold addMgrp
  split
  · dsimp only
    repeat' split
    all_goals rfl
  · rfl

theorem config_addMos (h : Header) : (s.addMos h).1.config = s.config := by
  unfold addMos
  repeat' split
  all_goals rfl

theorem config_encryptHeader (i : SpanRef) : (s.encryptHeader env i).1.config = s.config := by
  simp only [encryptHeader]
  rw [config_addMos, config_addMgrp, config_addSn]

theorem spanTable_addMgrp (h : Header) : (s.addMgrp h).1.spanTable = s.spanTable := by
  unfold addMgrp
  split
  · dsimp only
    repeat' split
    all_goals rfl
  · rfl

theorem spanTable_addMos (h : Header) : (s.addMos h).1.spanTable = s.spanTable := by
  unfold addMos
  repeat' split
  all_goals rfl

end Frame

/-! ## The clear extensions -/

def snExtensions (env : Env) (s : S2) (i : SpanRef) : List Extension :=
  if (s.spanTable i).state = .sosRemoteNonce then [.sn (env.random s.nRandom)] else []

def mgrpExtensions (s : S2) : List Extension :=
  match s.mpan with
  | some m =>
    if isFollowup s.peer.txOptions ∧ ¬s.isNodeMos s.peer.rNode then
      [.mgrp (s.mpanTable m).groupId]
    else []
  | none => []

def mosExtensions (s : S2) : List Extension :=
  match s.mpan with
  | some m => if (s.mpanTable m).state = .mos then [.mos] else []
  | none => []

def clearExtensions (env : Env) (s : S2) (i : SpanRef) : List Extension :=
  s.snExtensions env i ++ s.mgrpExtensions ++ s.mosExtensions

/-- The header holds the four leading bytes and the extensions so far; what follows them is still
what the buffer held before. -/
structure Header.Holds (h : Header) (before : Mem) (lead : Bytes) (es : List Extension) : Prop where
  hdrLen : h.hdrLen = 4 + (Extension.encodeLast es).length
  msg : h.msg.slice 0 h.hdrLen = lead ++ Extension.encodeLast es
  nExt : h.nExt = es.length
  rest : ∀ x, h.hdrLen ≤ x → h.msg x = before x

theorem Header.Holds.add {h : Header} {before : Mem} {lead : Bytes} {es : List Extension}
    (hh : h.Holds before lead es) (e : Extension) :
    (h.add (Extension.encode false e)).Holds before lead (es ++ [e]) := by
  have hlast : Extension.encodeLast (es ++ [e]) = Extension.encodeLast es ++ Extension.encode false e := by
    simp [Extension.encodeLast]
  refine ⟨?_, ?_, ?_, fun x hx => ?_⟩
  · rw [hlast, List.length_append]
    simp only [Header.add, hh.hdrLen]
    omega
  · rw [hlast, ← List.append_assoc, ← hh.msg]
    have happend := Mem.slice_write_append h.msg 0 h.hdrLen (Extension.encode false e)
    rw [Nat.zero_add] at happend
    exact happend
  · simp [Header.add, hh.nExt]
  · simp only [Header.add] at hx ⊢
    rw [Mem.write_of_le hx]
    exact hh.rest x (by omega)

section Header

variable (env : Env) {s : S2} {h : Header} {before : Mem} {lead : Bytes} {es : List Extension}

theorem holds_addSn (i : SpanRef) (hh : h.Holds before lead es) :
    (s.addSn env i h).2.Holds before lead (es ++ s.snExtensions env i) := by
  unfold addSn snExtensions
  split
  · exact hh.add (.sn (env.random s.nRandom))
  · simpa using hh

theorem holds_addMgrp (hh : h.Holds before lead es) : (s.addMgrp h).2.Holds before lead (es ++ s.mgrpExtensions) := by
  have hsame : h.Holds before lead (es ++ []) := by simpa using hh
  cases hm : s.mpan with
  | none => simpa only [addMgrp, mgrpExtensions, hm] using hsame
  | some m =>
    have hadd := hh.add (.mgrp (s.mpanTable m).groupId)
    simp only [addMgrp, mgrpExtensions, hm]
    by_cases hfollow : isFollowup s.peer.txOptions = true
    · by_cases hmos : s.isNodeMos s.peer.rNode = true
      · simp only [hfollow, hmos, if_true, not_true_eq_false, and_false, if_false]
        split <;> exact hsame
      · simp only [hfollow, hmos, if_true, Bool.false_eq_true, not_false_eq_true, and_self, if_false]
        split <;> exact hadd
    · simpa only [hfollow, Bool.false_eq_true, if_false, false_and] using hsame

theorem holds_addMos (hh : h.Holds before lead es) : (s.addMos h).2.Holds before lead (es ++ s.mosExtensions) := by
  have hsame : h.Holds before lead (es ++ []) := by simpa using hh
  cases hm : s.mpan with
  | none => simpa only [addMos, mosExtensions, hm] using hsame
  | some m =>
    simp only [addMos, mosExtensions, hm]
    split
    · exact hh.add .mos
    · exact hsame

/-! The extensions are attached in the order in which they stand. -/

theorem attached_addSn (i : SpanRef) : (s.addSn env i h).1.attached = (s.snExtensions env i).reverse ++ s.attached := by
  unfold addSn snExtensions
  split <;> rfl

theorem attached_addMgrp : (s.addMgrp h).1.attached = s.mgrpExtensions.reverse ++ s.attached := by
  cases hm : s.mpan with
  | none =>
    simp only [addMgrp, mgrpExtensions, hm]
    rfl
  | some m =>
    simp only [addMgrp, mgrpExtensions, hm]
    by_cases hfollow : isFollowup s.peer.txOptions = true
    · by_cases hmos : s.isNodeMos s.peer.rNode = true
      · simp only [hfollow, hmos, if_true, not_true_eq_false, and_false, if_false]
        split <;> rfl
      · simp only [hfollow, hmos, if_true, Bool.false_eq_true, not_false_eq_true, and_self, if_false]
        split <;> rfl
    · simp only [hfollow, Bool.false_eq_true, if_false, false_and]
      rfl

theorem attached_addMos : (s.addMos h).1.attached = s.mosExtensions.reverse ++ s.attached := by
  cases hm : s.mpan with
  | none =>
    simp only [addMos, mosExtensions, hm]
    rfl
  | some m =>
    simp only [addMos, mosExtensions, hm]
    split <;> rfl

/-! The extensions a step decides on are not changed by the steps before it. -/

theorem mgrpExtensions_addSn (i : SpanRef) : (s.addSn env i h).1.mgrpExtensions = s.mgrpExtensions := by
  unfold addSn
  split <;> rfl

theorem mosExtensions_addSn (i : SpanRef) : (s.addSn env i h).1.mosExtensions = s.mosExtensions := by
  unfold addSn
  split <;> rfl

theorem mosExtensions_setMpan {m : MpanRef} (hm : s.mpan = some m) :
    (s.setMpan m (nextMpanState (s.mpanTable m))).mosExtensions = s.mosExtensions := by
  simp only [mosExtensions, hm, setMpan, Function.update_self]
  rfl

theorem mosExtensions_addMgrp : (s.addMgrp h).1.mosExtensions = s.mosExtensions := by
  cases hm : s.mpan with
  | none => simp only [addMgrp, hm]
  | some m =>
    simp only [addMgrp, hm]
    by_cases hfollow : isFollowup s.peer.txOptions = true
    · by_cases hmos : s.isNodeMos s.peer.rNode = true
      · simp only [hfollow, hmos, if_true]
        split
        · exact mosExtensions_setMpan hm
        · rfl
      · simp only [hfollow, hmos, if_true, Bool.false_eq_true, if_false]
        split
        · exact (mosExtensions_setMpan (s := s.log _) hm).trans rfl
        · rfl
    · simp only [hfollow, Bool.false_eq_true, if_false]

theorem holds_encryptHeader (i : SpanRef) : (s.encryptHeader env i).2.Holds s.workbuf
      [commandClassSecurity2, security2MessageEncapsulation, (s.spanTable i).txSeq, 0]
      (s.clearExtensions env i) := by
  let h₀ : Header :=
    { msg := s.workbuf.write 0
        [commandClassSecurity2, security2MessageEncapsulation, (s.spanTable i).txSeq, 0],
      hdrLen := 4, nExt := 0 }
  have hstart : h₀.Holds s.workbuf
      [commandClassSecurity2, security2MessageEncapsulation, (s.spanTable i).txSeq, 0] [] :=
    ⟨rfl, (Mem.slice_write_self s.workbuf 0 _).trans (List.append_nil _).symm, rfl, fun x hx => Mem.write_of_le hx⟩
  have hsn := holds_addSn env (s := s) i hstart
  have hmgrp := holds_addMgrp (s := (s.addSn env i h₀).1) hsn
  have hmos := holds_addMos (s := ((s.addSn env i h₀).1.addMgrp (s.addSn env i h₀).2).1) hmgrp
  rw [mosExtensions_addMgrp, mosExtensions_addSn, mgrpExtensions_addSn] at hmos
  exact hmos

theorem attached_encryptHeader (i : SpanRef) :
    (s.encryptHeader env i).1.attached = (s.clearExtensions env i).reverse ++ s.attached := by
  simp only [encryptHeader, clearExtensions]
  rw [attached_addMos, attached_addMgrp, attached_addSn, mosExtensions_addMgrp,
    mosExtensions_addSn, mgrpExtensions_addSn]
  simp

/-! ## The flags of the header -/

def leadBytes (seq : UInt8) (clear encrypted : Bool) : Bytes :=
  [commandClassSecurity2, security2MessageEncapsulation, seq, (if clear then encapsulationExtension else 0) |||
      if encrypted then encapsulationEncryptedExtension else 0]

theorem insertMoreFlag_of_pos (n : Nat) (msg : Mem) (hn : 0 < n) (k : Nat) :
    (insertMoreFlag n msg).slice 0 k = (msg.slice 0 k).set 5 (msg 5 ||| exthdrMoreFlag) := by
  induction n generalizing msg with
  | zero => omega
  | succ n ih =>
    have hbyte : (msg.write 5 [msg 5 ||| exthdrMoreFlag]) 5 = msg 5 ||| exthdrMoreFlag := by
      rw [Mem.write_of_mem (Nat.le_refl _) (by simp)]
      rfl
    rcases Nat.eq_zero_or_pos n with rfl | hpos
    · exact Mem.slice_zero_write_byte msg k 5 _
    · have hidem : (msg 5 ||| exthdrMoreFlag) ||| exthdrMoreFlag = msg 5 ||| exthdrMoreFlag := by
        rw [UInt8.or_assoc]
        rfl
      simp only [insertMoreFlag]
      rw [ih _ hpos, hbyte, hidem, Mem.slice_zero_write_byte, List.set_set]

theorem slice_finish {seq : UInt8}
    (hh : h.Holds before [commandClassSecurity2, security2MessageEncapsulation, seq, 0] es) :
    h.finish.slice 0 h.hdrLen = leadBytes seq (es != []) false ++ Extension.encodeClear es := by
  unfold Header.finish
  cases es with
  | nil =>
    rw [if_pos (show h.nExt = 0 from hh.nExt), hh.msg]
    rfl
  | cons e es =>
    have hne : h.nExt ≠ 0 := by simp [hh.nExt]
    have hmsg : h.msg.slice 0 h.hdrLen = [commandClassSecurity2, security2MessageEncapsulation, seq, 0,
          Extension.size e, Extension.type e] ++ (Extension.body e ++ Extension.encodeLast es) := by
      rw [hh.msg]
      simp [Extension.encodeLast, Extension.encode]
    have hthree : h.msg 3 = 0 := Mem.eq_of_slice_zero hmsg rfl
    have hflag : (h.msg.write 3 [h.msg 3 ||| encapsulationExtension]).slice 0 h.hdrLen =
        [commandClassSecurity2, security2MessageEncapsulation, seq, encapsulationExtension,
          Extension.size e, Extension.type e] ++ (Extension.body e ++ Extension.encodeLast es) := by
      rw [Mem.slice_zero_write_byte, hmsg, hthree]
      rfl
    rw [if_neg hne, hh.nExt]
    cases es with
    | nil =>
      rw [show (e :: []).length - 1 = 0 from rfl, insertMoreFlag, hflag]
      simp [leadBytes, Extension.encodeClear, Extension.encode, Extension.encodeLast]
    | cons e' es =>
      have hfive' : (h.msg.write 3 [h.msg 3 ||| encapsulationExtension]) 5 =
          Extension.type e := Mem.eq_of_slice_zero hflag rfl
      rw [insertMoreFlag_of_pos _ _ (by simp), hflag, hfive']
      simp [leadBytes, Extension.encodeClear, Extension.encode]

theorem insertMoreFlag_of_lt (n : Nat) (msg : Mem) {x : Nat} (hx : 5 < x) : insertMoreFlag n msg x = msg x := by
  induction n generalizing msg with
  | zero => rfl
  | succ n ih =>
    simp only [insertMoreFlag]
    rw [ih, Mem.write_of_le hx]

theorem finish_of_le (hh : h.Holds before lead es) {x : Nat} (hx : h.hdrLen ≤ x) : h.finish x = before x := by
  have hlen := hh.hdrLen
  unfold Header.finish
  by_cases hnone : h.nExt = 0
  · rw [if_pos hnone]
    exact hh.rest x hx
  · have hpos : 2 ≤ (Extension.encodeLast es).length := by
      obtain ⟨e, es', rfl⟩ := List.exists_cons_of_length_pos (show 0 < es.length by have := hh.nExt; omega)
      simp [Extension.encodeLast, Extension.encode]
    rw [if_neg hnone, insertMoreFlag_of_lt _ _ (by omega), Mem.write_of_le (by simp; omega)]
    exact hh.rest x hx

end Header

/-! ## The MPAN extensions -/

def lookupMpan (s : S2) (ownerId : NodeId) (groupId : UInt8) : Option MpanRef :=
  (List.finRange mpanTableSize).find? fun i => s.mpanMatches ownerId groupId (s.mpanTable i)

theorem findMpanByGroupId_false (env : Env) (s : S2) (ownerId : NodeId) (groupId : UInt8) :
    s.findMpanByGroupId env ownerId groupId false = (s.lookupMpan ownerId groupId, s) := by
  unfold findMpanByGroupId lookupMpan
  split
  · rename_i i hi
    rw [hi]
  · rename_i hnone
    rw [hnone]
    rfl

def mpanOf (s : S2) (i : Fin mosListLength) : Option (UInt8 × Block) :=
  if (s.mosList i).nodeId = s.peer.rNode then
    (s.lookupMpan 0 (s.mosList i).groupId).map fun m =>
      ((s.mosList i).groupId, (s.mpanTable m).innerState)
  else
    none

def mpansOf (s : S2) : List (UInt8 × Block) :=
  (List.finRange mosListLength).filterMap s.mpanOf

def mpanType : UInt8 :=
  exthdrTypeMpan ||| exthdrMoreFlag ||| exthdrCriticalFlag

def mpanStores : List (UInt8 × Block) → Bytes
  | [] => []
  | [mpan] => [19, mpanType, mpan.1] ++ mpan.2.toList
  | mpan :: rest => [19, mpanType, mpan.1] ++ mpanStores rest

/-- The bytes encrypted as MPAN extensions; behind the stores is what `stale` the buffer held. -/
def mpanArea (mpans : List (UInt8 × Block)) (stale : Bytes) : Bytes :=
  if mpans = [] then []
  else
    let last := (mpans.length - 1) * 19 + 1
    let bytes := mpanStores mpans ++ stale
    bytes.set last (bytes.getD last 0 &&& ~~~exthdrMoreFlag)

def writeMpans : Mem → Nat → List (UInt8 × Block) → Mem
  | msg, _, [] => msg
  | msg, p, (groupId, innerState) :: rest =>
    writeMpans ((msg.write p [19, mpanType, groupId]).write (p + 3) innerState.toList) (p + 3) rest

structure MpansAdded (draft result : MpanDraft) (mpans : List (UInt8 × Block)) : Prop where
  k : result.k = draft.k + mpans.length
  msg : result.msg = writeMpans draft.msg draft.p mpans
  attached : result.s.attached = (mpans.map fun mpan => Extension.mpan mpan.1 mpan.2).reverse ++ draft.s.attached
  config : result.s.config = draft.s.config
  spanTable : result.s.spanTable = draft.s.spanTable

theorem addMpanExtension_eq (env : Env) (draft : MpanDraft) (i : Fin mosListLength) :
    match draft.s.mpanOf i with
    | none => addMpanExtension env draft i = draft
    | some mpan =>
      addMpanExtension env draft i =
        { s := { draft.s with
            mosList := Function.update draft.s.mosList i { draft.s.mosList i with nodeId := 0 } }.log
              (.attach (.mpan mpan.1 mpan.2))
          msg := (draft.msg.write draft.p [19, mpanType, mpan.1]).write (draft.p + 3) mpan.2.toList
          p := draft.p + 3
          k := draft.k + 1 } := by
  simp only [mpanOf, addMpanExtension, findMpanByGroupId_false]
  by_cases hnode : (draft.s.mosList i).nodeId = draft.s.peer.rNode
  · simp only [hnode, if_true]
    cases hfind : draft.s.lookupMpan 0 (draft.s.mosList i).groupId with
    | none => rfl
    | some m => rfl
  · simp only [hnode, if_false]

theorem mpansAdded_foldl (env : Env) (entries : List (Fin mosListLength)) (hnodup : entries.Nodup) (draft : MpanDraft) :
    MpansAdded draft (entries.foldl (addMpanExtension env) draft) (entries.filterMap draft.s.mpanOf) := by
  induction entries generalizing draft with
  | nil => exact ⟨rfl, rfl, rfl, rfl, rfl⟩
  | cons i entries ih =>
    obtain ⟨hnotin, hrest⟩ := List.nodup_cons.mp hnodup
    have hstep := addMpanExtension_eq env draft i
    rw [List.foldl_cons]
    cases hof : draft.s.mpanOf i with
    | none =>
      rw [hof] at hstep
      rw [hstep, List.filterMap_cons_none hof]
      exact ih hrest draft
    | some mpan =>
      rw [hof] at hstep
      have htail := ih hrest (addMpanExtension env draft i)
      have hsame : entries.filterMap (addMpanExtension env draft i).s.mpanOf = entries.filterMap draft.s.mpanOf := by
        refine List.filterMap_congr fun j hj => ?_
        have hne : j ≠ i := fun h => hnotin (h ▸ hj)
        rw [hstep]
        simp only [mpanOf, log, Function.update_of_ne hne]
        rfl
      rw [hsame] at htail
      rw [List.filterMap_cons_some hof]
      rw [hstep] at htail ⊢
      refine ⟨?_, htail.msg, ?_, htail.config, htail.spanTable⟩
      · rw [htail.k, List.length_cons]
        dsimp only
        omega
      · rw [htail.attached, List.map_cons, List.reverse_cons, List.append_assoc]
        rfl

theorem length_mpanStores {mpans : List (UInt8 × Block)} (hne : mpans ≠ []) :
    (mpanStores mpans).length = 3 * mpans.length + 16 := by
  induction mpans with
  | nil => exact absurd rfl hne
  | cons mpan rest ih =>
    cases rest with
    | nil => simp [mpanStores]
    | cons mpan' rest =>
      have htail := ih (by simp)
      simp only [mpanStores, List.length_append, List.length_cons, List.length_nil] at htail ⊢
      omega

theorem writeMpans_of_lt (mpans : List (UInt8 × Block)) (msg : Mem) (p : Nat) {x : Nat}
    (hx : x < p) : writeMpans msg p mpans x = msg x := by
  induction mpans generalizing msg p with
  | nil => rfl
  | cons mpan rest ih =>
    simp only [writeMpans]
    rw [ih _ _ (by omega), Mem.write_of_lt _ (by omega), Mem.write_of_lt _ hx]

theorem writeMpans_of_le (mpans : List (UInt8 × Block)) (msg : Mem) (p : Nat) {x : Nat}
    (hx : p + 3 * mpans.length + 16 ≤ x) : writeMpans msg p mpans x = msg x := by
  induction mpans generalizing msg p with
  | nil => rfl
  | cons mpan rest ih =>
    simp only [List.length_cons] at hx
    simp only [writeMpans]
    rw [ih _ _ (by omega), Mem.write_of_le (by simp; omega), Mem.write_of_le (by simp; omega)]

theorem slice_writeMpans {mpans : List (UInt8 × Block)} (hne : mpans ≠ []) (msg : Mem) (p : Nat) :
    (writeMpans msg p mpans).slice p (3 * mpans.length + 16) = mpanStores mpans := by
  induction mpans generalizing msg p with
  | nil => exact absurd rfl hne
  | cons mpan rest ih =>
    have hhead : ∀ m : Mem, (m.write p [19, mpanType, mpan.1]).slice p 3 =
        [19, mpanType, mpan.1] := fun m => Mem.slice_write_self m p _
    have hsize : 3 * (mpan :: rest).length + 16 = 3 + (3 * rest.length + 16) := by
      simp only [List.length_cons]
      omega
    rw [hsize, Mem.slice_add]
    cases rest with
    | nil =>
      have hinner := Mem.slice_write_self (msg.write p [19, mpanType, mpan.1]) (p + 3) mpan.2.toList
      rw [Vector.length_toList] at hinner
      simp only [writeMpans, mpanStores, List.length_nil, Nat.mul_zero, Nat.zero_add]
      rw [Mem.slice_write_of_disjoint (.inl (Nat.le_refl _)), hhead, hinner]
    | cons mpan' rest =>
      have htail := ih (by simp) ((msg.write p [19, mpanType, mpan.1]).write (p + 3) mpan.2.toList) (p + 3)
      have hfront : (writeMpans msg p (mpan :: mpan' :: rest)).slice p 3 = [19, mpanType, mpan.1] := by
        rw [← hhead msg]
        refine Mem.slice_congr fun x hle hlt => ?_
        rw [writeMpans, writeMpans_of_lt _ _ _ hlt, Mem.write_of_lt _ hlt]
      rw [hfront, mpanStores, ← htail, writeMpans]
      simp

theorem slice_add_stale {mpans : List (UInt8 × Block)} (hne : mpans ≠ []) (msg : Mem) (p : Nat) :
    (writeMpans msg p mpans).slice p (mpans.length * 19) =
      mpanStores mpans ++ msg.slice (p + (3 * mpans.length + 16)) (16 * (mpans.length - 1)) := by
  have hpos := List.length_pos_iff.mpr hne
  have hsize : mpans.length * 19 = 3 * mpans.length + 16 + 16 * (mpans.length - 1) := by omega
  rw [hsize, Mem.slice_add, slice_writeMpans hne]
  congr 1
  exact Mem.slice_congr fun x hle _ => writeMpans_of_le mpans msg p (by omega)

structure MpanExtensionsAdded (s : S2) (msg : Mem) (ext : Nat) (r : S2 × Mem × Nat) : Prop where
  length : r.2.2 = s.mpansOf.length * 19
  before : ∀ x, x < ext → r.2.1 x = msg x
  area : r.2.1.slice ext (s.mpansOf.length * 19) = mpanArea s.mpansOf
    (msg.slice (ext + (3 * s.mpansOf.length + 16)) (16 * (s.mpansOf.length - 1)))
  attached : r.1.attached = (s.mpansOf.map fun mpan => Extension.mpan mpan.1 mpan.2).reverse ++ s.attached
  config : r.1.config = s.config
  spanTable : r.1.spanTable = s.spanTable

theorem mpanExtensionsAdded (env : Env) (s : S2) (msg : Mem) (ext : Nat) :
    MpanExtensionsAdded s msg ext (s.addMpanExtensions env msg ext) := by
  have hloop := mpansAdded_foldl env (List.finRange mosListLength) (List.nodup_finRange _)
    { s := s, msg := msg, p := ext, k := 0 }
  have hk := hloop.k
  have hmsg := hloop.msg
  rw [Nat.zero_add] at hk
  refine ⟨?_, fun x hx => ?_, ?_, hloop.attached, hloop.config, hloop.spanTable⟩
  · simp only [addMpanExtensions]
    rw [hk]
    rfl
  · simp only [addMpanExtensions]
    split
    · rw [hmsg]
      exact writeMpans_of_lt _ _ _ hx
    · rw [Mem.write_of_lt _ (by omega), hmsg]
      exact writeMpans_of_lt _ _ _ hx
  · simp only [addMpanExtensions]
    rw [hk, hmsg]
    change (if s.mpansOf.length = 0 then _ else _ : Mem).slice ext _ = _
    by_cases hnone : s.mpansOf = []
    · simp [hnone, mpanArea]
    · have hpos := List.length_pos_iff.mpr hnone
      have hstale := slice_add_stale hnone msg ext
      rw [if_neg (by omega), mpanArea, if_neg hnone, ← hstale, Nat.add_assoc, Mem.slice_write_byte]
      congr 1
      rw [List.getD_eq_getElem?_getD, Mem.getElem?_slice (by omega)]
      rfl

/-! ## The frame -/

def aadOf (home : UInt32) (sender receiver : NodeId) (header : Bytes) (msgLen : Nat) : Bytes :=
  if 64 < header.length - 2 + 8 then
    []
  else
    let ids :=
      if lowestLongRangeNodeId ≤ sender ∨ lowestLongRangeNodeId ≤ receiver then
        be16 sender.toNat ++ be16 receiver.toNat
      else
        [sender.toUInt8, receiver.toUInt8]
    ids ++ be16 (home.toNat / 65536) ++ be16 home.toNat ++ be16 msgLen ++ header.drop 2

theorem makeAad_of_slice {s : S2} {msg : Mem} {hdrLen : Nat} {header : Bytes}
    (h : msg.slice 0 hdrLen = header) (hlen : 2 ≤ hdrLen) (sender receiver : NodeId)
    (msgLen : Nat) :
    s.makeAad sender receiver msg hdrLen msgLen = aadOf s.myHomeId sender receiver header msgLen := by
  have hsize : header.length = hdrLen := by rw [← h, Mem.length_slice]
  have hdrop : header.drop 2 = msg.slice 2 (hdrLen - 2) := by
    rw [← h]
    conv_lhs => rw [← Nat.add_sub_of_le hlen]
    rw [Mem.drop_slice, Nat.zero_add]
  unfold makeAad aadOf
  rw [hdrop, hsize]

def spanUsed (env : Env) (s : S2) (i : SpanRef) : Span :=
  if (s.spanTable i).state = .sosRemoteNonce then
    { s.spanTable i with
      d := env.nextNonceInstantiate (env.random s.nRandom) (s.spanTable i).d.rNonce (s.sg s.peer.classId).nonceKey
      classId := s.peer.classId
      state := .negotiated }
  else
    s.spanTable i

theorem spanTable_addSn (env : Env) (s : S2) (i : SpanRef) (h : Header) :
    (s.addSn env i h).1.spanTable = Function.update s.spanTable i (s.spanUsed env i) := by
  unfold addSn spanUsed
  split
  · rfl
  · exact (Function.update_eq_self i s.spanTable).symm

theorem spanTable_encryptHeader (env : Env) (s : S2) (i : SpanRef) :
    (s.encryptHeader env i).1.spanTable = Function.update s.spanTable i (s.spanUsed env i) := by
  simp only [encryptHeader]
  rw [spanTable_addMos, spanTable_addMgrp, spanTable_addSn]

def headed (env : Env) (s : S2) (i : SpanRef) : S2 :=
  ((s.log (.encryptAndSend (s.spanTable i).state)).encryptHeader env i).1

def mpanExtensions (env : Env) (s : S2) (i : SpanRef) : List (UInt8 × Block) :=
  (s.headed env i).mpansOf

def extensions (env : Env) (s : S2) (i : SpanRef) : List Extension :=
  s.clearExtensions env i ++ (s.mpanExtensions env i).map fun mpan => .mpan mpan.1 mpan.2

def stale (env : Env) (s : S2) (i : SpanRef) : Bytes :=
  let hdrLen := 4 + (Extension.encodeLast (s.clearExtensions env i)).length
  let k := (s.mpanExtensions env i).length
  s.workbuf.slice (hdrLen + (3 * k + 16)) (16 * (k - 1))

/-- A frame in the making: the clear header, and what the cipher is called with. -/
structure Draft where
  header : Bytes
  key : Block
  nonce : Block
  aad : Bytes
  plain : Bytes
deriving DecidableEq

def draft (env : Env) (s : S2) (i : SpanRef) : Draft :=
  let clear := s.clearExtensions env i
  let mpans := s.mpanExtensions env i
  let header := leadBytes (s.spanTable i).txSeq (clear != []) (mpans != []) ++ Extension.encodeClear clear
  let plain := mpanArea mpans (s.stale env i) ++ s.buf.slice 0 s.length
  { header := header
    key := (s.sg s.peer.classId).encKey
    nonce := (env.nextNonceGenerate (s.spanUsed env i).d).1
    aad := aadOf s.myHomeId s.peer.lNode s.peer.rNode header (plain.length + header.length + authTagLen)
    plain := plain }

def Draft.ciphertext (env : Env) (d : Draft) : Bytes :=
  env.ccmEncryptAndAuth d.key d.nonce d.aad d.plain

structure Encrypted (env : Env) (s : S2) (i : SpanRef) (r : Bytes × S2) : Prop where
  frame : r.1 = (s.draft env i).header ++ (s.draft env i).ciphertext env
  attached : r.2.attached = (s.extensions env i).reverse ++ s.attached
  config : r.2.config = s.config
  spanTable : r.2.spanTable = Function.update s.spanTable i
    { s.spanUsed env i with d := (env.nextNonceGenerate (s.spanUsed env i).d).2 }

theorem leadBytes_set_three (seq : UInt8) (clear : Bool) (rest : Bytes) (b : UInt8)
    (hb : (leadBytes seq clear false ++ rest)[3]? = some b) :
    (leadBytes seq clear false ++ rest).set 3 (b ||| encapsulationEncryptedExtension) =
      leadBytes seq clear true ++ rest := by
  cases clear <;> cases hb <;> rfl

theorem slice_flagged {msg : Mem} {hdrLen : Nat} (shdrLen : Nat) {seq : UInt8} {clear : Bool}
    {rest : Bytes} (h : msg.slice 0 hdrLen = leadBytes seq clear false ++ rest) :
    (if shdrLen = 0 then msg
      else msg.write 3 [msg 3 ||| encapsulationEncryptedExtension]).slice 0 hdrLen =
      leadBytes seq clear (shdrLen != 0) ++ rest := by
  by_cases hnone : shdrLen = 0
  · simpa [hnone] using h
  · have hthree : (leadBytes seq clear false ++ rest)[3]? = some (msg 3) := by
      rw [← h, Mem.getElem?_slice, Nat.zero_add]
      have hlen := congrArg List.length h
      simp [leadBytes] at hlen
      omega
    rw [if_neg hnone, Mem.slice_zero_write_byte, h, leadBytes_set_three _ _ _ _ hthree]
    rw [show (shdrLen != 0) = true by simpa using hnone]

theorem slice_payload {msg : Mem} {hdrLen shdrLen : Nat} {header area : Bytes} (payload : Bytes)
    (hheader : msg.slice 0 hdrLen = header) (harea : msg.slice hdrLen shdrLen = area) :
    (msg.write (hdrLen + shdrLen) payload).slice 0 hdrLen = header ∧
      (msg.write (hdrLen + shdrLen) payload).slice hdrLen (payload.length + shdrLen) = area ++ payload := by
  refine ⟨?_, ?_⟩
  · rw [Mem.slice_write_of_disjoint (.inl (by omega)), hheader]
  · rw [Nat.add_comm payload.length, Mem.slice_write_append, harea]

theorem encrypted (env : Env) {s : S2} {i : SpanRef} (hslot : slot s.spanTable s.peer = some i) :
    Encrypted env s i (s.encrypt env) := by
  have hfind := findSpanByNode_of_slot env s s.peer hslot
  have hholds := holds_encryptHeader env (s := s.log (.encryptAndSend (s.spanTable i).state)) i
  have hconfig := config_encryptHeader env (s.log (.encryptAndSend (s.spanTable i).state)) i
  have htable := spanTable_encryptHeader env (s.log (.encryptAndSend (s.spanTable i).state)) i
  have hattached := attached_encryptHeader env (s := s.log (.encryptAndSend (s.spanTable i).state)) i
  have hmpans : ((s.log (.encryptAndSend (s.spanTable i).state)).encryptHeader env i).1.mpansOf =
      s.mpanExtensions env i := rfl
  simp only [encrypt, hfind]
  generalize (s.log (.encryptAndSend (s.spanTable i).state)).encryptHeader env i = r at *
  have hadded := mpanExtensionsAdded env r.1 r.2.finish r.2.hdrLen
  have hclear : r.2.finish.slice 0 r.2.hdrLen = leadBytes (s.spanTable i).txSeq (s.clearExtensions env i != []) false ++
        Extension.encodeClear (s.clearExtensions env i) := slice_finish hholds
  have hstale := Mem.slice_congr (n := 16 * ((s.mpanExtensions env i).length - 1))
    fun x hx _ => finish_of_le hholds (show r.2.hdrLen ≤ x from
      Nat.le_trans (Nat.le_add_right _ (3 * (s.mpanExtensions env i).length + 16)) hx)
  have hhdrLen : r.2.hdrLen = 4 + (Extension.encodeLast (s.clearExtensions env i)).length :=
    hholds.hdrLen
  generalize r.1.addMpanExtensions env r.2.finish r.2.hdrLen = mp at *
  have hconfig' : mp.1.config = s.config := hadded.config.trans hconfig
  have hpeer : mp.1.peer = s.peer := congrArg Config.peer hconfig'
  have hsg : mp.1.sg = s.sg := congrArg Config.sg hconfig'
  have hhome : mp.1.myHomeId = s.myHomeId := congrArg Config.myHomeId hconfig'
  have hbuf : mp.1.buf.slice 0 mp.1.length = s.buf.slice 0 s.length :=
    congrArg (fun config : Config => config.buf.slice 0 config.length) hconfig'
  have hlength := hadded.length
  have harea := hadded.area
  rw [hmpans, hstale] at harea
  rw [hmpans] at hlength
  have hheader : mp.2.1.slice 0 r.2.hdrLen = leadBytes (s.spanTable i).txSeq (s.clearExtensions env i != []) false ++
        Extension.encodeClear (s.clearExtensions env i) := by
    rw [← hclear]
    exact Mem.slice_congr fun x _ hx => hadded.before x (by omega)
  have hflags := slice_flagged mp.2.2 hheader
  have hnone : (mp.2.2 != 0) = (s.mpanExtensions env i != []) := by
    rw [Bool.eq_iff_iff, bne_iff_ne, bne_iff_ne, hlength, ne_eq, ne_eq, ← List.length_eq_zero_iff]
    omega
  have harea' : (if mp.2.2 = 0 then mp.2.1
      else mp.2.1.write 3 [mp.2.1 3 ||| encapsulationEncryptedExtension]).slice r.2.hdrLen mp.2.2 =
      mpanArea (s.mpanExtensions env i) (s.stale env i) := by
    rw [hlength, hhdrLen] at *
    split
    · exact harea
    · rw [Mem.slice_write_of_disjoint (.inr (by simp))]
      exact harea
  rw [hnone] at hflags
  obtain ⟨hhead, hplain⟩ := slice_payload (mp.1.buf.slice 0 mp.1.length) hflags harea'
  generalize (if mp.2.2 = 0 then mp.2.1
      else mp.2.1.write 3 [mp.2.1 3 ||| encapsulationEncryptedExtension]).write
        (r.2.hdrLen + mp.2.2) (mp.1.buf.slice 0 mp.1.length) = msg at *
  have haad := makeAad_of_slice (s := mp.1) hhead (by omega) mp.1.peer.lNode mp.1.peer.rNode
    (mp.1.length + mp.2.2 + r.2.hdrLen + authTagLen)
  rw [Mem.length_slice] at hplain
  have hspan : mp.1.spanTable i = s.spanUsed env i := by
    rw [hadded.spanTable, htable, Function.update_self]
    rfl
  have hheaderLen : (s.draft env i).header.length = r.2.hdrLen := by
    rw [← Mem.length_slice msg 0 r.2.hdrLen, hhead]
    rfl
  have hplainLen : (s.draft env i).plain.length = mp.1.length + mp.2.2 := by
    rw [← Mem.length_slice msg r.2.hdrLen (mp.1.length + mp.2.2), hplain, hbuf]
    rfl
  have hciphertext : env.ccmEncryptAndAuth (mp.1.sg mp.1.peer.classId).encKey (mp.1.drawNonce env i).1
      (mp.1.makeAad mp.1.peer.lNode mp.1.peer.rNode msg r.2.hdrLen (mp.1.length + mp.2.2 + r.2.hdrLen + authTagLen))
      (msg.slice r.2.hdrLen (mp.1.length + mp.2.2)) = (s.draft env i).ciphertext env := by
    rw [haad, hplain, hhome, hsg, hpeer, hbuf, ← hplainLen, ← hheaderLen]
    simp only [drawNonce, hspan]
    rfl
  refine ⟨?_, ?_, ?_, ?_⟩
  · have hframe := Mem.slice_write_append msg 0 r.2.hdrLen ((s.draft env i).ciphertext env)
    rw [Nat.zero_add, hhead, Nat.add_comm, ← hciphertext] at hframe
    rw [← hciphertext]
    exact hframe
  · change mp.1.attached = _
    rw [hadded.attached, hattached, hmpans, extensions, List.reverse_append, List.append_assoc]
    rfl
  · exact hconfig'
  · simp only [drawNonce, setSpan]
    rw [hspan, hadded.spanTable, htable, Function.update_idem]
    rfl

end ZipGateway.S2

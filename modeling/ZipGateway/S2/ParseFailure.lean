import ZipGateway.S2.Accounting
import ZipGateway.S2.Frame
import ZipGateway.S2.Layout

/-!
# Frames that fail in their clear part

The clear extensions are acted upon one by one as they are parsed, before the frame is known to be authentic,
and nothing is undone when a later one is bad. Two of them change the tables: the senders nonce, when the span
waits for it, and the group of a singlecast that has no MPAN yet. Where neither comes before the failure, the
tables stay as they are.
-/

namespace ZipGateway.S2

/-! ## The chain of clear extensions -/

def badExtension (msg : Mem) (ext : Nat) : Bool :=
  let type := msg (ext + 1) &&& exthdrTypeMask
  if type = exthdrTypeSn then false
  else if type = exthdrTypeMgrp then msg ext != 3
  else if type = exthdrTypeMos then msg ext != 2
  else msg (ext + 1) &&& exthdrCriticalFlag != 0

/-- The offsets of the extensions from `ext` on that are acted upon: those before the end of the chain and
before the first one that fails. -/
def extensionsFrom (msg : Mem) (len : Nat) : Nat → Nat → List Nat
  | 0, _ => []
  | fuel + 1, ext =>
    let extLen := (msg ext).toNat
    if len < ext + extLen + authTagLen ∨ extLen = 0 ∨ badExtension msg ext then
      []
    else if msg (ext + 1) &&& exthdrMoreFlag ≠ 0 then
      ext :: extensionsFrom msg len fuel (ext + extLen)
    else
      [ext]

def parsedExtensions (msg : Mem) (len : Nat) : List Nat :=
  if msg 3 &&& encapsulationExtension ≠ 0 then extensionsFrom msg len len 4 else []

/-- An extension that changes the tables: the senders nonce in a frame of a span that waits for it, or a group
without a usable MPAN in a singlecast. -/
def ChangesTables (s : S2) (con : Connection) (msg : Mem) (ext : Nat) : Prop :=
  con.isMulticast = false ∧ (msg (ext + 1) &&& exthdrTypeMask = exthdrTypeSn ∧ msg ext = 18 ∧
        slotState s.spanTable con = .sosLocalNonce ∨
      msg (ext + 1) &&& exthdrTypeMask = exthdrTypeMgrp ∧ s.lookupMpan con.rNode (msg (ext + 2)) = none)

/-! ## One extension, and all of them -/

structure Tables where
  spanTable  : SpanRef → Span
  mpanTable  : MpanRef → Mpan
  loadedKeys : UInt8

def tables (s : S2) : Tables :=
  ⟨s.spanTable, s.mpanTable, s.loadedKeys⟩

section Parsing

variable (env : Env) {s : S2} {locals : Locals} {con : Connection} {span : Option SpanRef} {msg : Mem}

theorem clearExtension_of_bad {ext : Nat} (h : badExtension msg ext = true) :
    s.clearExtension env locals con span msg ext = none := by
  unfold badExtension at h
  simp only at h
  split_ifs at h with hsn hmgrp hmos
  · have hne : msg ext ≠ 3 := by simpa using h
    have htype : exthdrTypeMgrp ≠ exthdrTypeSn := by decide
    simp [clearExtension, hmgrp, htype, hne]
  · have hne : msg ext ≠ 2 := by simpa using h
    have htype : exthdrTypeMos ≠ exthdrTypeSn := by decide
    have htype' : exthdrTypeMos ≠ exthdrTypeMgrp := by decide
    simp [clearExtension, hmos, htype, htype', hne]
  · have hcritical : msg (ext + 1) &&& exthdrCriticalFlag ≠ 0 := by simpa using h
    simp [clearExtension, hsn, hmgrp, hmos, hcritical]

theorem tables_setNodeMos (node : NodeId) : (s.setNodeMos node).tables = s.tables := by
  unfold setNodeMos
  split
  · split
    · split <;> rfl
    · rfl
  · rfl

theorem findMpanByGroupId_of_some {ownerId : NodeId} {groupId : UInt8} {m : MpanRef} (createNew : Bool)
    (h : s.lookupMpan ownerId groupId = some m) : s.findMpanByGroupId env ownerId groupId createNew = (some m, s) := by
  unfold lookupMpan at h
  unfold findMpanByGroupId
  rw [h]

theorem tables_clearExtension {ext : Nat} {r : S2 × Locals} (hr : s.clearExtension env locals con span msg ext = some r)
    (hsn : ∀ i, span = some i → msg (ext + 1) &&& exthdrTypeMask = exthdrTypeSn → msg ext = 18 →
      (s.spanTable i).state ≠ .sosLocalNonce)
    (hmgrp : msg (ext + 1) &&& exthdrTypeMask = exthdrTypeMgrp → con.isMulticast = false →
      s.lookupMpan con.rNode (msg (ext + 2)) ≠ none) :
    r.1.tables = s.tables := by
  simp only [clearExtension] at hr
  split_ifs at hr with htype hgroup hlength hmos hlength' hcritical
  · cases span with
    | none =>
      cases hr
      rfl
    | some i =>
      dsimp only at hr
      split_ifs at hr with hwaits
      · exact absurd hwaits.1 (hsn i rfl htype hwaits.2)
      · cases hr
        rfl
  · cases hr
    change (s.findMpanByGroupId env con.rNode (msg (ext + 2)) (!con.isMulticast)).2.tables = s.tables
    cases hfound : s.lookupMpan con.rNode (msg (ext + 2)) with
    | some m => rw [findMpanByGroupId_of_some env _ hfound]
    | none =>
      cases hmulticast : con.isMulticast with
      | false => exact absurd hfound (hmgrp hgroup hmulticast)
      | true =>
        rw [Bool.not_true, findMpanByGroupId_false]
  · cases hr
    exact tables_setNodeMos con.rNode
  · cases hr
    rfl

theorem lookupMpan_congr {t : S2} (h : t.tables = s.tables) (ownerId : NodeId) (groupId : UInt8) :
    t.lookupMpan ownerId groupId = s.lookupMpan ownerId groupId := by
  obtain ⟨-, hmpan, hkeys⟩ := (Tables.mk.injEq ..).mp h
  unfold lookupMpan mpanMatches classLoaded
  rw [hmpan, hkeys]

theorem tables_parseClear (len fuel : Nat)
    (hsn : ∀ ext ∈ extensionsFrom msg len fuel locals.hdrLen, ∀ i, span = some i →
      msg (ext + 1) &&& exthdrTypeMask = exthdrTypeSn → msg ext = 18 → (s.spanTable i).state ≠ .sosLocalNonce)
    (hmgrp : ∀ ext ∈ extensionsFrom msg len fuel locals.hdrLen,
      msg (ext + 1) &&& exthdrTypeMask = exthdrTypeMgrp → con.isMulticast = false →
        s.lookupMpan con.rNode (msg (ext + 2)) ≠ none) :
    (parseClear env con span msg len fuel s locals).2.1.tables = s.tables := by
  induction fuel generalizing s locals with
  | zero => rfl
  | succ fuel ih =>
    simp only [parseClear]
    split
    next => rfl
    next hroom =>
      cases hext : s.clearExtension env locals con span msg locals.hdrLen with
      | none => rfl
      | some r =>
        have hgood : badExtension msg locals.hdrLen = false := by
          rw [← Bool.not_eq_true]
          intro hbad
          rw [clearExtension_of_bad env hbad] at hext
          cases hext
        have hgo : ¬(len < locals.hdrLen + (msg locals.hdrLen).toNat + authTagLen ∨
            (msg locals.hdrLen).toNat = 0 ∨ badExtension msg locals.hdrLen = true) := by
          rw [hgood]
          simpa using hroom
        rw [extensionsFrom] at hsn hmgrp
        simp only [if_neg hgo] at hsn hmgrp
        dsimp only
        split
        next hmore =>
          simp only [if_pos hmore, List.mem_cons, forall_eq_or_imp] at hsn hmgrp
          have htables := tables_clearExtension env hext hsn.1 hmgrp.1
          obtain ⟨hspan, -, -⟩ := (Tables.mk.injEq ..).mp htables
          rw [← htables]
          apply ih
          · rw [hspan]
            exact hsn.2
          · intro ext hmem htype hmulticast
            rw [lookupMpan_congr htables]
            exact hmgrp.2 ext hmem htype hmulticast
        next hlast =>
          simp only [if_neg hlast, List.mem_singleton, forall_eq] at hsn hmgrp
          have htables := tables_clearExtension env hext hsn hmgrp
          exact htables

theorem tables_parseHeader (s : S2) (con : Connection) (span : Option SpanRef) (msg : Mem) (len : Nat)
    (hsn : ∀ ext ∈ parsedExtensions msg len, ∀ i, span = some i →
      msg (ext + 1) &&& exthdrTypeMask = exthdrTypeSn → msg ext = 18 → (s.spanTable i).state ≠ .sosLocalNonce)
    (hmgrp : ∀ ext ∈ parsedExtensions msg len, msg (ext + 1) &&& exthdrTypeMask = exthdrTypeMgrp →
      con.isMulticast = false → s.lookupMpan con.rNode (msg (ext + 2)) ≠ none) :
    (s.parseHeader env con span msg len).2.1.tables = s.tables := by
  unfold parsedExtensions at hsn hmgrp
  simp only [parseHeader]
  split
  next hflag =>
    rw [if_pos hflag] at hsn hmgrp
    exact tables_parseClear env (s := { s with nDecrypt := s.nDecrypt + 1 }) len len hsn hmgrp
  next => rfl

end Parsing

/-! ## The whole frame -/

def heardSpan (env : Env) (s : S2) (con : Connection) (msg : Mem) : SpanRef × S2 :=
  (s.verifySeq env con (msg 2)).2.findSpanByNode env con

/-- `S2_decrypt_msg` fails on what the clear part says: on its length, the sequence number, the chain of
extensions, or the group of a multicast. -/
inductive ClearFailure (env : Env) (s : S2) (con : Connection) (msg : Mem) (len : Nat) : Prop where
  | short (hlen : len < 4 + authTagLen)
  | sequence (hlen : 4 + authTagLen ≤ len) (hcon : con.isMulticast = false)
      (hseq : (s.verifySeq env con (msg 2)).1 = false)
  | singlecast (hlen : 4 + authTagLen ≤ len) (hcon : con.isMulticast = false)
      (hseq : (s.verifySeq env con (msg 2)).1 = true)
      (hparse : ((s.heardSpan env con msg).2.parseHeader env con (some (s.heardSpan env con msg).1) msg len).1 = false)
  | multicast (hlen : 4 + authTagLen ≤ len) (hcon : con.isMulticast = true)
      (hparse : (s.parseHeader env con none msg len).1 = false)
  | group (hlen : 4 + authTagLen ≤ len) (hcon : con.isMulticast = true)
      (hparse : (s.parseHeader env con none msg len).1 = true)
      (hmpan : ∀ m, (s.parseHeader env con none msg len).2.2.mpan = some m →
        ((s.parseHeader env con none msg len).2.1.mpanTable m).state ≠ .set)

/-- The entry of the peer is as before but for the received sequence number, a peer without an entry has none
that is more than allocated, and the MPAN table is as before. -/
structure Untouched (s t : S2) (con : Connection) : Prop where
  span  : ∀ i, slot s.spanTable con = some i → ∃ rxSeq, t.spanTable i = { s.spanTable i with rxSeq := rxSeq }
  fresh : slot s.spanTable con = none → slotState t.spanTable con = .noSeq
  mpan  : t.mpanTable = s.mpanTable

section Frame

variable (env : Env) {s t : S2} {con : Connection} {msg : Mem} {len : Nat}

theorem Untouched.of_tables {s' t : S2} (h : Untouched s s' con) (htables : t.tables = s'.tables) :
    Untouched s t con := by
  obtain ⟨hspan, hmpan, -⟩ := (Tables.mk.injEq ..).mp htables
  refine ⟨?_, ?_, ?_⟩
  · rw [hspan]
    exact h.span
  · rw [hspan]
    exact h.fresh
  · rw [hmpan]
    exact h.mpan

theorem untouched_refl : Untouched s s con :=
  ⟨fun i _ => ⟨(s.spanTable i).rxSeq, rfl⟩, fun hnone => by rw [slotState, hnone], rfl⟩

theorem mpanTable_findSpanByNode (env : Env) (s : S2) (con : Connection) :
    (s.findSpanByNode env con).2.mpanTable = s.mpanTable ∧ (s.findSpanByNode env con).2.loadedKeys = s.loadedKeys := by
  unfold findSpanByNode
  split <;> exact ⟨rfl, rfl⟩

theorem mpanTable_verifySeq (seq : UInt8) : (s.verifySeq env con seq).2.mpanTable = s.mpanTable ∧
      (s.verifySeq env con seq).2.loadedKeys = s.loadedKeys := by
  simp only [verifySeq]
  split <;> exact mpanTable_findSpanByNode env s con

theorem untouched_verifySeq (seq : UInt8) : Untouched s (s.verifySeq env con seq).2 con := by
  refine ⟨fun i hi => ?_, fun hnone => ?_, (mpanTable_verifySeq env seq).1⟩
  · simp only [verifySeq, findSpanByNode_of_slot env s con hi]
    split
    · exact ⟨seq, spanTable_setSpan_self s i _⟩
    · exact ⟨(s.spanTable i).rxSeq, rfl⟩
  · rw [slotState_verifySeq, slotState, hnone]

theorem heardSpan_eq : s.heardSpan env con msg = ((s.findSpanByNode env con).1, (s.verifySeq env con (msg 2)).2) :=
  findSpanByNode_of_slot env _ con (slot_verifySeq env s con (msg 2))

theorem state_heardSpan :
    ((s.heardSpan env con msg).2.spanTable (s.heardSpan env con msg).1).state = slotState s.spanTable con := by
  rw [heardSpan_eq, ← slotState_verifySeq env s con (msg 2)]
  exact (slotState_of_slot (slot_verifySeq env s con (msg 2))).symm

theorem lookupMpan_heardSpan (ownerId : NodeId) (groupId : UInt8) :
    (s.heardSpan env con msg).2.lookupMpan ownerId groupId = s.lookupMpan ownerId groupId := by
  rw [heardSpan_eq]
  unfold lookupMpan mpanMatches classLoaded
  rw [(mpanTable_verifySeq env (msg 2)).1, (mpanTable_verifySeq env (msg 2)).2]

theorem untouched_heardSpan : Untouched s (s.heardSpan env con msg).2 con := by
  rw [heardSpan_eq]
  exact untouched_verifySeq env (msg 2)

theorem tables_parse_singlecast (hcon : con.isMulticast = false)
    (hext : ∀ ext ∈ parsedExtensions msg len, ¬ChangesTables s con msg ext) :
    ((s.heardSpan env con msg).2.parseHeader env con (some (s.heardSpan env con msg).1) msg len).2.1.tables =
      (s.heardSpan env con msg).2.tables := by
  apply tables_parseHeader
  · intro ext hmem i hi htype hlength hwaits
    rw [← Option.some.inj hi, state_heardSpan] at hwaits
    exact hext ext hmem ⟨hcon, .inl ⟨htype, hlength, hwaits⟩⟩
  · intro ext hmem htype _ hnone
    rw [lookupMpan_heardSpan] at hnone
    exact hext ext hmem ⟨hcon, .inr ⟨htype, hnone⟩⟩

theorem tables_parse_multicast (hcon : con.isMulticast = true) :
    (s.parseHeader env con none msg len).2.1.tables = s.tables := by
  apply tables_parseHeader
  · intro ext _ i hi
    cases hi
  · intro ext _ _ hfalse
    rw [hcon] at hfalse
    cases hfalse

theorem tables_authFail_multicast (hcon : con.isMulticast = true) {mpan : Option MpanRef}
    (hmpan : ∀ m, mpan = some m → (s.mpanTable m).state = .mos) :
    (s.authFail env con none mpan).s.tables = s.tables := by
  cases mpan with
  | none =>
    simp only [authFail, Decrypted.failed, hcon, if_true]
  | some m =>
    have hsame : { s.mpanTable m with state := .mos } = s.mpanTable m := by
      rw [← hmpan m rfl]
    simp only [authFail, Decrypted.failed, hcon, if_true, hsame, setMpan, Function.update_eq_self]

theorem mpan_parseClear (hcon : con.isMulticast = true) (msg : Mem) (len fuel : Nat) (s : S2)
    (locals : Locals) (h : ∀ m, locals.mpan = some m → (s.mpanTable m).state ≠ .notUsed) :
    ∀ m, (parseClear env con none msg len fuel s locals).2.2.mpan = some m →
      ((parseClear env con none msg len fuel s locals).2.1.mpanTable m).state ≠ .notUsed := by
  induction fuel generalizing s locals with
  | zero => exact h
  | succ fuel ih =>
    simp only [parseClear]
    split
    next => exact h
    next =>
      cases hext : s.clearExtension env locals con none msg locals.hdrLen with
      | none => exact h
      | some r =>
        have hr : ∀ m, r.2.mpan = some m → (r.1.mpanTable m).state ≠ .notUsed := by
          simp only [clearExtension] at hext
          split_ifs at hext
          · cases hext
            exact h
          · cases hext
            rw [hcon, Bool.not_true, findMpanByGroupId_false]
            intro m hm
            have hmatch : s.mpanMatches con.rNode (msg (locals.hdrLen + 2)) (s.mpanTable m) = true :=
              List.find?_some (p := fun i => s.mpanMatches con.rNode (msg (locals.hdrLen + 2)) (s.mpanTable i)) hm
            simp only [mpanMatches, Bool.and_eq_true, bne_iff_ne] at hmatch
            exact hmatch.1.1.1
          · cases hext
            intro m hm
            have htables := tables_setNodeMos (s := s) con.rNode
            obtain ⟨-, hmpan, -⟩ := (Tables.mk.injEq ..).mp htables
            change ((s.setNodeMos con.rNode).mpanTable m).state ≠ .notUsed
            rw [hmpan]
            exact h m hm
          · cases hext
            exact h
        dsimp only
        split
        · exact ih _ _ hr
        · exact hr

theorem mpan_parseHeader (hcon : con.isMulticast = true) :
    ∀ m, (s.parseHeader env con none msg len).2.2.mpan = some m →
      ((s.parseHeader env con none msg len).2.1.mpanTable m).state ≠ .notUsed := by
  simp only [parseHeader]
  split
  · exact mpan_parseClear env hcon msg len len _ _ (fun _ hnone => by cases hnone)
  · exact fun _ hnone => by cases hnone

theorem clear_failure_untouched (h : ClearFailure env s con msg len)
    (hext : ∀ ext ∈ parsedExtensions msg len, ¬ChangesTables s con msg ext) :
    (s.decryptMsg env con msg len).rc ≠ .authOk ∧ Untouched s (s.decryptMsg env con msg len).s con := by
  cases h with
  | short hlen =>
    rw [decryptMsg, if_pos hlen]
    exact ⟨by simp [Decrypted.failed], untouched_refl⟩
  | sequence hlen hcon hseq =>
    have hdecrypt : s.decryptMsg env con msg len = .failed .sequenceFail con (s.verifySeq env con (msg 2)).2 := by
      simp only [decryptMsg, if_neg (Nat.not_lt.mpr hlen), hcon, hseq, Bool.false_eq_true, if_false]
    rw [hdecrypt]
    exact ⟨by simp [Decrypted.failed], untouched_verifySeq env (msg 2)⟩
  | singlecast hlen hcon hseq hparse =>
    have hdecrypt : s.decryptMsg env con msg len = .failed .parseFail con
        ((s.heardSpan env con msg).2.parseHeader env con (some (s.heardSpan env con msg).1) msg len).2.1 := by
      unfold heardSpan at hparse
      simp only [decryptMsg, decryptBody, if_neg (Nat.not_lt.mpr hlen), hcon, hseq, Bool.false_eq_true, if_false,
        if_true, hparse]
      rfl
    rw [hdecrypt]
    exact ⟨by simp [Decrypted.failed], (untouched_heardSpan env).of_tables (tables_parse_singlecast env hcon hext)⟩
  | multicast hlen hcon hparse =>
    have hdecrypt : s.decryptMsg env con msg len = .failed .parseFail con (s.parseHeader env con none msg len).2.1 := by
      simp only [decryptMsg, decryptBody, if_neg (Nat.not_lt.mpr hlen), hcon, if_true, hparse, Bool.false_eq_true,
        if_false]
    rw [hdecrypt]
    exact ⟨by simp [Decrypted.failed], untouched_refl.of_tables (tables_parse_multicast env hcon)⟩
  | group hlen hcon hparse hmpan =>
    have hmos : ∀ m, (s.parseHeader env con none msg len).2.2.mpan = some m →
        ((s.parseHeader env con none msg len).2.1.mpanTable m).state = .mos := by
      intro m hm
      have hset := hmpan m hm
      have hused := mpan_parseHeader env hcon m hm
      cases hstate : ((s.parseHeader env con none msg len).2.1.mpanTable m).state with
      | notUsed => exact absurd hstate hused
      | set => exact absurd hstate hset
      | mos => rfl
    have hdecrypt : s.decryptMsg env con msg len = (s.parseHeader env con none msg len).2.1.authFail env con none
          (s.parseHeader env con none msg len).2.2.mpan := by
      simp only [decryptMsg, decryptBody, if_neg (Nat.not_lt.mpr hlen), hcon, if_true, hparse, decryptGroup]
      cases hfound : (s.parseHeader env con none msg len).2.2.mpan with
      | none => rfl
      | some m => simp only [if_neg (hmpan m hfound)]
    rw [hdecrypt]
    refine ⟨by simp [authFail, Decrypted.failed], untouched_refl.of_tables ?_⟩
    rw [tables_authFail_multicast env hcon hmos, tables_parse_multicast env hcon]

/-- The clear part of a singlecast is fine, and the span is not in step. -/
structure OutOfStep (env : Env) (s : S2) (con : Connection) (msg : Mem) (len : Nat) : Prop where
  hlen   : 4 + authTagLen ≤ len
  hcon   : con.isMulticast = false
  hseq   : (s.verifySeq env con (msg 2)).1 = true
  hparse : ((s.heardSpan env con msg).2.parseHeader env con (some (s.heardSpan env con msg).1) msg len).1 = true
  hstate : slotState s.spanTable con ≠ .negotiated ∧ slotState s.spanTable con ≠ .instantiate

/-- The peer is asked for its entropy, and the MPAN of the group that was named for its state. -/
structure Resynchronises (s : S2) (con : Connection) (d : Decrypted) : Prop where
  rc   : d.rc = .authFail
  span : slotState d.s.spanTable con = .sosLocalNonce
  mpan : ∃ named : Option MpanRef, ∀ m, d.s.mpanTable m =
    if named = some m then { s.mpanTable m with state := .mos } else s.mpanTable m

theorem slotState_sendNonceReport {i : SpanRef} (hslot : slot s.spanTable con = some i) {flags : UInt8}
    (hflags : flags &&& nonceReportSos ≠ 0) :
    slotState (s.sendNonceReport env con flags).spanTable con = .sosLocalNonce := by
  simp only [sendNonceReport, findSpanByNode_of_slot env s con hslot, if_pos (bne_iff_ne.mpr hflags)]
  exact slotState_setSpan (s := (s.ctrDrbgGenerate env).2) hslot rfl rfl (fun h => by cases h)

theorem mpanTable_sendNonceReport (flags : UInt8) : (s.sendNonceReport env con flags).mpanTable = s.mpanTable := by
  have hfind := (mpanTable_findSpanByNode env s con).1
  simp only [sendNonceReport]
  split <;> exact hfind

theorem resynchronises_authFail (hcon : con.isMulticast = false) {i : SpanRef}
    (hslot : slot s.spanTable con = some i) (mpan : Option MpanRef) :
    Resynchronises s con (s.authFail env con (some i) mpan) := by
  have hinvalid : ∀ t : S2, t.spanTable = s.spanTable →
      slot (t.setSpan i { t.spanTable i with state := .sos }).spanTable con = some i := by
    intro t ht
    refine slot_setSpan ?_ rfl rfl (fun h => by cases h)
    rwa [ht]
  simp only [authFail, Decrypted.failed, hcon, Bool.false_eq_true, if_false]
  cases mpan with
  | none =>
    refine ⟨rfl, ?_, none, fun m => ?_⟩
    · exact slotState_sendNonceReport env (hinvalid s rfl) (by decide)
    · exact congrFun (mpanTable_sendNonceReport env nonceReportSos) m
  | some named =>
    refine ⟨rfl, ?_, some named, fun m => ?_⟩
    · exact slotState_sendNonceReport env (hinvalid (s.setMpan named { s.mpanTable named with state := .mos }) rfl)
        (show (nonceReportSos ||| nonceReportMos) &&& nonceReportSos ≠ 0 by decide)
    · rw [mpanTable_sendNonceReport]
      change Function.update s.mpanTable named { s.mpanTable named with state := .mos } m = _
      by_cases hm : m = named
      · subst hm
        rw [Function.update_self, if_pos rfl]
      · have hother : ¬some named = some m := fun heq => hm (Option.some.inj heq).symm
        rw [Function.update_of_ne hm, if_neg hother]

theorem out_of_step_resynchronises (h : OutOfStep env s con msg len)
    (hext : ∀ ext ∈ parsedExtensions msg len, ¬ChangesTables s con msg ext) :
    Resynchronises s con (s.decryptMsg env con msg len) := by
  obtain ⟨hlen, hcon, hseq, hparse, hnegotiated, hinstantiate⟩ := h
  have htables := tables_parse_singlecast env hcon hext
  obtain ⟨hspan, hmpan, -⟩ := (Tables.mk.injEq ..).mp htables
  have hstate : ((s.heardSpan env con msg).2.spanTable (s.heardSpan env con msg).1).state =
      slotState s.spanTable con := state_heardSpan env
  have hslot := slot_verifySeq env s con (msg 2)
  rw [heardSpan_eq] at hparse hspan hmpan hstate
  dsimp only at hparse hspan hmpan hstate
  have hdecrypt : s.decryptMsg env con msg len =
      ((s.verifySeq env con (msg 2)).2.parseHeader env con (some (s.findSpanByNode env con).1) msg len).2.1.authFail
        env con (some (s.findSpanByNode env con).1)
        ((s.verifySeq env con (msg 2)).2.parseHeader env con (some (s.findSpanByNode env con).1) msg len).2.2.mpan := by
    simp only [decryptMsg, decryptBody, if_neg (Nat.not_lt.mpr hlen), hcon, hseq, Bool.false_eq_true, if_false,
      if_true, findSpanByNode_of_slot env _ con hslot, hparse, decryptSpan, hspan, hstate, hnegotiated, hinstantiate,
      or_self]
  have hauth := resynchronises_authFail env hcon (i := (s.findSpanByNode env con).1) (hspan ▸ hslot)
    ((s.verifySeq env con (msg 2)).2.parseHeader env con (some (s.findSpanByNode env con).1) msg len).2.2.mpan
  rw [hdecrypt]
  refine ⟨hauth.rc, hauth.span, ?_⟩
  obtain ⟨named, hnamed⟩ := hauth.mpan
  refine ⟨named, fun m => ?_⟩
  rw [hnamed m, hmpan, (mpanTable_verifySeq env (msg 2)).1]

/-- What a frame that never comes to the cipher does to the tables, when none of its extensions that are acted
upon changes them: nothing where the clear part fails, a resynchronization where the span is not in step. -/
theorem undecrypted_frame (s : S2) (con : Connection) (msg : Mem) (len : Nat)
    (hext : ∀ ext ∈ parsedExtensions msg len, ¬ChangesTables s con msg ext) :
    (ClearFailure env s con msg len →
      (s.decryptMsg env con msg len).rc ≠ .authOk ∧ Untouched s (s.decryptMsg env con msg len).s con) ∧
    (OutOfStep env s con msg len → Resynchronises s con (s.decryptMsg env con msg len)) :=
  ⟨fun h => clear_failure_untouched env h hext, fun h => out_of_step_resynchronises env h hext⟩

end Frame

/-! ## Where the tables change -/

def waitingStart : S2 :=
  start 0 (init 0).sg 1 <| sampleSpans fun span => { span with lnode := 1, rnode := 2, state := .sosLocalNonce }

def nonceThenUnknown : Bytes :=
  [0x9F, 0x03, 0x05, encapsulationExtension, 18, exthdrCriticalFlag ||| exthdrMoreFlag ||| exthdrTypeSn] ++
    List.replicate 16 7 ++ [2, exthdrCriticalFlag ||| 5] ++ List.replicate 8 0

theorem not_clear_failure_untouched :
    ¬∀ (env : Env) (s : S2) (con : Connection) (msg : Mem) (len : Nat), ClearFailure env s con msg len →
      Untouched s (s.decryptMsg env con msg len).s con := by
  intro hall
  have hfailure : ClearFailure sampleEnv waitingStart (sampleCon 0) (.ofBytes nonceThenUnknown) 32 := by
    refine .singlecast (by decide) (by decide) (by decide) ?_
    decide
  obtain ⟨rxSeq, hspan⟩ := (hall sampleEnv waitingStart (sampleCon 0) (.ofBytes nonceThenUnknown) 32 hfailure).span 0
    (by decide)
  have hstate : ((waitingStart.decryptMsg sampleEnv (sampleCon 0) (.ofBytes nonceThenUnknown) 32).s.spanTable 0).state =
      .instantiate := by
    decide
  rw [hspan] at hstate
  exact nomatch (hstate : SpanState.sosLocalNonce = .instantiate)

theorem undecrypted_frame_nonceThenUnknown : (∀ ext ∈ parsedExtensions (.ofBytes nonceThenUnknown) 32,
      ¬ChangesTables sampleStart (sampleCon 0) (.ofBytes nonceThenUnknown) ext) ∧
    Untouched sampleStart (sampleStart.decryptMsg sampleEnv (sampleCon 0) (.ofBytes nonceThenUnknown) 32).s
      (sampleCon 0) := by
  have hoffsets : parsedExtensions (.ofBytes nonceThenUnknown) 32 = [4] := by decide
  have hstate : slotState sampleStart.spanTable (sampleCon 0) = .negotiated := by decide
  have hext : ∀ ext ∈ parsedExtensions (.ofBytes nonceThenUnknown) 32,
      ¬ChangesTables sampleStart (sampleCon 0) (.ofBytes nonceThenUnknown) ext := by
    rw [hoffsets]
    rintro ext hmem ⟨-, ⟨-, -, hwaits⟩ | ⟨htype, -⟩⟩
    · rw [hstate] at hwaits
      cases hwaits
    · obtain rfl : ext = 4 := List.mem_singleton.mp hmem
      revert htype
      decide
  refine ⟨hext, ((undecrypted_frame sampleEnv sampleStart (sampleCon 0) _ 32 hext).1 ?_).2⟩
  refine .singlecast (by decide) (by decide) (by decide) ?_
  decide

end ZipGateway.S2

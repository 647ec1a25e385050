import ZipGateway.S2.Layout

/-!
# Reading the extensions

The decoder walks a chain of extensions along the MORE flags. What it does with one extension it
knows depends on the extension and not on where it lies.
-/

namespace ZipGateway.S2

def recognised (s : S2) : List Extension :=
  s.out.filterMap fun
    | .recognise e => some e
    | _ => none

/-! ## The clear extensions -/

variable {encrypted : Bool} {header : Bytes} {e : Extension} {clear : List Extension} {len : Nat}
  {seq : UInt8} (node : NodeId)

namespace Extension

def encodeChain : List Extension → Bytes
  | [] => []
  | [e] => encode false e
  | e :: es => encode true e ++ encodeChain es

theorem encodeChain_cons (e : Extension) (es : List Extension) :
    encodeChain (e :: es) = encode (es != []) e ++ encodeChain es := by
  cases es with
  | nil => simp [encodeChain]
  | cons e' es => rfl

theorem encodeClear_eq (es : List Extension) : encodeClear es = encodeChain (es.take 2) ++ encodeLast (es.drop 2) := by
  rcases es with _ | ⟨e, _ | ⟨e', es⟩⟩
  · rfl
  · simp [encodeClear, encodeChain, encodeLast]
  · have hmore : (e' :: es != []) = true := rfl
    simp [encodeClear, encodeChain, encodeLast, hmore]

theorem size_pos (e : Extension) : 2 ≤ (size e).toNat := by
  cases e <;> simp [size]

def IsGroup (e : Extension) : Prop :=
  e = .mos ∨ ∃ groupId, e = .mgrp groupId

end Extension

section Clear

variable (env : Env) (con : Connection) (i : SpanRef)

def takeClear (s : S2) (locals : Locals) : Extension → S2 × Locals
  | .sn entropy =>
    let entry := s.spanTable i
    ((s.setSpan i { entry with
          state := .instantiate
          d := env.nextNonceInstantiate entropy entry.d.rNonce (s.sg entry.classId).nonceKey }).log
        (.recognise (.sn entropy)),
      { locals with sNonce := entropy, rNonce := entry.d.rNonce })
  | .mgrp groupId =>
    let r := s.findMpanByGroupId env con.rNode groupId true
    (r.2.log (.recognise (.mgrp groupId)), { locals with mpan := r.1 })
  | .mos => ((s.setNodeMos con.rNode).log (.recognise .mos), locals)
  | .mpan _ _ => (s, locals)

theorem block_ofBytes_toList (b : Block) : Block.ofBytes b.toList = b := by
  apply Vector.ext
  intro k hk
  simp [Block.ofBytes]

variable {env con i} {s : S2} {locals : Locals} {msg : Mem} {ext : Nat} {more : Bool}

theorem encode_bytes (h : msg.slice ext (Extension.size e).toNat = Extension.encode more e) :
    msg ext = Extension.size e ∧ msg (ext + 1) =
        (if more then Extension.type e ||| exthdrMoreFlag else Extension.type e) ∧
      msg.slice (ext + 2) ((Extension.size e).toNat - 2) = Extension.body e := by
  refine ⟨?_, Mem.eq_of_slice h rfl, ?_⟩
  · have hfirst := Mem.eq_of_slice (i := 0) h rfl
    exact hfirst
  · have hsize := Extension.size_pos e
    have hdrop := Mem.drop_slice msg ext ((Extension.size e).toNat - 2) 2
    rw [Nat.add_sub_of_le hsize, h] at hdrop
    exact hdrop.symm

theorem more_flag (h : msg.slice ext (Extension.size e).toNat = Extension.encode more e) :
    msg (ext + 1) &&& exthdrMoreFlag ≠ 0 ↔ more = true := by
  rw [(encode_bytes h).2.1]
  cases more <;> cases e <;> simp [Extension.type] <;> decide

theorem type_bits (h : msg.slice ext (Extension.size e).toNat = Extension.encode more e) :
    msg (ext + 1) &&& exthdrTypeMask = Extension.type e &&& exthdrTypeMask := by
  rw [(encode_bytes h).2.1]
  cases more <;> cases e <;> simp [Extension.type] <;> decide

theorem clearExtension_sn {entropy : Block} (h : msg.slice ext 18 = Extension.encode more (.sn entropy))
    (hwaiting : (s.spanTable i).state = .sosLocalNonce) :
    s.clearExtension env locals con (some i) msg ext = some (s.takeClear env con i locals (.sn entropy)) := by
  obtain ⟨hsize, -, hbody⟩ := encode_bytes (e := .sn entropy) h
  have htype := type_bits (e := .sn entropy) h
  rw [show Extension.type (.sn entropy) &&& exthdrTypeMask = exthdrTypeSn by
    rw [Extension.type]; decide] at htype
  have hnonce : Block.ofBytes (msg.slice (ext + 2) 16) = entropy := by
    rw [show msg.slice (ext + 2) 16 = entropy.toList from hbody, block_ofBytes_toList]
  simp only [clearExtension, htype, if_true, hwaiting, hsize, Extension.size, and_self, hnonce, takeClear]

theorem clearExtension_group (hcon : con.isMulticast = false) (he : Extension.IsGroup e)
    (h : msg.slice ext (Extension.size e).toNat = Extension.encode more e) :
    s.clearExtension env locals con (some i) msg ext = some (s.takeClear env con i locals e) := by
  obtain ⟨hsize, -, hbody⟩ := encode_bytes h
  have htype := type_bits h
  rcases he with rfl | ⟨groupId, rfl⟩
  · rw [show Extension.type .mos &&& exthdrTypeMask = exthdrTypeMos by decide] at htype
    simp only [clearExtension, htype, hsize, Extension.size, takeClear,
      show exthdrTypeMos ≠ exthdrTypeSn by decide, show exthdrTypeMos ≠ exthdrTypeMgrp by decide,
      if_false, if_true]
  · rw [show Extension.type (.mgrp groupId) &&& exthdrTypeMask = exthdrTypeMgrp by
      rw [Extension.type]; decide] at htype
    have hgroup : msg (ext + 2) = groupId := Mem.eq_of_slice (i := 0) hbody rfl
    simp only [clearExtension, htype, hsize, Extension.size, takeClear, hgroup, hcon,
      show exthdrTypeMgrp ≠ exthdrTypeSn by decide, if_false, if_true, Bool.not_false]

theorem parseClear_step {len fuel : Nat} {r : S2 × Locals}
    (h : msg.slice locals.hdrLen (Extension.size e).toNat = Extension.encode more e)
    (hlen : locals.hdrLen + (Extension.size e).toNat + authTagLen ≤ len)
    (hr : s.clearExtension env locals con (some i) msg locals.hdrLen = some r) :
    parseClear env con (some i) msg len (fuel + 1) s locals =
      if more then
        parseClear env con (some i) msg len fuel r.1 { r.2 with hdrLen := locals.hdrLen + (Extension.size e).toNat }
      else
        (true, r.1, { r.2 with hdrLen := locals.hdrLen + (Extension.size e).toNat }) := by
  have hsize := Extension.size_pos e
  have hmore := more_flag h
  simp only [parseClear, (encode_bytes h).1, hr]
  rw [if_neg (by omega)]
  by_cases hm : more = true
  · rw [if_pos (hmore.mpr hm), if_pos hm]
  · rw [if_neg (fun hflag => hm (hmore.mp hflag)), if_neg hm]

def spanHeard (env : Env) (s : S2) (i : SpanRef) : List Extension → Span
  | .sn entropy :: _ =>
    { s.spanTable i with
      state := .instantiate
      d := env.nextNonceInstantiate entropy (s.spanTable i).d.rNonce (s.sg (s.spanTable i).classId).nonceKey }
  | _ => s.spanTable i

structure ClearParsed (env : Env) (i : SpanRef) (s : S2) (locals : Locals) (es : List Extension)
    (r : S2 × Locals) : Prop where
  hdrLen : r.2.hdrLen = locals.hdrLen + (Extension.encodeChain es).length
  recognised : r.1.recognised = es.reverse ++ s.recognised
  transmitted : r.1.transmitted = s.transmitted
  config : r.1.config = s.config
  spanTable : r.1.spanTable = Function.update s.spanTable i (s.spanHeard env i es)
  sNonce : ∀ entropy rest, es = .sn entropy :: rest → r.2.sNonce = entropy ∧ r.2.rNonce = (s.spanTable i).d.rNonce
  noGroup : (∀ e ∈ es, ¬Extension.IsGroup e) → r.1.mpan = s.mpan ∧ r.1.mosList = s.mosList ∧ r.2.mpan = locals.mpan

theorem config_findMpanByGroupId (ownerId : NodeId) (groupId : UInt8) (createNew : Bool) :
    (s.findMpanByGroupId env ownerId groupId createNew).2.config = s.config := by
  unfold findMpanByGroupId
  split
  · rfl
  · split <;> rfl

theorem recognised_findMpanByGroupId (env : Env) (s : S2) (ownerId : NodeId) (groupId : UInt8) (createNew : Bool) :
    (s.findMpanByGroupId env ownerId groupId createNew).2.recognised = s.recognised := by
  unfold findMpanByGroupId
  split
  · rfl
  · split <;> rfl

theorem transmitted_findMpanByGroupId (env : Env) (s : S2) (ownerId : NodeId) (groupId : UInt8) (createNew : Bool) :
    (s.findMpanByGroupId env ownerId groupId createNew).2.transmitted = s.transmitted := by
  unfold findMpanByGroupId
  split
  · rfl
  · split <;> rfl

theorem config_setNodeMos : (s.setNodeMos node).config = s.config := by
  unfold setNodeMos
  repeat' split
  all_goals rfl

theorem recognised_setNodeMos : (s.setNodeMos node).recognised = s.recognised := by
  unfold setNodeMos
  repeat' split
  all_goals rfl

theorem transmitted_setNodeMos : (s.setNodeMos node).transmitted = s.transmitted := by
  unfold setNodeMos
  repeat' split
  all_goals rfl

theorem takeClear_group (env : Env) (con : Connection) (i : SpanRef) (s : S2) (locals : Locals)
    (he : Extension.IsGroup e) :
    (s.takeClear env con i locals e).1.recognised = e :: s.recognised ∧
      (s.takeClear env con i locals e).1.transmitted = s.transmitted ∧
      (s.takeClear env con i locals e).1.config = s.config ∧
      (s.takeClear env con i locals e).1.spanTable = s.spanTable ∧
      (s.takeClear env con i locals e).2.sNonce = locals.sNonce ∧
      (s.takeClear env con i locals e).2.rNonce = locals.rNonce := by
  rcases he with rfl | ⟨groupId, rfl⟩
  · exact ⟨congrArg (Extension.mos :: ·) (recognised_setNodeMos con.rNode),
      transmitted_setNodeMos con.rNode, config_setNodeMos con.rNode, spanTable_setNodeMos s con.rNode, rfl, rfl⟩
  · exact ⟨congrArg (Extension.mgrp groupId :: ·) (recognised_findMpanByGroupId env s con.rNode groupId true),
      transmitted_findMpanByGroupId env s con.rNode groupId true,
      config_findMpanByGroupId con.rNode groupId true,
      spanTable_findMpanByGroupId env s con.rNode groupId true, rfl, rfl⟩

theorem spanHeard_group {es : List Extension} (hes : ∀ e ∈ es, Extension.IsGroup e) :
    s.spanHeard env i es = s.spanTable i := by
  cases es with
  | nil => rfl
  | cons e es =>
    rcases hes e List.mem_cons_self with rfl | ⟨groupId, rfl⟩ <;> rfl

theorem slice_encodeChain {es : List Extension} {p : Nat}
    (h : msg.slice p (Extension.encodeChain (e :: es)).length = Extension.encodeChain (e :: es)) :
    msg.slice p (Extension.size e).toNat = Extension.encode (es != []) e ∧
      msg.slice (p + (Extension.size e).toNat) (Extension.encodeChain es).length = Extension.encodeChain es := by
  rw [Extension.encodeChain_cons, List.length_append, Extension.length_encode, Mem.slice_add] at h
  exact List.append_inj h (by simp)

theorem parseClear_group (env : Env) (i : SpanRef) (hcon : con.isMulticast = false)
    (es : List Extension) (hes : ∀ e ∈ es, Extension.IsGroup e) (hne : es ≠ []) (fuel : Nat)
    (hfuel : es.length ≤ fuel) (s : S2) (locals : Locals)
    (hchain : msg.slice locals.hdrLen (Extension.encodeChain es).length = Extension.encodeChain es)
    (hlen : locals.hdrLen + (Extension.encodeChain es).length + authTagLen ≤ len) :
    ∃ r, parseClear env con (some i) msg len fuel s locals = (true, r) ∧
      ClearParsed env i s locals es r ∧ r.2.sNonce = locals.sNonce ∧ r.2.rNonce = locals.rNonce := by
  induction es generalizing s locals fuel with
  | nil => exact absurd rfl hne
  | cons e es ih =>
    have he := hes e List.mem_cons_self
    obtain ⟨hfirst, hrest⟩ := slice_encodeChain hchain
    obtain ⟨hrecognised, htransmitted, hconfig, htable, hs, hr⟩ :=
      takeClear_group env con i s locals he
    have hsize : (Extension.encodeChain (e :: es)).length =
        (Extension.size e).toNat + (Extension.encodeChain es).length := by
      rw [Extension.encodeChain_cons, List.length_append, Extension.length_encode]
    have htableHeard : s.spanTable = Function.update s.spanTable i (s.spanHeard env i (e :: es)) := by
      rw [spanHeard_group hes, Function.update_eq_self]
    have hnotSn : ∀ entropy rest, e :: es = .sn entropy :: rest → False := by
      rintro entropy rest ⟨⟩
      rcases he with h | ⟨groupId, h⟩ <;> cases h
    rw [hsize] at hlen
    cases fuel with
    | zero => simp at hfuel
    | succ fuel =>
      rw [parseClear_step hfirst (by omega) (clearExtension_group hcon he hfirst)]
      by_cases hlast : es = []
      · subst hlast
        refine ⟨_, rfl, ⟨?_, ?_, htransmitted, hconfig, htable.trans htableHeard, ?_, ?_⟩, hs, hr⟩
        · simp [Extension.encodeChain]
        · simpa using hrecognised
        · exact fun entropy rest h => (hnotSn entropy rest h).elim
        · exact fun h => absurd he (h e List.mem_cons_self)
      · have hmore : (es != []) = true := by simpa using hlast
        obtain ⟨r, heq, hparsed, hs', hr'⟩ := ih (fun e' he' => hes e' (List.mem_cons_of_mem e he')) hlast fuel
          (by simpa using hfuel) (s.takeClear env con i locals e).1
          { (s.takeClear env con i locals e).2 with
            hdrLen := locals.hdrLen + (Extension.size e).toNat } hrest (by simpa using by omega)
        rw [if_pos hmore]
        refine ⟨r, heq, ⟨?_, ?_, hparsed.transmitted.trans htransmitted,
          hparsed.config.trans hconfig, ?_, ?_, ?_⟩, hs'.trans hs, hr'.trans hr⟩
        · rw [hparsed.hdrLen, hsize]
          dsimp only
          omega
        · rw [hparsed.recognised, hrecognised]
          simp
        · rw [hparsed.spanTable, htable, ← htableHeard, spanHeard_group
            (fun e' he' => hes e' (List.mem_cons_of_mem e he')), htable,
            Function.update_eq_self]
        · exact fun entropy rest h => (hnotSn entropy rest h).elim
        · exact fun h => absurd he (h e List.mem_cons_self)

/-- The clear extensions the encoder attaches: the senders nonce only as the first one. -/
def Extension.Orderly (es : List Extension) : Prop :=
  ∀ e ∈ es.tail, Extension.IsGroup e

def Expects (s : S2) (i : SpanRef) (es : List Extension) : Prop :=
  ∀ e ∈ es.head?, Extension.IsGroup e ∨ ((s.spanTable i).state = .sosLocalNonce ∧ ∃ entropy, e = .sn entropy)

theorem parseClear_chain (env : Env) (hcon : con.isMulticast = false) {len fuel : Nat}
    (locals : Locals) {es : List Extension} (horderly : Extension.Orderly es) (hexpects : s.Expects i es)
    (hne : es ≠ []) (hfuel : es.length ≤ fuel)
    (hchain : msg.slice locals.hdrLen (Extension.encodeChain es).length = Extension.encodeChain es)
    (hlen : locals.hdrLen + (Extension.encodeChain es).length + authTagLen ≤ len) :
    ∃ r, parseClear env con (some i) msg len fuel s locals = (true, r) ∧ ClearParsed env i s locals es r := by
  cases es with
  | nil => exact absurd rfl hne
  | cons e es =>
    rcases hexpects e (by simp) with he | ⟨hwaiting, entropy, rfl⟩
    · have hall : ∀ e' ∈ e :: es, Extension.IsGroup e' :=
        List.forall_mem_cons.mpr ⟨he, horderly⟩
      obtain ⟨r, heq, hparsed, -⟩ :=
        parseClear_group env i hcon (e :: es) hall (by simp) fuel hfuel s locals hchain hlen
      exact ⟨r, heq, hparsed⟩
    · have hgroup : ∀ e ∈ es, Extension.IsGroup e := horderly
      obtain ⟨hfirst, hrest⟩ := slice_encodeChain hchain
      have hsize : (Extension.encodeChain (.sn entropy :: es)).length = 18 + (Extension.encodeChain es).length := by
        rw [Extension.encodeChain_cons, List.length_append, Extension.length_encode]
        rfl
      have heighteen : (Extension.size (.sn entropy)).toNat = 18 := rfl
      rw [hsize] at hlen
      cases fuel with
      | zero => simp at hfuel
      | succ fuel =>
        rw [parseClear_step hfirst (by omega) (clearExtension_sn hfirst hwaiting)]
        by_cases hlast : es = []
        · subst hlast
          refine ⟨_, rfl, ⟨?_, rfl, rfl, rfl, rfl, ?_, fun _ => ⟨rfl, rfl, rfl⟩⟩⟩
          · simp [Extension.encodeChain]
          · rintro entropy' rest ⟨⟩
            exact ⟨rfl, rfl⟩
        · have hmore : (es != []) = true := by simpa using hlast
          have hlen' : locals.hdrLen + (Extension.size (.sn entropy)).toNat +
              (Extension.encodeChain es).length + authTagLen ≤ len := by omega
          obtain ⟨r, heq, hparsed, hs, hr⟩ := parseClear_group env i hcon es hgroup hlast fuel (by simpa using hfuel)
            (s.takeClear env con i locals (.sn entropy)).1
            { (s.takeClear env con i locals (.sn entropy)).2 with
              hdrLen := locals.hdrLen + (Extension.size (.sn entropy)).toNat }
            hrest hlen'
          rw [if_pos hmore]
          refine ⟨r, heq, ⟨?_, ?_, hparsed.transmitted, hparsed.config, ?_, ?_, ?_⟩⟩
          · rw [hparsed.hdrLen, hsize]
            dsimp only
            omega
          · rw [hparsed.recognised, List.reverse_cons, List.append_assoc]
            rfl
          · rw [hparsed.spanTable, spanHeard_group hgroup, Function.update_eq_self]
            rfl
          · rintro entropy' rest ⟨⟩
            exact ⟨hs, hr⟩
          · intro hnone
            obtain ⟨e, es', rfl⟩ := List.exists_cons_of_ne_nil hlast
            exact absurd (hgroup e (by simp)) (hnone e (by simp))

structure HasHeader (msg : Mem) (len : Nat) (header : Bytes) (seq : UInt8) (clear : List Extension)
    (encrypted : Bool) : Prop where
  eq : header = leadBytes seq (clear != []) encrypted ++ Extension.encodeClear clear
  slice : msg.slice 0 header.length = header
  len : header.length + authTagLen ≤ len

theorem HasHeader.byte (h : HasHeader msg len header seq clear encrypted) {k : Nat} {b : UInt8}
    (hb : (leadBytes seq (clear != []) encrypted)[k]? = some b) : msg k = b := by
  refine Mem.eq_of_slice_zero h.slice ?_
  rw [h.eq, List.getElem?_append_left (List.getElem?_eq_some_iff.mp hb).1]
  exact hb

theorem HasHeader.length_eq (h : HasHeader msg len header seq clear encrypted) :
    header.length = 4 + (Extension.encodeChain (clear.take 2)).length +
      (Extension.encodeLast (clear.drop 2)).length := by
  rw [h.eq, Extension.encodeClear_eq]
  simp only [leadBytes, List.length_append, List.length_cons, List.length_nil]
  omega

theorem clearParsed_parseHeader (env : Env) (hcon : con.isMulticast = false)
    (h : HasHeader msg len header seq clear encrypted) (horderly : Extension.Orderly clear)
    (hexpects : s.Expects i clear) :
    ∃ r locals, s.parseHeader env con (some i) msg len = (true, r) ∧
      ClearParsed env i s locals (clear.take 2) r ∧ locals.hdrLen = 4 ∧ locals.mpan = none := by
  have hthree : msg 3 &&& encapsulationExtension ≠ 0 ↔ clear ≠ [] := by
    rw [h.byte (k := 3) rfl]
    cases hclear : clear != [] <;> cases encrypted <;> simp_all <;> decide
  have hlength := h.length_eq
  have hlen := h.len
  simp only [parseHeader]
  by_cases hnone : clear = []
  · rw [if_neg (fun hext => hthree.mp hext hnone), hnone]
    refine ⟨_, ⟨none, 4, (env.stack s.nDecrypt).1, (env.stack s.nDecrypt).2⟩, rfl,
      ⟨rfl, rfl, rfl, rfl, (Function.update_eq_self _ _).symm, ?_, fun _ => ⟨rfl, rfl, rfl⟩⟩, rfl, rfl⟩
    rintro entropy rest ⟨⟩
  · have hchain : msg.slice 4 (Extension.encodeChain (clear.take 2)).length = Extension.encodeChain (clear.take 2) := by
      have hslice := h.slice
      rw [hlength, Nat.add_assoc, Mem.slice_add, h.eq, Extension.encodeClear_eq] at hslice
      have hbehind := (List.append_inj hslice rfl).2
      rw [Nat.zero_add, Mem.slice_add] at hbehind
      exact (List.append_inj hbehind (by simp)).1
    rw [if_pos (hthree.mpr hnone)]
    have htail : Extension.Orderly (clear.take 2) := by
      intro e he
      refine horderly e ?_
      rcases clear with _ | ⟨e', _ | ⟨e'', es⟩⟩ <;> simp_all
    have hhead : s.Expects i (clear.take 2) := by
      rcases clear with _ | ⟨e', es⟩
      · exact hexpects
      · exact hexpects
    have hfuel : (clear.take 2).length ≤ len := by
      rw [List.length_take]
      omega
    have hroom : 4 + (Extension.encodeChain (clear.take 2)).length + authTagLen ≤ len := by omega
    obtain ⟨r, heq, hparsed⟩ := parseClear_chain env (s := { s with nDecrypt := s.nDecrypt + 1 }) hcon
      ⟨none, 4, (env.stack s.nDecrypt).1, (env.stack s.nDecrypt).2⟩ htail hhead
      (by simpa using hnone) hfuel hchain hroom
    exact ⟨r, _, heq, ⟨hparsed.hdrLen, hparsed.recognised, hparsed.transmitted, hparsed.config,
      hparsed.spanTable, hparsed.sNonce, hparsed.noGroup⟩, rfl, rfl⟩

end Clear

/-! ## The encrypted extensions -/

def MpanChain : Bytes → List (UInt8 × Block) → Prop
  | bytes, [] => bytes = []
  | bytes, mpan :: rest =>
    ∃ type tail, bytes = [19, type, mpan.1] ++ mpan.2.toList ++ tail ∧
      type &&& exthdrTypeMask = exthdrTypeMpan ∧ (type &&& exthdrMoreFlag ≠ 0 ↔ rest ≠ []) ∧
      MpanChain tail rest

def mpanExtension (mpan : UInt8 × Block) : Extension :=
  .mpan mpan.1 mpan.2

section Encrypted

variable (env : Env) {s : S2} {con : Connection} {i : SpanRef} {msg : Mem}

def mpanAt (msg : Mem) (ext : Nat) : UInt8 × Block :=
  (msg (ext + 2), Block.ofBytes (msg.slice (ext + 3) 16))

theorem findMpanByGroupId_true (ownerId : NodeId) (groupId : UInt8) :
    ∃ m, (s.findMpanByGroupId env ownerId groupId true).1 = some m := by
  unfold findMpanByGroupId
  split
  · exact ⟨_, rfl⟩
  · exact ⟨_, rfl⟩

theorem encryptedExtension_mpan (s : S2) (con : Connection) (i : SpanRef) {ext : Nat}
    (htype : msg (ext + 1) &&& exthdrTypeMask = exthdrTypeMpan) (hsize : msg ext = 19) :
    ∃ r, s.encryptedExtension env con (some i) msg ext = some r ∧
      r.1.recognised = mpanExtension (mpanAt msg ext) :: s.recognised := by
  obtain ⟨m, hm⟩ := findMpanByGroupId_true env (s := s) con.rNode (msg (ext + 2))
  have hrecognised := recognised_findMpanByGroupId env s con.rNode (msg (ext + 2)) true
  simp only [encryptedExtension, htype, hsize, if_true, hm]
  exact ⟨_, rfl, congrArg (mpanExtension (mpanAt msg ext) :: ·) hrecognised⟩

theorem encryptedExtension_cases {ext : Nat} {r : S2 × Connection}
    (h : s.encryptedExtension env con (some i) msg ext = some r) :
    (msg (ext + 1) &&& exthdrTypeMask = exthdrTypeMpan ∧ msg ext = 19 ∧
      r.1.recognised = mpanExtension (mpanAt msg ext) :: s.recognised) ∨
    r.1.recognised = s.recognised := by
  by_cases htype : msg (ext + 1) &&& exthdrTypeMask = exthdrTypeMpan
  · by_cases hsize : msg ext = 19
    · obtain ⟨r', heq, hrecognised⟩ :=
        encryptedExtension_mpan env s con i htype hsize
      rw [heq] at h
      cases h
      exact .inl ⟨htype, hsize, hrecognised⟩
    · simp [encryptedExtension, htype, hsize] at h
  · simp only [encryptedExtension, htype, if_false] at h
    split at h
    · cases h
    · cases h
      exact .inr rfl

theorem block_toList_ofBytes {bytes : Bytes} (h : bytes.length = 16) : (Block.ofBytes bytes).toList = bytes := by
  apply List.ext_getElem
  · simp [h]
  · intro k hk hk'
    simp [Block.ofBytes, hk']

theorem slice_eq_mpan {ext : Nat} (n : Nat) (hsize : msg ext = 19) : msg.slice ext (19 + n) =
      [19, msg (ext + 1), (mpanAt msg ext).1] ++ (mpanAt msg ext).2.toList ++ msg.slice (ext + 19) n := by
  have hinner : (mpanAt msg ext).2.toList = msg.slice (ext + 3) 16 :=
    block_toList_ofBytes (Mem.length_slice _ _ _)
  have hthree : msg.slice ext 3 = [19, msg (ext + 1), (mpanAt msg ext).1] := by
    rw [← hsize]
    rfl
  rw [hinner, ← hthree, Mem.slice_add, Mem.slice_add msg ext 3 16]

theorem mpanAt_of_chain {ext : Nat} {mpan : UInt8 × Block} {rest : List (UInt8 × Block)}
    (h : MpanChain (msg.slice ext (19 * (mpan :: rest).length)) (mpan :: rest)) :
    msg ext = 19 ∧ msg (ext + 1) &&& exthdrTypeMask = exthdrTypeMpan ∧
      (msg (ext + 1) &&& exthdrMoreFlag ≠ 0 ↔ rest ≠ []) ∧ mpanAt msg ext = mpan ∧
      MpanChain (msg.slice (ext + 19) (19 * rest.length)) rest := by
  obtain ⟨type, tail, hbytes, htype, hmore, htail⟩ := h
  have hsize : msg ext = 19 := Mem.eq_of_slice (i := 0) hbytes rfl
  have hone : msg (ext + 1) = type := Mem.eq_of_slice (i := 1) hbytes rfl
  have hlen : 19 * (mpan :: rest).length = 19 + 19 * rest.length := by
    simp only [List.length_cons]
    omega
  rw [hlen, slice_eq_mpan _ hsize] at hbytes
  obtain ⟨hfront, hback⟩ := List.append_inj hbytes (by simp)
  obtain ⟨hhead, hinner⟩ := List.append_inj hfront rfl
  have hgroup : (mpanAt msg ext).1 = mpan.1 := by simpa using (List.cons.inj (List.cons.inj hhead).2).2
  have hstate : (mpanAt msg ext).2 = mpan.2 := Vector.toList_inj.mp hinner
  rw [hone]
  exact ⟨hsize, htype, hmore, Prod.ext hgroup hstate, hback ▸ htail⟩

theorem parseEncrypted_chain (i : SpanRef) (msg : Mem) (base : Nat) {decryptLen : Nat}
    (mpans : List (UInt8 × Block)) (hne : mpans ≠ []) (fuel : Nat) (hfuel : mpans.length ≤ fuel) (s : S2) (con : Connection)
    (hdrLen : Nat) (hchain : MpanChain (msg.slice (base + hdrLen) (19 * mpans.length)) mpans)
    (hlen : hdrLen + 19 * mpans.length ≤ decryptLen) :
    ∃ s' con', parseEncrypted env (some i) msg base decryptLen fuel s con hdrLen =
        (true, s', con', hdrLen + 19 * mpans.length) ∧
      s'.recognised = (mpans.map mpanExtension).reverse ++ s.recognised := by
  induction mpans generalizing fuel s con hdrLen with
  | nil => exact absurd rfl hne
  | cons mpan rest ih =>
    obtain ⟨hsize, htype, hmore, hat, htail⟩ := mpanAt_of_chain hchain
    obtain ⟨r, heq, hrecognised⟩ := encryptedExtension_mpan env s con i htype hsize
    simp only [List.length_cons] at hlen hfuel ⊢
    have hnineteen : (19 : UInt8).toNat = 19 := rfl
    cases fuel with
    | zero => omega
    | succ fuel =>
      simp only [parseEncrypted, hsize, heq, hnineteen]
      rw [if_neg (by omega)]
      by_cases hlast : rest = []
      · rw [if_neg (fun hflag => hmore.mp hflag hlast)]
        refine ⟨r.1, r.2, ?_, ?_⟩
        · simp [hlast]
        · simp [hlast, hrecognised, hat]
      · rw [if_pos (hmore.mpr hlast)]
        obtain ⟨s', con', heq', hrecognised'⟩ := ih hlast fuel (by omega) r.1 r.2 (hdrLen + 19) htail (by omega)
        refine ⟨s', con', ?_, ?_⟩
        · rw [heq']
          simp only [Prod.mk.injEq, true_and]
          omega
        · rw [hrecognised', hrecognised, hat]
          simp

theorem mpanChain_parseEncrypted {base decryptLen hdrLen' : Nat} {s' : S2} {con' : Connection}
    (fuel : Nat) (s : S2) (con : Connection) (hdrLen : Nat)
    (h : parseEncrypted env (some i) msg base decryptLen fuel s con hdrLen = (true, s', con', hdrLen')) :
    ∃ mpans, s'.recognised = (mpans.map mpanExtension).reverse ++ s.recognised ∧
      hdrLen + 19 * mpans.length ≤ hdrLen' ∧ hdrLen' ≤ decryptLen ∧
      (hdrLen' = hdrLen + 19 * mpans.length →
        MpanChain (msg.slice (base + hdrLen) (19 * mpans.length)) mpans ∧ mpans ≠ []) := by
  induction fuel generalizing s con hdrLen with
  | zero => cases h
  | succ fuel ih =>
    simp only [parseEncrypted] at h
    split at h
    · cases h
    · rename_i hroom
      have hpos : (msg (base + hdrLen)).toNat ≠ 0 := fun hzero => hroom (.inr hzero)
      split at h
      · cases h
      · rename_i r heq
        have hnext : ∃ mpans, s'.recognised = (mpans.map mpanExtension).reverse ++ r.1.recognised ∧
            hdrLen + (msg (base + hdrLen)).toNat + 19 * mpans.length ≤ hdrLen' ∧
            hdrLen' ≤ decryptLen ∧
            (hdrLen' = hdrLen + (msg (base + hdrLen)).toNat + 19 * mpans.length →
              (msg (base + hdrLen + 1) &&& exthdrMoreFlag ≠ 0 ↔ mpans ≠ []) ∧
              MpanChain (msg.slice (base + (hdrLen + (msg (base + hdrLen)).toNat)) (19 * mpans.length)) mpans) := by
          split at h
          · rename_i hmore
            obtain ⟨mpans, hrecognised, hle, hend', hchain⟩ := ih r.1 r.2 _ h
            refine ⟨mpans, hrecognised, hle, hend', fun hend => ?_⟩
            obtain ⟨hbytes, hne⟩ := hchain hend
            exact ⟨⟨fun _ => hne, fun _ => hmore⟩, hbytes⟩
          · rename_i hmore
            cases h
            exact ⟨[], rfl, Nat.le_refl _, by omega, fun _ => ⟨⟨fun hflag => absurd hflag hmore,
              fun hne => absurd rfl hne⟩, rfl⟩⟩
        obtain ⟨mpans, hrecognised, hle, hend', hchain⟩ := hnext
        rcases encryptedExtension_cases env heq with ⟨htype, hsize, hhead⟩ | hskipped
        · have hnineteen : (msg (base + hdrLen)).toNat = 19 := by rw [hsize]; rfl
          rw [hnineteen] at hle hchain
          refine ⟨mpanAt msg (base + hdrLen) :: mpans, ?_, ?_, hend', fun hend => ⟨?_, by simp⟩⟩
          · rw [hrecognised, hhead]
            simp
          · simp only [List.length_cons]
            omega
          · simp only [List.length_cons] at hend ⊢
            obtain ⟨hmore, htail⟩ := hchain (by omega)
            have hsplit : 19 * (mpans.length + 1) = 19 + 19 * mpans.length := by omega
            rw [hsplit]
            exact ⟨msg (base + hdrLen + 1), _, slice_eq_mpan _ hsize, htype, hmore, htail⟩
        · refine ⟨mpans, by rw [hrecognised, hskipped], by omega, hend', fun hend => ?_⟩
          omega

end Encrypted

end ZipGateway.S2

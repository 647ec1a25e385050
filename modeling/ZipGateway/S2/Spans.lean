import ZipGateway.S2.Handler

/-!
# Which span entry is used

The entry of a connection is the first one in use that matches it. Looking it up allocates it, and
it then stays the entry of the connection as long as no other connection takes it away. After an
encapsulation was opened, that entry is in step with the peer.
-/

namespace ZipGateway.S2

def slot (table : SpanRef → Span) (con : Connection) : Option SpanRef :=
  (List.finRange spanTableSize).find? fun i => spanMatches con (table i)

def slotState (table : SpanRef → Span) (con : Connection) : SpanState :=
  match slot table con with
  | some i => (table i).state
  | none => .noSeq

section Slots

variable {table : SpanRef → Span} {con : Connection} {i : SpanRef}

theorem spanMatches_of_slot (h : slot table con = some i) : spanMatches con (table i) := by
  exact List.find?_some (p := fun j => spanMatches con (table j)) h

theorem spanMatches_of_slot_none (h : slot table con = none) (j : SpanRef) : spanMatches con (table j) = false := by
  have hnone := List.find?_eq_none.mp h j (List.mem_finRange j)
  simpa using hnone

theorem slotState_of_slot (h : slot table con = some i) : slotState table con = (table i).state := by
  unfold slotState
  rw [h]

theorem slot_congr {con' : Connection} (hl : con'.lNode = con.lNode) (hr : con'.rNode = con.rNode) :
    slot table con' = slot table con := by
  unfold slot spanMatches
  rw [hl, hr]

theorem slotState_congr {con' : Connection} (hl : con'.lNode = con.lNode)
    (hr : con'.rNode = con.rNode) : slotState table con' = slotState table con := by
  unfold slotState
  rw [slot_congr hl hr]

theorem slot_update {span : Span} (hspan : spanMatches con span)
    (hbefore : slot table con = some i ∨ slot table con = none) :
    slot (Function.update table i span) con = some i := by
  unfold slot
  rw [List.find?_eq_some_iff_append]
  rcases hbefore with hsome | hnone
  · obtain ⟨-, front, back, hlist, hfront⟩ := List.find?_eq_some_iff_append.mp hsome
    refine ⟨by simpa using hspan, front, back, hlist, fun j hj => ?_⟩
    have hfalse := hfront j hj
    have hne : j ≠ i := by
      rintro rfl
      simp [spanMatches_of_slot hsome] at hfalse
    simpa [Function.update_of_ne hne] using hfalse
  · obtain ⟨front, back, hlist⟩ := List.append_of_mem (List.mem_finRange i)
    refine ⟨by simpa using hspan, front, back, hlist, fun j hj => ?_⟩
    have hnodup := List.nodup_finRange spanTableSize
    rw [hlist, List.nodup_append] at hnodup
    have hne : j ≠ i := hnodup.2.2 j hj i List.mem_cons_self
    simpa [Function.update_of_ne hne] using spanMatches_of_slot_none hnone j

end Slots

section Lookup

variable (env : Env) (s : S2) (con : Connection)

theorem findSpanByNode_of_slot {i : SpanRef} (h : slot s.spanTable con = some i) :
    s.findSpanByNode env con = (i, s) := by
  unfold findSpanByNode
  unfold slot at h
  rw [h]

theorem slot_findSpanByNode : slot (s.findSpanByNode env con).2.spanTable con = some (s.findSpanByNode env con).1 := by
  cases hslot : slot s.spanTable con with
  | some i =>
    rw [findSpanByNode_of_slot env s con hslot]
    exact hslot
  | none =>
    have hfind := hslot
    unfold slot at hfind
    unfold findSpanByNode
    rw [hfind]
    refine slot_update ?_ (.inr hslot)
    simp [spanMatches]

theorem slotState_findSpanByNode :
    slotState (s.findSpanByNode env con).2.spanTable con = slotState s.spanTable con := by
  cases hslot : slot s.spanTable con with
  | some i => rw [findSpanByNode_of_slot env s con hslot]
  | none =>
    rw [slotState_of_slot (slot_findSpanByNode env s con)]
    have hfind := hslot
    unfold slot at hfind
    unfold findSpanByNode slotState
    rw [hfind, hslot]
    simp [setSpan]

theorem state_findSpanByNode : ((s.findSpanByNode env con).2.spanTable (s.findSpanByNode env con).1).state =
      slotState s.spanTable con := by
  rw [← slotState_findSpanByNode env s con]
  exact (slotState_of_slot (slot_findSpanByNode env s con)).symm

theorem peer_findSpanByNode : (s.findSpanByNode env con).2.peer = s.peer := by
  unfold findSpanByNode
  split <;> rfl

theorem usable_of_spanOk (h : (s.spanOk env con).1) :
    SpanState.usable (slotState (s.spanOk env con).2.spanTable con) := by
  simp only [spanOk, Bool.and_eq_true] at h ⊢
  rw [slotState_findSpanByNode, ← state_findSpanByNode env]
  exact h.1

end Lookup

/-! ## Nonce reports -/

section NonceReport

variable (env : Env) (s : S2)

theorem slot_update_entry {table : SpanRef → Span} {con : Connection} {i : SpanRef} {span : Span}
    (h : slot table con = some i) (hl : span.lnode = (table i).lnode)
    (hr : span.rnode = (table i).rnode) (hused : span.state ≠ .notUsed) :
    slot (Function.update table i span) con = some i := by
  refine slot_update ?_ (.inl h)
  have hmatches := spanMatches_of_slot h
  simp only [spanMatches, Bool.and_eq_true, bne_iff_ne] at hmatches ⊢
  rw [hl, hr]
  exact ⟨⟨hused, hmatches.1.2⟩, hmatches.2⟩

theorem slot_setSpan {s : S2} {con : Connection} {i : SpanRef} {span : Span}
    (h : slot s.spanTable con = some i) (hl : span.lnode = (s.spanTable i).lnode)
    (hr : span.rnode = (s.spanTable i).rnode) (hused : span.state ≠ .notUsed) :
    slot (s.setSpan i span).spanTable con = some i :=
  slot_update_entry h hl hr hused

@[simp]
theorem spanTable_setSpan_self (i : SpanRef) (span : Span) : (s.setSpan i span).spanTable i = span := by
  simp [setSpan]

theorem slotState_setSpan {s : S2} {con : Connection} {i : SpanRef} {span : Span}
    (h : slot s.spanTable con = some i) (hl : span.lnode = (s.spanTable i).lnode)
    (hr : span.rnode = (s.spanTable i).rnode) (hused : span.state ≠ .notUsed) :
    slotState (s.setSpan i span).spanTable con = span.state := by
  rw [slotState_of_slot (slot_setSpan h hl hr hused), spanTable_setSpan_self]

theorem state_ne_notUsed {s : S2} {con : Connection} {i : SpanRef}
    (h : slot s.spanTable con = some i) : (s.spanTable i).state ≠ .notUsed := by
  have hmatches := spanMatches_of_slot h
  simp only [spanMatches, Bool.and_eq_true, bne_iff_ne] at hmatches
  exact hmatches.1.1

theorem slot_verifySeq (con : Connection) (seq : UInt8) :
    slot (s.verifySeq env con seq).2.spanTable con = some (s.findSpanByNode env con).1 := by
  have hslot := slot_findSpanByNode env s con
  simp only [verifySeq]
  split
  · exact slot_setSpan hslot rfl rfl (state_ne_notUsed hslot)
  · exact hslot

theorem slotState_verifySeq (con : Connection) (seq : UInt8) :
    slotState (s.verifySeq env con seq).2.spanTable con = slotState s.spanTable con := by
  rw [slotState_of_slot (slot_verifySeq env s con seq), ← state_findSpanByNode env]
  simp only [verifySeq]
  split <;> simp

theorem peer_verifySeq (con : Connection) (seq : UInt8) : (s.verifySeq env con seq).2.peer = s.peer := by
  simp only [verifySeq]
  split <;> exact peer_findSpanByNode env s con

theorem spanTable_setNodeMos (node : NodeId) : (s.setNodeMos node).spanTable = s.spanTable := by
  unfold setNodeMos
  repeat' split
  all_goals rfl

theorem peer_setNodeMos (node : NodeId) : (s.setNodeMos node).peer = s.peer := by
  unfold setNodeMos
  repeat' split
  all_goals rfl

theorem spanTable_storeMos (buf : Mem) (len : Nat) : (s.storeMos buf len).spanTable = s.spanTable := by
  unfold storeMos
  split
  · exact spanTable_setNodeMos s _
  · rfl

theorem peer_storeMos (buf : Mem) (len : Nat) : (s.storeMos buf len).peer = s.peer := by
  unfold storeMos
  split
  · exact peer_setNodeMos s _
  · rfl

theorem peer_storeNonce (i : SpanRef) (buf : Mem) (len : Nat) : (s.storeNonce i buf len).peer = s.peer := by
  unfold storeNonce
  split <;> rfl

theorem slotState_storeNonce {s : S2} {con : Connection} {i : SpanRef}
    (h : slot s.spanTable con = some i) (buf : Mem) (len : Nat) :
    slotState (s.storeNonce i buf len).spanTable con =
      if len ≥ 4 + 16 ∧ buf 3 &&& nonceReportSos ≠ 0 then .sosRemoteNonce
      else slotState s.spanTable con := by
  unfold storeNonce
  split
  · exact slotState_setSpan h rfl rfl (by simp)
  · rfl

theorem peer_registerNonce (buf : Mem) (len : Nat) : (s.registerNonce env buf len).2.peer = s.peer := by
  simp only [registerNonce]
  split
  · rw [peer_storeMos, peer_storeNonce, peer_findSpanByNode, peer_verifySeq]
  · exact peer_verifySeq env s s.peer (buf 2)

/-- An accepted report puts the span in step with the peer's entropy when it carries any; otherwise
the span is what it was, whatever the flags say. -/
theorem slotState_registerNonce {buf : Mem} {len : Nat} (hflags : (s.registerNonce env buf len).1 ≠ 0) :
    slotState (s.registerNonce env buf len).2.spanTable s.peer =
      if len ≥ 4 + 16 ∧ buf 3 &&& nonceReportSos ≠ 0 then .sosRemoteNonce
      else slotState s.spanTable s.peer := by
  have hpeer := peer_verifySeq env s s.peer (buf 2)
  have hslot := slot_verifySeq env s s.peer (buf 2)
  have hfind := findSpanByNode_of_slot env (s.verifySeq env s.peer (buf 2)).2 s.peer hslot
  simp only [registerNonce] at hflags ⊢
  split at hflags
  · rename_i hseq
    rw [if_pos hseq]
    dsimp only
    rw [spanTable_storeMos, hpeer, hfind, slotState_storeNonce hslot, slotState_verifySeq]
  · exact absurd rfl hflags

theorem spanTable_dropPayload (flags : UInt8) : (s.dropPayload flags).spanTable = s.spanTable := by
  unfold dropPayload
  split <;> rfl

theorem peer_dropPayload (flags : UInt8) : (s.dropPayload flags).peer = s.peer := by
  unfold dropPayload
  split <;> rfl

end NonceReport

/-! ## Encapsulations -/

section Encapsulation

variable (env : Env)

theorem spanTable_findMpanByGroupId (s : S2) (ownerId : NodeId) (groupId : UInt8) (createNew : Bool) :
    (s.findMpanByGroupId env ownerId groupId createNew).2.spanTable = s.spanTable := by
  unfold findMpanByGroupId
  split
  · rfl
  · split <;> rfl

theorem peer_findMpanByGroupId (s : S2) (ownerId : NodeId) (groupId : UInt8) (createNew : Bool) :
    (s.findMpanByGroupId env ownerId groupId createNew).2.peer = s.peer := by
  unfold findMpanByGroupId
  split
  · rfl
  · split <;> rfl

theorem slot_clearExtension {s : S2} {locals : Locals} {con : Connection} {i : SpanRef} {msg : Mem}
    {ext : Nat} {r : S2 × Locals} (h : slot s.spanTable con = some i)
    (hr : s.clearExtension env locals con (some i) msg ext = some r) :
    slot r.1.spanTable con = some i := by
  simp only [clearExtension] at hr
  split_ifs at hr
  all_goals
    cases hr
  · exact slot_setSpan h rfl rfl (by simp)
  · exact h
  · exact (spanTable_findMpanByGroupId env s _ _ _).symm ▸ h
  · exact (spanTable_setNodeMos s con.rNode).symm ▸ h
  · exact h

theorem slot_parseClear {con : Connection} {i : SpanRef} (msg : Mem) (len fuel : Nat) {s : S2}
    (locals : Locals) (h : slot s.spanTable con = some i) :
    slot (parseClear env con (some i) msg len fuel s locals).2.1.spanTable con = some i := by
  induction fuel generalizing s locals with
  | zero => exact h
  | succ fuel ih =>
    simp only [parseClear]
    split
    · exact h
    · split
      · exact h
      · rename_i r hr
        have hnext := slot_clearExtension env h hr
        split
        · exact ih _ hnext
        · exact hnext

theorem slot_attemptClass {s : S2} {con : Connection} {i : SpanRef} (aad text : Bytes)
    (h : slot s.spanTable con = some i) :
    slot (s.attemptClass env i aad text).2.2.spanTable con = some i := by
  simp only [attemptClass, drawNonce]
  split
  · exact slot_setSpan h rfl rfl (state_ne_notUsed h)
  · exact h

theorem state_attemptClass (s : S2) (i : SpanRef) (aad text : Bytes) :
    ((s.attemptClass env i aad text).2.2.spanTable i).state = (s.spanTable i).state := by
  simp only [attemptClass, drawNonce]
  split
  · simp [log]
  · rfl

def InStep (con : Connection) (i : SpanRef) (con' : Connection) (s : S2) : Prop :=
  con'.lNode = con.lNode ∧ con'.rNode = con.rNode ∧ slot s.spanTable con = some i ∧ (s.spanTable i).state = .negotiated

theorem InStep.slotState_eq {con con' : Connection} {i : SpanRef} {s : S2}
    (h : InStep con i con' s) : slotState s.spanTable con' = .negotiated := by
  obtain ⟨hl, hr, hslot, hstate⟩ := h
  rw [slotState_congr hl hr, slotState_of_slot hslot, hstate]

theorem inStep_acceptSinglecast {s : S2} {con : Connection} {i : SpanRef} (mpan : Option MpanRef)
    (h : slot s.spanTable con = some i) :
    InStep con i (s.acceptSinglecast con i mpan).1 (s.acceptSinglecast con i mpan).2 := by
  have hslot : slot (s.setSpan i { s.spanTable i with state := .negotiated }).spanTable con =
      some i := slot_setSpan h rfl rfl (by simp)
  have hstate : ((s.setSpan i { s.spanTable i with state := .negotiated }).spanTable i).state =
      .negotiated := by
    rw [spanTable_setSpan_self]
  unfold acceptSinglecast
  cases mpan with
  | none => exact ⟨rfl, rfl, hslot, hstate⟩
  | some m =>
    dsimp only
    split
    · unfold gotEncMsgMos
      split <;> exact ⟨rfl, rfl, hslot, hstate⟩
    · exact ⟨rfl, rfl, hslot, hstate⟩

theorem inStep_tryClasses {locals : Locals} {con : Connection} {i : SpanRef} {aad : Bytes} {n : Nat}
    {s : S2} {text : Bytes} (h : slot s.spanTable con = some i)
    (hlen : (tryClasses env locals con i aad n s text).1 ≠ 0) :
    InStep con i (tryClasses env locals con i aad n s text).2.2.1 (tryClasses env locals con i aad n s text).2.2.2 := by
  induction n generalizing s text with
  | zero => exact absurd rfl hlen
  | succ n ih =>
    have hattempt := slot_attemptClass env aad text h
    simp only [tryClasses] at hlen ⊢
    split at hlen
    · rename_i hfound
      rw [if_pos hfound]
      exact inStep_acceptSinglecast locals.mpan hattempt
    · rename_i hfound
      rw [if_neg hfound]
      split at hlen
      · exact absurd rfl hlen
      · rename_i hretry
        rw [if_neg hretry]
        refine ih (slot_setSpan hattempt rfl rfl ?_) hlen
        rw [state_attemptClass]
        exact state_ne_notUsed h

theorem encryptedExtension_frame {s : S2} {con : Connection} {span : Option SpanRef} {msg : Mem}
    {ext : Nat} {r : S2 × Connection}
    (hr : s.encryptedExtension env con span msg ext = some r) :
    r.1.spanTable = s.spanTable ∧ r.1.peer = s.peer ∧ r.2.lNode = con.lNode ∧ r.2.rNode = con.rNode := by
  unfold encryptedExtension at hr
  split at hr
  · cases span with
    | none => cases hr
    | some i =>
      dsimp only at hr
      split at hr
      · split at hr
        · cases hr
          exact ⟨spanTable_findMpanByGroupId env s _ _ _, peer_findMpanByGroupId env s _ _ _,
            rfl, rfl⟩
        · cases hr
      · cases hr
  · split at hr
    · cases hr
    · cases hr
      exact ⟨rfl, rfl, rfl, rfl⟩

theorem parseEncrypted_frame (span : Option SpanRef) (msg : Mem) (base decryptLen fuel : Nat)
    (s : S2) (con : Connection) (hdrLen : Nat) :
    let r := parseEncrypted env span msg base decryptLen fuel s con hdrLen
    r.2.1.spanTable = s.spanTable ∧ r.2.1.peer = s.peer ∧ r.2.2.1.lNode = con.lNode ∧ r.2.2.1.rNode = con.rNode := by
  induction fuel generalizing s con hdrLen with
  | zero => exact ⟨rfl, rfl, rfl, rfl⟩
  | succ fuel ih =>
    simp only [parseEncrypted]
    split
    · exact ⟨rfl, rfl, rfl, rfl⟩
    · split
      · exact ⟨rfl, rfl, rfl, rfl⟩
      · rename_i r hr
        obtain ⟨htable, hpeer, hl, hrr⟩ := encryptedExtension_frame env hr
        split
        · obtain ⟨htable', hpeer', hl', hrr'⟩ := ih r.1 r.2 _
          exact ⟨htable'.trans htable, hpeer'.trans hpeer, hl'.trans hl, hrr'.trans hrr⟩
        · exact ⟨htable, hpeer, hl, hrr⟩

theorem finishDecrypt_frame {span : Option SpanRef} {mpan : Option MpanRef} {msg : Mem}
    {hdrLen : Nat} {aad : Bytes} {decryptLen : Nat} {text : Bytes} {con : Connection} {s : S2}
    (hrc : (finishDecrypt env span mpan msg hdrLen aad decryptLen text con s).rc = .authOk) :
    let d := finishDecrypt env span mpan msg hdrLen aad decryptLen text con s
    decryptLen ≠ 0 ∧ d.s.spanTable = s.spanTable ∧ d.s.peer = s.peer ∧ d.con.lNode = con.lNode ∧
      d.con.rNode = con.rNode := by
  simp only [finishDecrypt] at hrc ⊢
  split at hrc
  · cases hrc
  · rename_i hdecrypt
    have hlen : decryptLen ≠ 0 := fun h0 => hdecrypt (.inl h0)
    rw [if_neg hdecrypt]
    split at hrc
    · rename_i hext
      simp only [hext, ne_eq, not_false_eq_true, if_true]
      have hframe := parseEncrypted_frame env span (msg.write hdrLen text) hdrLen decryptLen decryptLen s con 0
      split
      · exact ⟨hlen, hframe⟩
      · exact ⟨hlen, hframe⟩
    · rename_i hext
      simp only [hext, if_false]
      exact ⟨hlen, rfl, rfl, rfl, rfl⟩

theorem inStep_decryptSinglecast {s : S2} {locals : Locals} {con : Connection} {i : SpanRef}
    {aad text : Bytes} (h : slot s.spanTable con = some i)
    (hlen : (s.decryptSinglecast env locals con i aad text).1 ≠ 0) :
    InStep con i (s.decryptSinglecast env locals con i aad text).2.2.1
      (s.decryptSinglecast env locals con i aad text).2.2.2 := by
  unfold decryptSinglecast at *
  refine inStep_tryClasses env ?_ hlen
  split <;> exact h

theorem inStep_decryptSpan {s : S2} {locals : Locals} {con : Connection} {i : SpanRef} {msg : Mem}
    {len : Nat} (h : slot s.spanTable con = some i)
    (hrc : (s.decryptSpan env locals con i msg len).rc = .authOk) :
    InStep con i (s.decryptSpan env locals con i msg len).con (s.decryptSpan env locals con i msg len).s := by
  simp only [decryptSpan] at hrc ⊢
  split at hrc
  · rename_i hstate
    rw [if_pos hstate]
    obtain ⟨hlen, htable, -, hl, hr⟩ := finishDecrypt_frame env hrc
    obtain ⟨hl', hr', hslot', hstate'⟩ := inStep_decryptSinglecast env h hlen
    refine ⟨hl.trans hl', hr.trans hr', ?_, ?_⟩
    · rw [htable]
      exact hslot'
    · rw [htable]
      exact hstate'
  · cases hrc

theorem inStep_decryptMsg {s : S2} {con : Connection} {msg : Mem} {len : Nat}
    (hcon : con.isMulticast = false)
    (hrc : (s.decryptMsg env con msg len).rc = .authOk) :
    ∃ i, InStep con i (s.decryptMsg env con msg len).con (s.decryptMsg env con msg len).s := by
  simp only [decryptMsg, hcon, Bool.false_eq_true, if_false] at hrc ⊢
  split at hrc
  · cases hrc
  · rename_i hlen
    rw [if_neg hlen]
    split at hrc
    · rename_i hseq
      rw [if_pos hseq]
      have hslot := slot_findSpanByNode env (s.verifySeq env con (msg 2)).2 con
      generalize (s.verifySeq env con (msg 2)).2.findSpanByNode env con = found at *
      refine ⟨found.1, ?_⟩
      have hparsed : slot (found.2.parseHeader env con (some found.1) msg len).2.1.spanTable con = some found.1 := by
        simp only [parseHeader]
        split
        · exact slot_parseClear env msg len len _ hslot
        · exact hslot
      simp only [decryptBody] at hrc ⊢
      split at hrc
      · rename_i hheader
        rw [if_pos hheader]
        exact inStep_decryptSpan env hparsed hrc
      · cases hrc
    · cases hrc

/-! A multicast frame uses no span. -/

theorem clearExtension_frame {s : S2} {locals : Locals} {con : Connection} {msg : Mem} {ext : Nat}
    {r : S2 × Locals} (hr : s.clearExtension env locals con none msg ext = some r) :
    r.1.spanTable = s.spanTable ∧ r.1.peer = s.peer := by
  simp only [clearExtension] at hr
  split_ifs at hr
  all_goals
    cases hr
  · exact ⟨rfl, rfl⟩
  · exact ⟨spanTable_findMpanByGroupId env s _ _ _, peer_findMpanByGroupId env s _ _ _⟩
  · exact ⟨spanTable_setNodeMos s _, peer_setNodeMos s _⟩
  · exact ⟨rfl, rfl⟩

theorem parseClear_frame (con : Connection) (msg : Mem) (len fuel : Nat) (s : S2) (locals : Locals) :
    let r := parseClear env con none msg len fuel s locals
    r.2.1.spanTable = s.spanTable ∧ r.2.1.peer = s.peer := by
  induction fuel generalizing s locals with
  | zero => exact ⟨rfl, rfl⟩
  | succ fuel ih =>
    simp only [parseClear]
    split
    · exact ⟨rfl, rfl⟩
    · split
      · exact ⟨rfl, rfl⟩
      · rename_i r hr
        obtain ⟨htable, hpeer⟩ := clearExtension_frame env hr
        split
        · obtain ⟨htable', hpeer'⟩ := ih r.1 { r.2 with hdrLen := _ }
          exact ⟨htable'.trans htable, hpeer'.trans hpeer⟩
        · exact ⟨htable, hpeer⟩

theorem decryptMsg_frame {s : S2} {con : Connection} {msg : Mem} {len : Nat} (hcon : con.isMulticast)
    (hrc : (s.decryptMsg env con msg len).rc = .authOk) :
    let d := s.decryptMsg env con msg len
    d.s.spanTable = s.spanTable ∧ d.s.peer = s.peer ∧ d.con.rNode = con.rNode := by
  simp only [decryptMsg, hcon, if_true] at hrc ⊢
  split at hrc
  · cases hrc
  · rename_i hlen
    rw [if_neg hlen]
    have hheader : (s.parseHeader env con none msg len).2.1.spanTable = s.spanTable ∧
        (s.parseHeader env con none msg len).2.1.peer = s.peer := by
      simp only [parseHeader]
      split
      · exact parseClear_frame env con msg len len _ _
      · exact ⟨rfl, rfl⟩
    simp only [decryptBody] at hrc ⊢
    split at hrc
    · rename_i hok
      rw [if_pos hok]
      simp only [decryptGroup] at hrc ⊢
      split at hrc
      · rename_i m hm
        simp only [hm]
        split at hrc
        · rename_i hset
          rw [if_pos hset]
          rw [hm] at hrc
          obtain ⟨-, htable, hpeer, -, hr⟩ := finishDecrypt_frame env hrc
          exact ⟨htable.trans hheader.1, hpeer.trans hheader.2, hr⟩
        · cases hrc
      · cases hrc
    · cases hrc

end Encapsulation

end ZipGateway.S2

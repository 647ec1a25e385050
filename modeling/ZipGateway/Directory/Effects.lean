import ZipGateway.Directory.Frame

/-!
# The callbacks and events, and what they can do

The callbacks write what a node has said and go on with the interview; so do the timers and most of the
events. `step_moves` says so for all inputs but those that add or remove entries or endpoints, set a node
failing, or start the directory again.
-/

namespace ZipGateway.Directory

open State

section Callbacks

variable {P : Ref → Prop} {x : Prop} {d d' : State} {env : Env} {n : Node} {p : Endpoint}

/-! ### Requests for a node -/

section ForNode

variable (h : Quiet P x d d') (hn : P (.node n.addr)) (hx : Failing d n.addr → x)

include h hn hx

theorem quiet_probeVendorCallback (frame : Option Bytes) : Quiet P x d (d'.probeVendorCallback n frame) := by
  unfold State.probeVendorCallback
  refine Quiet.goto ?_ (by decide) hx hn
  split
  · exact h.modifyNode _ _ fun m => ⟨rfl, .inl ⟨rfl, rfl⟩⟩
  · exact h

theorem quiet_capWakeUpCallback (frame : Option Bytes) : Quiet P x d (d'.capWakeUpCallback n frame) := by
  unfold State.capWakeUpCallback
  split
  · refine Quiet.goto ?_ (by decide) hx hn
    exact h.modifyNode _ _ fun m => ⟨rfl, .inl ⟨rfl, rfl⟩⟩
  · exact h.goto (by decide) hx hn

theorem quiet_probeWakeupCallback (frame : Option Bytes) : Quiet P x d (d'.probeWakeupCallback n frame) := by
  unfold State.probeWakeupCallback
  refine Quiet.goto ?_ (by decide) hx hn
  split
  · split
    · exact h.modifyNode _ _ fun m => ⟨rfl, .inl ⟨rfl, rfl⟩⟩
    · exact h
  · exact h

end ForNode

/-! ### Requests for an endpoint -/

section ForEndpoint

variable (h : Quiet P x d d') (hp : P (.ep p.addr))

include h hp

theorem quiet_aggregatedMembersCallback (frame : Option Bytes) :
    Quiet P x d (d'.aggregatedMembersCallback p frame) := by
  unfold State.aggregatedMembersCallback
  split
  · exact h
  · refine Quiet.epGoto ?_ hp
    split
    · exact h.modifyEp _ _ fun _ => ⟨rfl, rfl⟩
    · exact h

theorem quiet_capabilityCallback (frame : Option Bytes) : Quiet P x d (d'.capabilityCallback env p frame) := by
  unfold State.capabilityCallback
  split
  · split_ifs
    · refine Quiet.epGoto ?_ hp
      exact h.modifyEp _ _ fun _ => ⟨rfl, rfl⟩
    · refine Quiet.epGoto ?_ hp
      exact h.modifyEp _ _ fun _ => ⟨rfl, rfl⟩
    · exact h.epGoto hp
  · exact h.epGoto hp

theorem quiet_zwavePlusInfoCallback (frame : Option Bytes) : Quiet P x d (d'.zwavePlusInfoCallback n p frame) := by
  unfold State.zwavePlusInfoCallback
  refine Quiet.epGoto ?_ hp
  split
  · rename_i cmd
    have hicons : Quiet P x d (d'.modifyEp p.addr fun p =>
        { p with installerIconId := word cmd 5, userIconId := word cmd 7 }) :=
      h.modifyEp _ _ fun _ => ⟨rfl, rfl⟩
    dsimp only
    split_ifs
    · exact hicons.modifyNode _ _ fun m => ⟨rfl, .inl ⟨rfl, rfl⟩⟩
    · exact hicons
    · exact h
  · exact h

theorem quiet_secureCommandsCallback (frame : Option Bytes) :
    Quiet P x d (d'.secureCommandsCallback env n p frame) := by
  unfold State.secureCommandsCallback
  dsimp only
  -- The flags are cleared first, then the commands are stored, then the flag is set.
  have hclear : Quiet P x d (if p.endpointId = 0 ∧ n.propertiesFlags &&& rdNodeFlagAddedByMe = 0 ∧
      n.propertiesFlags &&& rdNodeFlagJustAdded ≠ 0 then
      d'.modifyNode n.addr fun n => { n with securityFlags := n.securityFlags &&& ~~~securityFlag p.state }
      else d') := by
    split_ifs
    · exact h.modifyNode _ _ fun m => ⟨rfl, .inl ⟨rfl, rfl⟩⟩
    · exact h
  generalize (if p.endpointId = 0 ∧ n.propertiesFlags &&& rdNodeFlagAddedByMe = 0 ∧
      n.propertiesFlags &&& rdNodeFlagJustAdded ≠ 0 then
      d'.modifyNode n.addr fun n => { n with securityFlags := n.securityFlags &&& ~~~securityFlag p.state }
      else d') = d₁ at hclear ⊢
  have hgoto : ∀ d₂, Quiet P x d d₂ → Quiet P x d
      (if p.endpointId > 0 ∨ p.state = .probeSec0Info then d₂.epGoto p.addr .probeVersion
        else d₂.epGoto p.addr p.state.next) := by
    intro d₂ hset
    split_ifs
    · exact hset.epGoto hp
    · exact hset.epGoto hp
  cases frame with
  | none => exact hgoto d₁ hclear
  | some cmd =>
    refine hgoto _ ?_
    have hinfo : Quiet P x d (if (if p.state = .probeSec0Info then 3 else 2) < cmd.length ∧ env.allocates then
        d₁.modifyEp p.addr fun q =>
          { q with info := .ofBytes (q.info.val ++ [0xF1, 0x00] ++
              cmd.drop (if p.state = .probeSec0Info then 3 else 2)) } else d₁) := by
      apply iteInduction
      · exact fun _ => hclear.modifyEp _ _ fun _ => ⟨rfl, rfl⟩
      · exact fun _ => hclear
    dsimp only
    split
    · exact hinfo.modifyNode _ _ fun m => ⟨rfl, .inl ⟨rfl, rfl⟩⟩
    · exact hinfo

theorem quiet_ccVersionCallback (s : Pcvs) (frame : Option Bytes) : Quiet P x d (d'.ccVersionCallback n p s frame) := by
  unfold State.ccVersionCallback
  split
  · split
    · refine quiet_pcvGoto ?_ hp _ _
      refine h.modifyNode _ _ fun m => ?_
      unfold NodeHeader.setCcVersion
      split
      · exact NodeStep.refl x m
      · exact ⟨rfl, .inl ⟨rfl, rfl⟩⟩
    · refine quiet_pcvGoto ?_ hp _ _
      exact h.modifyNode _ _ fun m => ⟨rfl, .inl ⟨rfl, rfl⟩⟩
  · refine quiet_pcvGoto ?_ hp _ _
    exact h.modifyNode _ _ fun m => ⟨rfl, .inl ⟨rfl, rfl⟩⟩

theorem quiet_versionCapabilitiesCallback (s : Pcvs) (frame : Option Bytes) :
    Quiet P x d (d'.versionCapabilitiesCallback n p s frame) := by
  unfold State.versionCapabilitiesCallback
  split <;>
    · refine quiet_pcvGoto ?_ hp _ _
      exact h.modifyNode _ _ fun m => ⟨rfl, .inl ⟨rfl, rfl⟩⟩

theorem quiet_versionZwaveSoftwareCallback (s : Pcvs) (frame : Option Bytes) :
    Quiet P x d (d'.versionZwaveSoftwareCallback n p s frame) := by
  unfold State.versionZwaveSoftwareCallback
  split
  · refine quiet_pcvGoto ?_ hp _ _
    exact h.modifyNode _ _ fun m => ⟨rfl, .inl ⟨rfl, rfl⟩⟩
  · exact quiet_pcvGoto h hp _ _

theorem quiet_epCallback (kind : RequestKind) (frame : Option Bytes) :
    Quiet P x d (d'.epCallback env kind n p frame) := by
  unfold State.epCallback
  split
  · exact quiet_aggregatedMembersCallback h hp frame
  · exact quiet_capabilityCallback h hp frame
  · exact quiet_secureCommandsCallback h hp frame
  · exact quiet_zwavePlusInfoCallback h hp frame
  · exact quiet_ccVersionCallback h hp _ frame
  · exact quiet_versionCapabilitiesCallback h hp _ frame
  · exact quiet_versionZwaveSoftwareCallback h hp _ frame
  · exact h

end ForEndpoint

end Callbacks

/-! ### Pointers that may be kept -/

theorem addr_of_node? {d : State} {a : Addr} {n : Node} (h : d.node? a = some n) : n.addr = a := by
  simpa using List.find?_some h

theorem mem_of_node? {d : State} {a : Addr} {n : Node} (h : d.node? a = some n) : n ∈ d.heap :=
  List.mem_of_find?_eq_some h

theorem ep?_spec {d : State} {e : Addr} {n : Node} {p : Endpoint} (h : d.ep? e = some (n, p)) :
    n ∈ d.heap ∧ p ∈ n.endpoints ∧ p.addr = e := by
  obtain ⟨m, hm, hfound⟩ := List.exists_of_findSome?_eq_some h
  rw [Option.map_eq_some_iff] at hfound
  obtain ⟨q, hq, heq⟩ := hfound
  rw [Prod.mk.injEq] at heq
  obtain ⟨rfl, rfl⟩ := heq
  exact ⟨hm, List.mem_of_find?_eq_some hq, by simpa using List.find?_some hq⟩

/-- The pointers that `P` allows are enough to go on with: from an entry to its endpoints, from an
endpoint to its entry, and to every entry of the database. -/
structure Closed (P : Ref → Prop) (d : State) : Prop where
  refs : ∀ r ∈ d.refs, P r
  endpoints : ∀ {a : Addr} {n : Node}, d.node? a = some n → P (.node a) → ∀ p ∈ n.endpoints, P (.ep p.addr)
  owner : ∀ {e : Addr} {n : Node} {p : Endpoint}, d.ep? e = some (n, p) → P (.ep e) → P (.node n.addr)
  raw : ∀ {node : NodeId} {n : Node}, d.nodeGetRaw node = some n → P (.node n.addr)

section Events

variable {P : Ref → Prop} {x : Prop} {d d' : State} {env : Env}

/-! ### Requests -/

theorem quiet_nodeCallback (h : Quiet P x d d') {kind : RequestKind} {n : Node} (hn : P (.node n.addr))
    (hx : Failing d n.addr → x) {frame : Option Bytes}
    (hframe : frame = none ∨ ¬(kind = .epGet ∧ n.state = .enumerateEndpoints) ∧
      ¬(kind = .epFind ∧ n.state = .findEndpoints)) :
    Quiet P x d (d'.nodeCallback env kind n frame).1 ∧ (d'.nodeCallback env kind n frame).2 = false := by
  have hclear := h.clearFindReportTimer
  unfold State.nodeCallback
  split
  · exact ⟨quiet_probeVendorCallback h hn hx frame, rfl⟩
  · refine ⟨?_, rfl⟩
    unfold State.epGetCallback
    split
    · rw [if_neg (fun hstate => by simp [hstate] at hframe)]
      exact h.goto (by decide) hx hn
    · exact h.goto (by decide) hx hn
  · unfold State.epFindCallback
    dsimp only
    split
    · rw [if_neg (fun hstate => by simp [hstate] at hframe)]
      exact ⟨hclear.goto (by decide) hx hn, rfl⟩
    · exact ⟨hclear.goto (by decide) hx hn, rfl⟩
  · exact ⟨quiet_capWakeUpCallback h hn hx frame, rfl⟩
  · exact ⟨quiet_probeWakeupCallback h hn hx frame, rfl⟩
  · exact ⟨h, rfl⟩

theorem quiet_requestCallback (env : Env) (h : Quiet P x d d') (hheap : d'.heap = d.heap)
    {r : Request} (hr : P r.ref) (hx : r.kind.forNode = true → Failing d r.user → x)
    (frame : Option Bytes)
    (hframe : frame = none ∨ ∀ n, d.node? r.user = some n → ¬(r.kind = .epGet ∧ n.state = .enumerateEndpoints) ∧
        ¬(r.kind = .epFind ∧ n.state = .findEndpoints)) :
    Quiet P x d (d'.requestCallback env r frame).1 ∧ (d'.requestCallback env r frame).2 = false := by
  have hnode : d'.node? = d.node? := by
    funext a
    simp only [State.node?, hheap]
  have hep : d'.ep? = d.ep? := by
    funext e
    simp only [State.ep?, hheap]
  unfold State.requestCallback
  split
  · rename_i hfor
    rw [hnode]
    split
    · rename_i n hn
      have haddr := addr_of_node? hn
      refine quiet_nodeCallback h ?_ ?_ (hframe.imp id fun h => h n hn)
      · rw [haddr]
        simpa [Request.ref, hfor] using hr
      · rw [haddr]
        exact hx hfor
    · exact ⟨h, rfl⟩
  · rename_i hfor
    rw [hep]
    split
    · rename_i n p hp
      refine ⟨quiet_epCallback h ?_ r.kind frame, rfl⟩
      rw [(ep?_spec hp).2.2]
      simpa [Request.ref, hfor] using hr
    · exact ⟨h, rfl⟩

theorem mem_refs_of_request {k : Nat} {r : Request} (h : d.requests[k]? = some r) : r.ref ∈ d.refs := by
  have hmem : r.ref ∈ d.requests.map Request.ref :=
    List.mem_map_of_mem (List.mem_of_getElem? h)
  simp only [State.refs, State.held, State.pending, List.mem_append]
  tauto

theorem quiet_eraseRequest (h : Quiet P x d d') (k : Nat) :
    Quiet P x d { d' with requests := d'.requests.eraseIdx k } := by
  refine h.keep rfl rfl rfl rfl fun r hr => .inl ?_
  have hsub : r ∈ (d'.requests.eraseIdx k).map Request.ref → r ∈ d'.requests.map Request.ref :=
    fun hmem => (List.eraseIdx_sublist _ _).map _ |>.subset hmem
  simp only [State.refs, State.held, State.pending, List.mem_append] at hr ⊢
  tauto

theorem quiet_requestTimeout (h : Quiet P x d d') (hheap : d'.heap = d.heap)
    (hrequests : d'.requests = d.requests) (hclosed : Closed P d) (k : Nat)
    (hx : ∀ r, d.requests[k]? = some r → r.kind.forNode = true → Failing d r.user → x) :
    Quiet P x d (d'.requestTimeout env k) := by
  unfold State.requestTimeout
  split
  · rename_i r hr
    rw [hrequests] at hr
    refine (quiet_requestCallback env (quiet_eraseRequest h k) hheap ?_ (hx r hr) none (.inl rfl)).1
    exact hclosed.refs _ (mem_refs_of_request hr)
  · exact h

theorem quiet_requestTransmitted (hclosed : Closed P d) (k : Nat) (ok : Bool)
    (hx : ∀ r, d.requests[k]? = some r → r.kind.forNode = true → ¬(ok = true ∧ (!r.waiting) = true) →
      Failing d r.user → x) :
    Quiet P x d (d.requestTransmitted env k ok) := by
  have hrefl := Quiet.refl P x d
  unfold State.requestTransmitted
  split
  · rename_i r hr
    split_ifs with hsent
    · refine hrefl.keep rfl rfl rfl rfl fun r' hr' => .inr ?_
      have hmem : r' ∈ (d.requests.set k { r with waiting := true }).map Request.ref →
          r' ∈ d.requests.map Request.ref := by
        rw [List.mem_map]
        rintro ⟨q, hq, rfl⟩
        obtain hq | rfl := List.mem_or_eq_of_mem_set hq
        · exact List.mem_map_of_mem hq
        · exact List.mem_map.mpr ⟨r, List.mem_of_getElem? hr, rfl⟩
      refine hclosed.refs r' ?_
      simp only [State.refs, State.held, State.pending, List.mem_append] at hr' ⊢
      tauto
    · refine quiet_requestTimeout hrefl rfl rfl hclosed k fun r' hr' hfor => hx r' hr' hfor ?_
      rwa [← Option.some_inj.mp (hr.symm.trans hr')]
  · exact hrefl

theorem quiet_requestResponse (hclosed : Closed P d) (k : Nat) (frame : Bytes)
    (hx : ∀ r, d.requests[k]? = some r → r.kind.forNode = true → r.waiting = true → Failing d r.user → x)
    (hframe : ∀ r n, d.requests[k]? = some r → r.waiting = true → d.node? r.user = some n →
      ¬(r.kind = .epGet ∧ n.state = .enumerateEndpoints) ∧ ¬(r.kind = .epFind ∧ n.state = .findEndpoints)) :
    Quiet P x d (d.requestResponse env k frame) := by
  have hrefl := Quiet.refl P x d
  unfold State.requestResponse
  split
  · rename_i r hr
    split_ifs with hwaiting
    · have hcallback := quiet_requestCallback env (quiet_eraseRequest hrefl k) rfl
        (hclosed.refs _ (mem_refs_of_request hr)) (fun hfor => hx r hr hfor hwaiting) (some frame)
        (.inr fun n hn => hframe r n hr hwaiting hn)
      split
      · rename_i heq
        rw [heq] at hcallback
        exact absurd hcallback.2 (by simp)
      · rename_i heq
        rw [heq] at hcallback
        exact hcallback.1
    · exact hrefl
  · exact hrefl

/-! ### Timers and frames -/

theorem quiet_nifRequestNotify (hclosed : Closed P d) (status : Bool) (node : NodeId) (nif : Bytes) :
    Quiet P x d (d.nifRequestNotify env status node nif) := by
  have hrefl := Quiet.refl P x d
  unfold State.nifRequestNotify
  split
  · exact hrefl
  · rename_i n p heq
    obtain ⟨e, he, hep⟩ := Option.bind_eq_some_iff.mp heq
    have hp : P (.ep p.addr) := by
      rw [(ep?_spec hep).2.2]
      exact hclosed.refs _ (by simp [State.refs, State.held, ptrs, he])
    split
    · exact hrefl
    · have hclear := hrefl.clearNifRequestEp.clearNifRequestTimer
      dsimp only
      split
      · have htype := hclear.modifyNode n.addr (fun n => { n with nodeType := nif.getD 0 0 })
          fun m => ⟨rfl, .inl ⟨rfl, rfl⟩⟩
        split
        · -- The information is stored first, then the flags and the versions are reset.
          refine Quiet.epGoto ?_ hp
          refine Quiet.modifyNode ?_ _ _ fun m => ?_
          · refine Quiet.modifyNode ?_ _ _ fun m => ?_
            · exact htype.modifyEp _ _ fun _ => ⟨rfl, rfl⟩
            · split
              · exact ⟨rfl, .inl ⟨rfl, rfl⟩⟩
              · exact NodeStep.refl x m
          · split
            · exact ⟨rfl, .inl ⟨rfl, rfl⟩⟩
            · exact NodeStep.refl x m
        · refine Quiet.epGoto ?_ hp
          exact htype.modifyEp _ _ fun _ => ⟨rfl, rfl⟩
      · exact hclear.epGoto hp

theorem quiet_nodeInfoRequestTimeout (hclosed : Closed P d) : Quiet P x d d.nodeInfoRequestTimeout := by
  have hrefl := Quiet.refl P x d
  unfold State.nodeInfoRequestTimeout
  split
  · exact hrefl
  · rename_i e he
    have hclear := hrefl.clearNifRequestTimer
    dsimp only
    split
    · exact hclear
    · split
      · exact hclear
      · rename_i n p hep
        have hp : P (.ep p.addr) := by
          rw [(ep?_spec hep).2.2]
          exact hclosed.refs _ (by simp [State.refs, State.held, State.pending, ptrs, he])
        exact hclear.clearNifRequestEp.epGoto hp

theorem quiet_findReportTimedOut (hclosed : Closed P d) (hx : ∀ a, d.findReportTimer = some a → Failing d a → x) :
    Quiet P x d d.findReportTimedOut := by
  have hrefl := Quiet.refl P x d
  unfold State.findReportTimedOut
  split
  · exact hrefl
  · rename_i a ha
    have hclear := hrefl.clearFindReportTimer
    dsimp only
    split
    · exact hclear
    · rename_i n hn
      have haddr := addr_of_node? hn
      rw [haddr]
      refine hclear.goto (by decide) (hx a ha) ?_
      exact hclosed.refs _ (by simp [State.refs, State.held, State.pending, ptrs, ha])

theorem quiet_assignReturnRouteCallback (hclosed : Closed P d)
    (hx : ∀ a, d.currentProbeEntry = some a → Failing d a → x) :
    Quiet P x d d.assignReturnRouteCallback := by
  have hrefl := Quiet.refl P x d
  unfold State.assignReturnRouteCallback
  split
  · exact hrefl
  · rename_i k hk
    have hcount : Quiet P x d { d with returnRoutes := k } :=
      hrefl.keep rfl rfl rfl rfl fun r hr => .inl hr
    dsimp only
    split
    · rename_i n heq
      obtain ⟨a, ha, hn⟩ := Option.bind_eq_some_iff.mp heq
      rw [addr_of_node? hn]
      refine hcount.goto (by decide) (hx a ha) ?_
      exact hclosed.refs _ (by simp [State.refs, ptrs, ha])
    · exact hcount

theorem quiet_setWuIntervalCallback (hclosed : Closed P d) (k : Nat)
    (hx : ∀ a, d.wuIntervalSets[k]? = some a → Failing d a → x) :
    Quiet P x d (d.setWuIntervalCallback k) := by
  have hrefl := Quiet.refl P x d
  unfold State.setWuIntervalCallback
  split
  · exact hrefl
  · rename_i a ha
    have herase : Quiet P x d { d with wuIntervalSets := d.wuIntervalSets.eraseIdx k } := by
      refine hrefl.keep rfl rfl rfl rfl fun r hr => .inl ?_
      have hsub : r ∈ (d.wuIntervalSets.eraseIdx k).map Ref.node → r ∈ d.wuIntervalSets.map Ref.node :=
        fun hmem => (List.eraseIdx_sublist _ _).map _ |>.subset hmem
      simp only [State.refs, State.held, State.pending, List.mem_append] at hr ⊢
      tauto
    dsimp only
    split
    · exact herase
    · rename_i n hn
      rw [addr_of_node? hn]
      refine herase.goto (by decide) (hx a ha) ?_
      have hmem : Ref.node a ∈ d.wuIntervalSets.map Ref.node :=
        List.mem_map_of_mem (List.mem_of_getElem? ha)
      refine hclosed.refs _ ?_
      simp only [State.refs, State.held, State.pending, List.mem_append]
      tauto

end Events

end ZipGateway.Directory

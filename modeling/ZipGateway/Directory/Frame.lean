import ZipGateway.Directory.Machine

/-!
# What a step of the interview can do

Most of the directory only moves states on, writes what a node has said, and keeps pointers to what is
already allocated. `Quiet` says so once: no entry or endpoint comes or goes, a state that is written is
not `STATUS_FAILING`, and a new pointer is one of those that are allowed.
-/

namespace ZipGateway.Directory

open State

/-! ### Pointers -/

def ptrs (r : Addr → Ref) (a : Option Addr) : List Ref :=
  (a.map r).toList

def State.pending (d : State) : List Ref :=
  ptrs .ep d.nifRequestTimer ++ ptrs .node d.findReportTimer ++ ptrs .ep d.epProbeUpdateTimer ++
    ptrs .node d.nodeProbeUpdateTimer ++ d.requests.map Request.ref ++ d.wuIntervalSets.map .node ++
    d.nameProbe.toList

/-- All pointers that are kept but `current_probe_entry`. -/
def State.held (d : State) : List Ref :=
  ptrs .ep d.nifRequestEp ++ d.pending ++ d.calls.flatMap Call.refs

def State.refs (d : State) : List Ref :=
  ptrs .node d.currentProbeEntry ++ d.held

/-! ### Nodes -/

variable {kind : RequestKind}

section Maps

variable {d d' : State} {g : Node → Node} (hg : ∀ n, (g n).addr = n.addr) (hheap : d'.heap = d.heap.map g)

include hg hheap

theorem node?_of_map (a : Addr) : d'.node? a = (d.node? a).map g := by
  rw [node?, hheap, List.find?_map, node?]
  congr 2
  funext n
  simp [hg n]

theorem nodeGetRaw_of_map (hndb : d'.ndb = d.ndb) (node : NodeId) : d'.nodeGetRaw node = (d.nodeGetRaw node).map g := by
  rw [nodeGetRaw, nodeGetRaw, hndb]
  cases d.ndb node with
  | none => rfl
  | some a => exact node?_of_map hg hheap a

end Maps

def Node.skeleton (n : Node) : Addr × NodeId × List (Addr × UInt8) × UInt8 × UInt8 :=
  (n.addr, n.nodeid, n.endpoints.map fun p => (p.addr, p.endpointId), n.nEndpoints, n.nAggEndpoints)

/-- What may become of an entry; a failing one is not touched unless `x` holds. -/
structure NodeStep (x : Prop) (n n' : Node) : Prop where
  skeleton : n'.skeleton = n.skeleton
  flag : (n'.state = n.state ∧ n'.failed = n.failed) ∨ (n.state = .failing ∧ x) ∨
    (n.state ≠ .failing ∧ n'.state ≠ .failing ∧ (n'.failed = true → n.failed = true))

theorem NodeStep.refl (x : Prop) (n : Node) : NodeStep x n n :=
  ⟨rfl, .inl ⟨rfl, rfl⟩⟩

theorem NodeStep.trans {x : Prop} {n n' n'' : Node} (h : NodeStep x n n') (h' : NodeStep x n' n'') :
    NodeStep x n n'' := by
  refine ⟨h'.skeleton.trans h.skeleton, ?_⟩
  obtain ⟨hs, hf⟩ | hx | ⟨hn, hs, hf⟩ := h.flag
  · rw [← hs, ← hf]
    exact h'.flag
  · exact .inr (.inl hx)
  · obtain ⟨hs', hf'⟩ | ⟨hfailing, -⟩ | ⟨-, hs', hf'⟩ := h'.flag
    · exact .inr (.inr ⟨hn, hs' ▸ hs, hf' ▸ hf⟩)
    · exact absurd hfailing hs
    · exact .inr (.inr ⟨hn, hs', fun h => hf (hf' h)⟩)

def Failing (d : State) (a : Addr) : Prop :=
  ∃ n ∈ d.heap, n.addr = a ∧ n.state = .failing

/-! ### Steps -/

/-- A step that only goes on with the interview: `P` are the pointers kept, `x` what holds if a state is
written over `STATUS_FAILING`. -/
structure Quiet (P : Ref → Prop) (x : Prop) (d d' : State) : Prop where
  ndb : d'.ndb = d.ndb
  fresh : d'.fresh = d.fresh
  db : d'.db = d.db
  nodes : ∃ g : Node → Node, d'.heap = d.heap.map g ∧ ∀ n ∈ d.heap, NodeStep x n (g n)
  refs : ∀ r ∈ d'.refs, r ∈ d.refs ∨ P r

namespace Quiet

variable {P : Ref → Prop} {x : Prop} {d d' : State}

theorem refl (P : Ref → Prop) (x : Prop) (d : State) : Quiet P x d d where
  ndb := rfl
  fresh := rfl
  db := rfl
  nodes := ⟨id, by simp, fun n _ => NodeStep.refl x n⟩
  refs := fun _ h => .inl h

theorem keep (h : Quiet P x d d') {d'' : State} (hndb : d''.ndb = d'.ndb) (hfresh : d''.fresh = d'.fresh)
    (hdb : d''.db = d'.db) (hheap : d''.heap = d'.heap)
    (hrefs : ∀ r ∈ d''.refs, r ∈ d'.refs ∨ P r) : Quiet P x d d'' where
  ndb := hndb.trans h.ndb
  fresh := hfresh.trans h.fresh
  db := hdb.trans h.db
  nodes := by
    rw [hheap]
    exact h.nodes
  refs := by
    intro r hr
    obtain hr | hr := hrefs r hr
    · exact h.refs r hr
    · exact .inr hr

theorem mapHeap (h : Quiet P x d d') (f : Node → Node)
    (hf : ∀ n ∈ d.heap, ∀ n', NodeStep x n n' → NodeStep x n' (f n')) :
    Quiet P x d { d' with heap := d'.heap.map f } where
  ndb := h.ndb
  fresh := h.fresh
  db := h.db
  nodes := by
    obtain ⟨g, hheap, hg⟩ := h.nodes
    refine ⟨f ∘ g, by simp [hheap], ?_⟩
    intro n hn
    exact (hg n hn).trans (hf n hn (g n) (hg n hn))
  refs := h.refs

theorem modifyNode (h : Quiet P x d d') (a : Addr) (f : Node → Node)
    (hf : ∀ n, NodeStep x n (f n)) : Quiet P x d (d'.modifyNode a f) := by
  refine h.mapHeap _ fun n _ n' _ => ?_
  split
  · exact hf n'
  · exact NodeStep.refl x n'

theorem writeNode (h : Quiet P x d d') (a : Addr) (f : Node → Node) (hskeleton : ∀ n, (f n).skeleton = n.skeleton)
    (hflag : ∀ n, n.state ≠ .failing → (f n).state ≠ .failing ∧ ((f n).failed = true → n.failed = true))
    (hx : Failing d a → x) : Quiet P x d (d'.modifyNode a f) := by
  refine h.mapHeap _ fun n hn n' hstep => ?_
  split
  · rename_i haddr
    refine ⟨hskeleton n', ?_⟩
    by_cases hfailing : n'.state = .failing
    · obtain ⟨hstate, -⟩ | ⟨-, hx⟩ | ⟨-, hne, -⟩ := hstep.flag
      · have haddr' : n'.addr = n.addr := congrArg Prod.fst hstep.skeleton
        exact .inr (.inl ⟨hfailing, hx ⟨n, hn, haddr' ▸ haddr, hstate ▸ hfailing⟩⟩)
      · exact .inr (.inl ⟨hfailing, hx⟩)
      · exact absurd hfailing hne
    · exact .inr (.inr ⟨hfailing, hflag n' hfailing⟩)
  · exact NodeStep.refl x n'

theorem setState (h : Quiet P x d d') {a : Addr} {s : NodeState} (hs : s ≠ .failing)
    (hx : Failing d a → x) : Quiet P x d (d'.setState a s) :=
  h.writeNode a _ (fun _ => rfl) (fun _ _ => ⟨hs, id⟩) hx

theorem modifyEp (h : Quiet P x d d') (e : Addr) (f : Endpoint → Endpoint)
    (hf : ∀ p, (f p).addr = p.addr ∧ (f p).endpointId = p.endpointId) :
    Quiet P x d (d'.modifyEp e f) := by
  refine h.mapHeap _ fun n _ n' _ => ⟨?_, .inl ⟨rfl, rfl⟩⟩
  simp only [Node.skeleton, List.map_map, Prod.mk.injEq, true_and, and_true]
  refine List.map_congr_left fun p _ => ?_
  simp only [Function.comp_apply]
  split
  · rw [(hf p).1, (hf p).2]
  · rfl

theorem setEpState (h : Quiet P x d d') (e : Addr) (s : EpState) : Quiet P x d (d'.setEpState e s) :=
  h.modifyEp e _ fun _ => ⟨rfl, rfl⟩

theorem clearFindReportTimer (h : Quiet P x d d') : Quiet P x d { d' with findReportTimer := none } := by
  refine h.keep rfl rfl rfl rfl fun r hr => .inl ?_
  simp only [State.refs, State.held, State.pending, ptrs, Option.map_none, Option.toList_none,
    List.mem_append, List.not_mem_nil, or_false] at hr ⊢
  tauto

theorem clearNifRequestTimer (h : Quiet P x d d') : Quiet P x d { d' with nifRequestTimer := none } := by
  refine h.keep rfl rfl rfl rfl fun r hr => .inl ?_
  simp only [State.refs, State.held, State.pending, ptrs, Option.map_none, Option.toList_none,
    List.mem_append, List.not_mem_nil, false_or] at hr ⊢
  tauto

theorem clearNifRequestEp (h : Quiet P x d d') : Quiet P x d { d' with nifRequestEp := none } := by
  refine h.keep rfl rfl rfl rfl fun r hr => .inl ?_
  simp only [State.refs, State.held, ptrs, Option.map_none, Option.toList_none, List.mem_append,
    List.not_mem_nil, false_or] at hr ⊢
  tauto

theorem call (h : Quiet P x d d') {c : Call} (hc : ∀ r ∈ c.refs, P r) : Quiet P x d (d'.call c) := by
  refine h.keep rfl rfl rfl rfl fun r hr => ?_
  simp only [State.refs, State.held, State.pending, State.call, List.flatMap_cons, List.mem_append] at hr ⊢
  have := hc r
  tauto

theorem goto (h : Quiet P x d d') {a : Addr} {s : NodeState} (hs : s ≠ .failing)
    (hx : Failing d a → x) (ha : P (.node a)) : Quiet P x d (d'.goto a s) :=
  (h.setState hs hx).call (by simpa [Call.refs] using ha)

theorem epGoto (h : Quiet P x d d') {e : Addr} {s : EpState} (he : P (.ep e)) : Quiet P x d (d'.epGoto e s) :=
  (h.setEpState e s).call (by simpa [Call.refs] using he)

theorem clearCurrent (h : Quiet P x d d') : Quiet P x d { d' with currentProbeEntry := none } := by
  refine h.keep rfl rfl rfl rfl fun r hr => .inl ?_
  simp only [State.refs, ptrs, Option.map_none, Option.toList_none, List.nil_append, List.mem_append] at hr ⊢
  exact .inr hr

theorem setCurrent (h : Quiet P x d d') {a : Addr} (ha : P (.node a)) :
    Quiet P x d { d' with currentProbeEntry := some a } := by
  refine h.keep rfl rfl rfl rfl fun r hr => ?_
  simp only [State.refs, ptrs, Option.map_some, Option.toList_some, List.mem_append, List.mem_singleton] at hr ⊢
  by_cases heq : r = .node a
  · exact .inr (heq ▸ ha)
  · tauto

theorem sendRequest (h : Quiet P x d d') (env : Env) (node : NodeId) (kind : RequestKind) (a : Addr)
    (ha : P (if kind.forNode then .node a else .ep a)) :
    Quiet P x d (d'.sendRequest env node kind a).2 := by
  unfold State.sendRequest
  split
  · refine h.keep rfl rfl rfl rfl fun r hr => ?_
    simp only [State.refs, State.held, State.pending, List.map_append, List.map_singleton,
      Request.ref, List.mem_append, List.mem_singleton] at hr ⊢
    by_cases heq : r = if kind.forNode then .node a else .ep a
    · exact .inr (heq ▸ ha)
    · tauto
  · exact h

theorem startNameProbe (h : Quiet P x d d') {r : Ref} (hr : P r) : Quiet P x d (d'.startNameProbe r).2 := by
  unfold State.startNameProbe
  split
  · exact h
  · rename_i hnone
    refine h.keep rfl rfl rfl rfl fun r' hr' => ?_
    simp only [State.refs, State.held, State.pending, hnone, Option.toList_some, Option.toList_none,
      List.append_nil, List.mem_append, List.mem_singleton] at hr' ⊢
    by_cases heq : r' = r
    · exact .inr (heq ▸ hr)
    · tauto

end Quiet

structure Moves (P : Ref → Prop) (x : Prop) (d d' : State) : Prop where
  quiet : Quiet P x d { d' with db := d.db }
  db : d'.db = d.db ∨ ∃ n ∈ d'.heap, d'.db = d.db.nvmWrite n.entry

section Moves

variable {P : Ref → Prop} {x : Prop} {d d' : State}

theorem Quiet.moves (h : Quiet P x d d') : Moves P x d d' where
  quiet := h.keep rfl rfl h.db.symm rfl fun _ hr => .inl hr
  db := .inl h.db

theorem Quiet.persist (h : Quiet P x d d') (a : Addr) : Moves P x d (d'.persist a) := by
  unfold State.persist
  split
  · rename_i n hn
    refine ⟨h.keep rfl rfl h.db.symm rfl fun _ hr => .inl hr, .inr ⟨n, ?_, ?_⟩⟩
    · exact List.mem_of_find?_eq_some hn
    · rw [h.db]
  · exact h.moves

theorem Quiet.probeComplete (h : Quiet P x d d') (a : Addr) : Moves P x d (d'.probeComplete a) := by
  have hstore := h.persist a
  exact ⟨hstore.quiet.clearCurrent.call (by simp [Call.refs]), hstore.db⟩

end Moves

/-! ### The interview of a node -/

section Nodes

variable {P : Ref → Prop} {x : Prop} {d : State} {env : Env} {n : Node} (hn : P (.node n.addr))
  (hx : Failing d n.addr → x)

include hn hx

theorem quiet_nodeRequest (hkind : kind.forNode = true) : Quiet P x d (d.nodeRequest env n kind) := by
  have hsend := (Quiet.refl P x d).sendRequest env n.nodeid kind n.addr (by rwa [if_pos hkind])
  unfold State.nodeRequest
  split
  · rename_i heq
    rw [heq] at hsend
    exact hsend
  · rename_i heq
    rw [heq] at hsend
    exact hsend.goto (by decide) hx hn

omit hn hx in
theorem skeleton_copyFrom (src p : Endpoint) :
    (copyFrom src p).addr = p.addr ∧ (copyFrom src p).endpointId = p.endpointId := by
  unfold copyFrom
  split <;> exact ⟨rfl, rfl⟩

omit hn hx in
theorem nodeStep_copyFrom (src : Endpoint) (m : Node) :
    NodeStep x m { m with endpoints := m.endpoints.map (copyFrom src) } := by
  refine ⟨?_, .inl ⟨rfl, rfl⟩⟩
  simp only [Node.skeleton, List.map_map, Prod.mk.injEq, true_and, and_true]
  refine List.map_congr_left fun p _ => ?_
  rw [Function.comp_apply, (skeleton_copyFrom src p).1, (skeleton_copyFrom src p).2]

theorem quiet_probeEndpoints (hnext : n.state.next ≠ .failing) (ps : List Endpoint)
    (hps : ∀ p ∈ ps, P (.ep p.addr)) : Quiet P x d (d.probeEndpoints env n ps) := by
  induction ps with
  | nil => exact (Quiet.refl P x d).goto hnext hx hn
  | cons p ps ih =>
    unfold State.probeEndpoints
    split_ifs
    · exact (Quiet.refl P x d).goto (by decide) hx hn
    · refine (Quiet.refl P x d).call ?_
      simpa [Call.refs] using hps p List.mem_cons_self
    · have hcopy : Quiet P x d (d.copyEndpoints p n.addr) :=
        (Quiet.refl P x d).modifyNode _ _ (nodeStep_copyFrom p)
      have hclear : Quiet P x d { d.copyEndpoints p n.addr with identicalEndpoints := false } :=
        hcopy.keep rfl rfl rfl rfl fun r hr => .inl hr
      exact hclear.goto hnext hx hn
    · exact ih fun q hq => hps q (List.mem_cons_of_mem _ hq)

theorem quiet_checkWuCcVersion : Quiet P x d (d.checkWuCcVersion env n) := by
  have hmode : Quiet P x d (d.modifyNode n.addr fun n => { n with mode := modeMailbox }) := by
    refine (Quiet.refl P x d).writeNode _ _ (fun _ => rfl) (fun m hm => ⟨hm, fun h => ?_⟩) hx
    have hclear : (modeMailbox &&& modeFlagsFailed != 0) = true := h
    exact absurd hclear (by decide)
  unfold State.checkWuCcVersion
  split
  · exact (Quiet.refl P x d).goto (by decide) hx hn
  · dsimp only
    split
    · split
      · exact hmode.goto (by decide) hx hn
      · split
        · refine Quiet.goto ?_ (by decide) hx hn
          split
          · exact hmode.modifyNode _ _ fun m => ⟨rfl, .inl ⟨rfl, rfl⟩⟩
          · exact hmode
        · exact hmode.goto (by decide) hx hn
    · exact hmode.goto (by decide) hx hn

theorem moves_nodeProbeState (heps : ∀ p ∈ n.endpoints, P (.ep p.addr)) : Moves P x d (d.nodeProbeState env n) := by
  have hrefl := Quiet.refl P x d
  have hgoto : ∀ s : NodeState, s ≠ .failing → Moves P x d (d.goto n.addr s) :=
    fun s hs => (hrefl.goto hs hx hn).moves
  unfold State.nodeProbeState
  cases hstate : n.state with
  | created =>
    dsimp only
    split
    · exact hrefl.moves
    · have hflags : Quiet P x d (d.modifyNode n.addr fun n =>
          { n with probeFlags := rdNodeFlagProbeStarted }) :=
        hrefl.modifyNode _ _ fun m => ⟨rfl, .inl ⟨rfl, rfl⟩⟩
      exact (hflags.setCurrent hn |>.goto (by decide) hx hn).moves
  | probeNodeInfo =>
    dsimp only
    split
    · exact (hrefl.clearCurrent.call (by simp [Call.refs])).moves
    · rename_i p ps heq
      split
      · exact hgoto _ (by decide)
      · split
        · refine (hrefl.call ?_).moves
          have hp := heps p (by rw [heq]; exact List.mem_cons_self)
          simpa [Call.refs] using hp
        · split
          · exact hgoto _ (by decide)
          · exact hgoto _ (by decide)
  | probeProductId =>
    dsimp only
    split
    · refine Quiet.moves (Quiet.goto ?_ (by decide) hx hn)
      exact hrefl.modifyNode _ _ fun m => ⟨rfl, .inl ⟨rfl, rfl⟩⟩
    · split
      · exact hgoto _ (by decide)
      · exact (quiet_nodeRequest hn hx rfl).moves
  | enumerateEndpoints =>
    dsimp only
    split
    · exact hgoto _ (by decide)
    · exact (quiet_nodeRequest hn hx rfl).moves
  | findEndpoints =>
    dsimp only
    split
    · exact hgoto _ (by decide)
    · exact (quiet_nodeRequest hn hx rfl).moves
  | probeEndpoints => exact (quiet_probeEndpoints hn hx (by simp [hstate, NodeState.next]) _ heps).moves
  | checkWuCcVersion => exact (quiet_checkWuCcVersion hn hx).moves
  | getWuCap => exact (quiet_nodeRequest hn hx rfl).moves
  | setWakeUpInterval =>
    dsimp only
    split
    · refine Quiet.moves ?_
      refine hrefl.keep rfl rfl rfl rfl fun r hr => ?_
      simp only [State.refs, State.held, State.pending, List.map_append, List.map_singleton,
        List.mem_append, List.mem_singleton] at hr ⊢
      by_cases heq : r = .node n.addr
      · exact .inr (heq ▸ hn)
      · tauto
    · exact hgoto _ (by decide)
  | assignReturnRoute =>
    dsimp only
    split
    · refine Quiet.moves ?_
      exact hrefl.keep rfl rfl rfl rfl fun r hr => .inl hr
    · exact hgoto _ (by decide)
  | probeWakeUpInterval => exact (quiet_nodeRequest hn hx rfl).moves
  | mdnsProbe =>
    have hprobe := hrefl.startNameProbe hn
    dsimp only
    split
    · rename_i heq
      rw [heq] at hprobe
      exact hprobe.moves
    · rename_i heq
      rw [heq] at hprobe
      exact (hprobe.goto (by decide) hx hn).moves
  | mdnsEpProbe =>
    dsimp only
    split
    · rename_i p heq
      refine (hrefl.call ?_).moves
      simpa [Call.refs] using heps p (List.mem_of_find?_eq_some heq)
    · exact hgoto _ (by decide)
  | done =>
    dsimp only
    refine Quiet.probeComplete ?_ n.addr
    exact hrefl.modifyNode _ _ fun m => ⟨rfl, .inl ⟨rfl, rfl⟩⟩
  | probeFail => exact hrefl.probeComplete n.addr
  | failing => exact hrefl.moves

end Nodes

theorem moves_nodeProbeUpdate {P : Ref → Prop} {x : Prop} {d : State} (env : Env) (a : Addr)
    (hn : ∀ n, d.node? a = some n → P (.node n.addr) ∧ ∀ p ∈ n.endpoints, P (.ep p.addr))
    (hx : Failing d a → x) : Moves P x d (d.nodeProbeUpdate env a) := by
  have hrefl := (Quiet.refl P x d).moves
  unfold State.nodeProbeUpdate
  split_ifs
  · exact hrefl
  · exact hrefl
  · exact hrefl
  · split
    · exact hrefl
    · rename_i n heq
      have haddr : n.addr = a := by simpa using List.find?_some heq
      split_ifs
      · exact hrefl
      · exact ((Quiet.refl P x d).call (by simp [Call.refs])).moves
      · exact moves_nodeProbeState (hn n heq).1 (haddr ▸ hx) (hn n heq).2

/-! ### The interview of an endpoint -/

section Endpoints

variable {P : Ref → Prop} {x : Prop} {d d' : State} {env : Env} {n : Node} {p : Endpoint}
  (h : Quiet P x d d') (hp : P (.ep p.addr))

include h hp

theorem quiet_epRequest (hkind : kind.forNode = false) : Quiet P x d (d'.epRequest env n p kind) := by
  have hsend := h.sendRequest env n.nodeid kind p.addr (by simpa [hkind] using hp)
  unfold State.epRequest
  split
  · rename_i heq
    rw [heq] at hsend
    exact hsend
  · rename_i heq
    rw [heq] at hsend
    exact hsend.epGoto hp

theorem quiet_pcvGoto (s : Pcvs) (ev : PcvEvent) : Quiet P x d (d'.pcvGoto n p s ev) := by
  refine Quiet.call ?_ (by simpa [Call.refs] using hp)
  exact h.modifyNode _ _ fun m => ⟨rfl, .inl ⟨rfl, rfl⟩⟩

theorem quiet_pcvRequest (hkind : kind.forNode = false) : Quiet P x d (d'.pcvRequest env n p kind) := by
  have hsend := h.sendRequest env n.nodeid kind p.addr (by simpa [hkind] using hp)
  unfold State.pcvRequest
  split
  · rename_i heq
    rw [heq] at hsend
    exact hsend
  · rename_i heq
    rw [heq] at hsend
    exact hsend.modifyNode _ _ fun m => ⟨rfl, .inl ⟨rfl, rfl⟩⟩

theorem quiet_pcvState (s : Pcvs) : Quiet P x d (d'.pcvState env n p s) := by
  have hgoto := fun s ev => quiet_pcvGoto (n := n) h hp s ev
  unfold State.pcvState
  dsimp only
  split
  · exact hgoto _ _
  · split_ifs
    · refine quiet_pcvRequest ?_ hp rfl
      exact h.keep rfl rfl rfl rfl fun r hr => .inl hr
    · exact hgoto _ _
    · exact hgoto _ _
  · split_ifs
    · exact hgoto _ _
    · exact hgoto _ _
  · split_ifs
    · exact hgoto _ _
    · exact hgoto _ _
  · split_ifs
    · exact quiet_pcvRequest h hp rfl
    · exact hgoto _ _
  · split_ifs
    · exact quiet_pcvRequest h hp rfl
    · exact hgoto _ _
    · exact hgoto _ _
  · refine Quiet.epGoto ?_ hp
    split_ifs
    · exact h
    · exact h.modifyNode _ _ fun m => ⟨rfl, .inl ⟨rfl, rfl⟩⟩

theorem quiet_probeCcVersion : Quiet P x d (d'.probeCcVersion env n p) := by
  unfold State.probeCcVersion
  split_ifs
  · exact h.epGoto hp
  · refine Quiet.call ?_ (by simpa [Call.refs] using hp)
    exact h.modifyNode _ _ fun m => ⟨rfl, .inl ⟨rfl, rfl⟩⟩

theorem quiet_probeInfo : Quiet P x d (d'.probeInfo env n p) := by
  unfold State.probeInfo
  dsimp only
  split_ifs
  · exact h.epGoto hp
  · exact quiet_epRequest h hp rfl
  · refine Quiet.epGoto ?_ hp
    exact h.modifyEp _ _ fun _ => ⟨rfl, rfl⟩
  · refine Quiet.epGoto ?_ hp
    exact h.modifyEp _ _ fun _ => ⟨rfl, rfl⟩
  · exact h
  · refine h.keep rfl rfl rfl rfl fun r hr => ?_
    simp only [State.refs, State.held, State.pending, ptrs, Option.map_some, Option.toList_some,
      List.mem_append, List.mem_singleton] at hr ⊢
    by_cases heq : r = .ep p.addr
    · exact .inr (heq ▸ hp)
    · tauto
  · exact h.epGoto hp

theorem quiet_probeSec2C2Info : Quiet P x d (d'.probeSec2C2Info env n p) := by
  unfold State.probeSec2C2Info
  split_ifs <;> first | exact h.epGoto hp | exact quiet_epRequest h hp rfl

theorem quiet_probeSec2Level (level : UInt8) : Quiet P x d (d'.probeSec2Level env level n p) := by
  unfold State.probeSec2Level
  split_ifs <;> first | exact h.epGoto hp | exact quiet_epRequest h hp rfl

theorem quiet_probeSec0Info : Quiet P x d (d'.probeSec0Info env n p) := by
  unfold State.probeSec0Info
  split_ifs <;> first | exact h.epGoto hp | exact quiet_epRequest h hp rfl

theorem quiet_probeZwavePlus : Quiet P x d (d'.probeZwavePlus env n p) := by
  have hicons : Quiet P x d (d'.modifyEp p.addr fun p =>
      { p with installerIconId := 0, userIconId := 0 }) := h.modifyEp _ _ fun _ => ⟨rfl, rfl⟩
  unfold State.probeZwavePlus
  dsimp only
  split_ifs
  · exact quiet_epRequest hicons hp rfl
  · exact hicons.epGoto hp

theorem quiet_epProbeState (hn : P (.node n.addr)) : Quiet P x d (d'.epProbeState env n p) := by
  have hback : Quiet P x d (d'.call (.nodeProbeUpdate n.addr)) :=
    h.call (by simpa [Call.refs] using hn)
  unfold State.epProbeState
  split
  · exact quiet_epRequest h hp rfl
  · exact quiet_probeInfo h hp
  · exact quiet_probeSec2C2Info h hp
  · exact quiet_probeSec2Level h hp _
  · exact quiet_probeSec2Level h hp _
  · exact quiet_probeSec0Info h hp
  · exact quiet_probeCcVersion h hp
  · exact quiet_probeZwavePlus h hp
  · have hprobe := (h.setEpState p.addr .mdnsProbeInProgress).startNameProbe hp
    split
    · rename_i heq
      rw [heq] at hprobe
      exact hprobe
    · rename_i heq
      rw [heq] at hprobe
      exact hprobe.epGoto hp
  · exact h
  · exact hback
  · exact hback

end Endpoints

theorem quiet_epProbeUpdate {P : Ref → Prop} {x : Prop} {d : State} (env : Env) (e : Addr)
    (he : ∀ n p, d.ep? e = some (n, p) → P (.node n.addr) ∧ P (.ep p.addr)) :
    Quiet P x d (d.epProbeUpdate env e) := by
  have hrefl := Quiet.refl P x d
  unfold State.epProbeUpdate
  split_ifs
  · exact hrefl
  · split
    · exact hrefl
    · rename_i n p heq
      split_ifs
      · exact hrefl.call (by simp [Call.refs])
      · exact quiet_epProbeState hrefl (he n p heq).2 (he n p heq).1

theorem quiet_pcvPostEvent {P : Ref → Prop} {x : Prop} {d : State} (env : Env) (e : Addr)
    (ev : PcvEvent) (he : ∀ n p, d.ep? e = some (n, p) → P (.ep p.addr)) :
    Quiet P x d (d.pcvPostEvent env e ev) := by
  have hrefl := Quiet.refl P x d
  unfold State.pcvPostEvent
  split
  · exact hrefl
  · rename_i n p heq
    split
    · exact hrefl
    · split_ifs
      · exact quiet_pcvState hrefl (he n p heq) _
      · exact hrefl

theorem quiet_probeResume {P : Ref → Prop} {x : Prop} {d : State}
    (hcurrent : ∀ a, d.currentProbeEntry = some a → P (.node a))
    (hnode : ∀ node n, d.nodeGetRaw node = some n → P (.node n.addr)) :
    Quiet P x d d.probeResume := by
  have hrefl := Quiet.refl P x d
  unfold State.probeResume
  split
  · rename_i a heq
    exact hrefl.call (by simpa [Call.refs] using hcurrent a heq)
  · split
    · rename_i n heq
      obtain ⟨i, -, hi⟩ := List.exists_of_findSome?_eq_some heq
      have hn : P (.node n.addr) := hnode _ n (Option.filter_eq_some_iff.mp hi).1
      exact (hrefl.setCurrent hn).call (by simpa [Call.refs] using hn)
    · exact hrefl

end ZipGateway.Directory

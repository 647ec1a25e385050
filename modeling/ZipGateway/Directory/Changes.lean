import ZipGateway.Directory.Effects

/-!
# What an input does to the directory

Every input first changes what is allocated, in one of a few ways, and then goes on with the interview.
`step_changes` takes a step apart like that, and the invariants of the directory follow from it.
-/

namespace ZipGateway.Directory

open State

/-! ### The heap -/

/-- Allocations do not overlap, and an entry of the database is allocated and has the id it is filed
under. -/
structure WellFormed (d : State) : Prop where
  addrs : (d.heap.map Node.addr).Nodup
  epAddrs : (d.heap.flatMap fun n => n.endpoints.map Endpoint.addr).Nodup
  bound : ∀ n ∈ d.heap, n.addr < d.fresh ∧ ∀ p ∈ n.endpoints, p.addr < d.fresh
  filed : ∀ i a, d.ndb i = some a → ∃ n ∈ d.heap, n.addr = a ∧ n.nodeid = i

variable {n : Node}

namespace WellFormed

variable {d : State}

theorem eq_of_addr (h : WellFormed d) {n m : Node} (hn : n ∈ d.heap) (hm : m ∈ d.heap)
    (haddr : n.addr = m.addr) : n = m :=
  List.inj_on_of_nodup_map h.addrs hn hm haddr

theorem node?_eq (h : WellFormed d) (hn : n ∈ d.heap) : d.node? n.addr = some n := by
  have hsome : (d.node? n.addr).isSome := by
    rw [State.node?, List.find?_isSome]
    exact ⟨n, hn, by simp⟩
  obtain ⟨m, hm⟩ := Option.isSome_iff_exists.mp hsome
  rw [hm, h.eq_of_addr (mem_of_node? hm) hn (addr_of_node? hm)]

theorem not_failing (h : WellFormed d) (hn : n ∈ d.heap) (hstate : n.state ≠ .failing) : ¬Failing d n.addr := by
  rintro ⟨m, hm, haddr, hfailing⟩
  rw [h.eq_of_addr hm hn haddr] at hfailing
  exact hstate hfailing

theorem nodeGetRaw_eq (h : WellFormed d) {i : NodeId} (hraw : d.nodeGetRaw i = some n) :
    n ∈ d.heap ∧ n.nodeid = i ∧ d.ndb i = some n.addr := by
  obtain ⟨a, ha, hn⟩ := Option.bind_eq_some_iff.mp hraw
  obtain ⟨m, hm, haddr, hid⟩ := h.filed i a ha
  have heq : n = m :=
    h.eq_of_addr (mem_of_node? hn) hm ((addr_of_node? hn).trans haddr.symm)
  exact ⟨mem_of_node? hn, heq ▸ hid, (addr_of_node? hn).symm ▸ ha⟩

theorem nodeGetRaw_of_ndb (h : WellFormed d) {i : NodeId} {a : Addr} (hndb : d.ndb i = some a) :
    ∃ n, d.nodeGetRaw i = some n ∧ n.addr = a := by
  obtain ⟨n, hn, rfl, -⟩ := h.filed i a hndb
  exact ⟨n, by rw [State.nodeGetRaw, hndb, Option.bind_some, h.node?_eq hn], rfl⟩

theorem congr (h : WellFormed d) {d' : State} (hndb : d'.ndb = d.ndb) (hfresh : d'.fresh = d.fresh)
    (hheap : d'.heap.map Node.skeleton = d.heap.map Node.skeleton) : WellFormed d' where
  addrs := by
    have haddr : ∀ heap : List Node, heap.map Node.addr = (heap.map Node.skeleton).map Prod.fst :=
      fun heap => by simp [Node.skeleton, Function.comp_def]
    rw [haddr, hheap, ← haddr]
    exact h.addrs
  epAddrs := by
    have haddr : ∀ heap : List Node, (heap.flatMap fun n => n.endpoints.map Endpoint.addr) =
        (heap.map Node.skeleton).flatMap fun s => s.2.2.1.map Prod.fst :=
      fun heap => by simp [Node.skeleton, List.flatMap_map, Function.comp_def]
    rw [haddr, hheap, ← haddr]
    exact h.epAddrs
  bound := by
    intro n' hn'
    have hmem : n'.skeleton ∈ d.heap.map Node.skeleton := hheap ▸ List.mem_map_of_mem hn'
    obtain ⟨n, hn, heq⟩ := List.mem_map.mp hmem
    simp only [Node.skeleton, Prod.mk.injEq] at heq
    obtain ⟨haddr, -, heps, -, -⟩ := heq
    have hbound := h.bound n hn
    rw [hfresh, ← haddr]
    refine ⟨hbound.1, fun p' hp' => ?_⟩
    have hp : (p'.addr, p'.endpointId) ∈ n.endpoints.map fun p => (p.addr, p.endpointId) :=
      heps ▸ List.mem_map_of_mem hp'
    obtain ⟨p, hp, heq⟩ := List.mem_map.mp hp
    rw [Prod.mk.injEq] at heq
    exact heq.1 ▸ hbound.2 p hp
  filed := by
    intro i a hi
    rw [hndb] at hi
    obtain ⟨n, hn, rfl, rfl⟩ := h.filed i a hi
    have hmem : n.skeleton ∈ d'.heap.map Node.skeleton := hheap ▸ List.mem_map_of_mem hn
    obtain ⟨n', hn', heq⟩ := List.mem_map.mp hmem
    simp only [Node.skeleton, Prod.mk.injEq] at heq
    exact ⟨n', hn', heq.1, heq.2.1⟩

end WellFormed

theorem wellFormed_empty (db : Database) : WellFormed (State.empty db) where
  addrs := List.nodup_nil
  epAddrs := List.nodup_nil
  bound := fun _ hn => by simp [State.empty] at hn
  filed := fun _ _ hi => by simp [State.empty] at hi

section Moves

variable {P : Ref → Prop} {x : Prop} {d d' d'' : State}

theorem Quiet.skeletons (h : Quiet P x d d') : d'.heap.map Node.skeleton = d.heap.map Node.skeleton := by
  obtain ⟨g, hheap, hg⟩ := h.nodes
  rw [hheap, List.map_map]
  exact List.map_congr_left fun n hn => (hg n hn).skeleton

theorem Moves.wellFormed (h : Moves P x d d') (hwf : WellFormed d) : WellFormed d' :=
  hwf.congr h.quiet.ndb h.quiet.fresh h.quiet.skeletons

theorem Moves.after (h : Quiet P x d d') (h' : Moves P x d' d'') : Moves P x d d'' where
  quiet := by
    refine ⟨h'.quiet.ndb.trans h.ndb, h'.quiet.fresh.trans h.fresh, rfl, ?_, ?_⟩
    · obtain ⟨g, hheap, hg⟩ := h.nodes
      obtain ⟨g', hheap', hg'⟩ := h'.quiet.nodes
      refine ⟨g' ∘ g, ?_, fun n hn => (hg n hn).trans (hg' (g n) ?_)⟩
      · rw [← List.map_map, ← hheap]
        exact hheap'
      · rw [hheap]
        exact List.mem_map_of_mem hn
    · intro r hr
      obtain hr | hr := h'.quiet.refs r hr
      · exact h.refs r hr
      · exact .inr hr
  db := by
    rw [← h.db]
    exact h'.db

end Moves

/-! ### The remaining events -/

section Events

variable {P : Ref → Prop} {x : Prop} {d : State} {env : Env}

theorem quiet_endpointNameProbeDone {d' : State} (h : Quiet P x d d') (ok : Bool) (e : Addr)
    (he : P (.ep e)) : Quiet P x d (d'.endpointNameProbeDone env ok e) := by
  unfold State.endpointNameProbeDone
  split
  · rename_i n p hcurrent hep
    have hp : P (.ep p.addr) := (ep?_spec hep).2.2 ▸ he
    split_ifs
    · exact h
    · exact h.epGoto hp
    · have hname := h.modifyEp p.addr (fun q =>
        { q with
          name := .ofBytes (addOrIncrementTrailingDigit (getEpName env.homeId n.nodeid p.toEpEntry))
          state := .mdnsProbe }) fun _ => ⟨rfl, rfl⟩
      refine hname.keep rfl rfl rfl rfl fun r hr => ?_
      simp only [State.refs, State.held, State.pending, ptrs, Option.map_some, Option.toList_some,
        List.mem_append, List.mem_singleton] at hr ⊢
      by_cases heq : r = .ep p.addr
      · exact .inr (heq ▸ hp)
      · tauto
  · exact h

theorem Quiet.probeAgain {d' : State} (h : Quiet P x d d') {a : Addr} (ha : P (.node a)) :
    Quiet P x d { d' with nodeProbeUpdateTimer := some a } := by
  refine h.keep rfl rfl rfl rfl fun r hr => ?_
  simp only [State.refs, State.held, State.pending, ptrs, Option.map_some, Option.toList_some,
    List.mem_append, List.mem_singleton] at hr ⊢
  by_cases heq : r = .node a
  · exact .inr (heq ▸ ha)
  · tauto

theorem quiet_nodeNameProbeDone {d' : State} (h : Quiet P x d d') (hheap : d'.heap = d.heap)
    (hwf : WellFormed d) (ok tie : Bool) (a : Addr) (ha : P (.node a)) :
    Quiet P x d (d'.nodeNameProbeDone env ok tie a) := by
  unfold State.nodeNameProbeDone
  split
  · exact h
  · rename_i n hn
    have hnode : P (.node n.addr) := addr_of_node? hn ▸ ha
    have hmem : n ∈ d.heap := hheap ▸ mem_of_node? hn
    split_ifs with hstate hok htie
    · exact h
    · refine h.goto (by decide) (fun hfailing => ?_) hnode
      exact absurd hfailing (hwf.not_failing hmem (by simp_all))
    · exact h.probeAgain hnode
    · refine Quiet.probeAgain ?_ hnode
      exact h.modifyNode _ _ fun m => ⟨rfl, .inl ⟨rfl, rfl⟩⟩
    · refine Quiet.probeAgain ?_ hnode
      exact h.modifyNode _ _ fun m => ⟨rfl, .inl ⟨rfl, rfl⟩⟩

theorem quiet_nameProbeDone (hclosed : Closed P d) (hwf : WellFormed d) (ok tie : Bool) :
    Quiet P x d (d.nameProbeDone env ok tie) := by
  have hclear : Quiet P x d { d with nameProbe := none } := by
    refine (Quiet.refl P x d).keep rfl rfl rfl rfl fun r hr => .inl ?_
    simp only [State.refs, State.held, State.pending, Option.toList_none, List.mem_append,
      List.not_mem_nil, or_false] at hr ⊢
    tauto
  unfold State.nameProbeDone
  split
  · exact Quiet.refl P x d
  · rename_i e he
    refine quiet_endpointNameProbeDone hclear ok e ?_
    exact hclosed.refs _ (by simp [State.refs, State.held, State.pending, he])
  · rename_i a ha
    refine quiet_nodeNameProbeDone hclear rfl hwf ok tie a ?_
    exact hclosed.refs _ (by simp [State.refs, State.held, State.pending, ha])

theorem mode_or_and (x y z : UInt32) : (x ||| y) &&& z = x &&& z ||| y &&& z := by
  apply UInt32.toBitVec_inj.mp
  simp only [UInt32.toBitVec_and, UInt32.toBitVec_or, BitVec.and_or_distrib_right]

theorem failed_clearDeleted (mode : UInt32) :
    (mode &&& ~~~modeFlagsDeleted) &&& modeFlagsFailed = mode &&& modeFlagsFailed := by
  have hmask : ~~~modeFlagsDeleted &&& modeFlagsFailed = modeFlagsFailed := by decide
  rw [UInt32.and_assoc, hmask]

theorem failed_setDeleted (mode : UInt32) :
    (mode ||| modeFlagsDeleted) &&& modeFlagsFailed = mode &&& modeFlagsFailed := by
  have hmask : modeFlagsDeleted &&& modeFlagsFailed = 0 := by decide
  rw [mode_or_and, hmask, UInt32.or_zero]

theorem nodeStep_setDeleted (n : Node) : NodeStep x n { n with mode := n.mode ||| modeFlagsDeleted } := by
  refine ⟨rfl, .inl ⟨rfl, ?_⟩⟩
  simp only [NodeHeader.failed, failed_setDeleted]

theorem quiet_writeName (hwf : WellFormed d) (hmem : n ∈ d.heap) (hn : P (.node n.addr))
    (hdone : n.state = .done) (e : Addr) (name location : Blob) :
    Quiet P x d (d.writeName n e name location) := by
  have hclear : Quiet P x d (d.modifyNode n.addr fun n =>
      { n with mode := n.mode &&& ~~~modeFlagsDeleted }) := by
    refine (Quiet.refl P x d).modifyNode _ _ fun m => ⟨rfl, .inl ⟨rfl, ?_⟩⟩
    simp only [NodeHeader.failed, failed_clearDeleted]
  have hname := hclear.modifyEp e (fun p =>
    { p with name := name, location := location, state := .mdnsProbe }) fun _ => ⟨rfl, rfl⟩
  have hstate := hname.setState (a := n.addr) (s := .mdnsEpProbe) (by decide) fun hfailing =>
    absurd hfailing (hwf.not_failing hmem (by simp [hdone]))
  unfold State.writeName
  dsimp only
  split
  · exact (hstate.setCurrent hn).call (by simpa [Call.refs] using hn)
  · exact hstate

theorem quiet_updateEpNameAndLocation (hwf : WellFormed d) (hclosed : Closed P d) {e : Addr}
    (he : P (.ep e)) (name : Blob) (location : Option Blob) :
    Quiet P x d (d.updateEpNameAndLocation env e name location) := by
  have hrefl := Quiet.refl P x d
  unfold State.updateEpNameAndLocation
  split
  · exact hrefl
  · rename_i n p hep
    split
    · rename_i hadmits
      split
      · exact hrefl
      · have hdone : n.state = .done := by
          simp only [State.admits, Bool.and_eq_true, decide_eq_true_eq] at hadmits
          exact hadmits.1.1.1.1
        exact quiet_writeName hwf (ep?_spec hep).1 (hclosed.owner hep he) hdone e _ _
    · exact hrefl

theorem quiet_updateEpName (hwf : WellFormed d) (hclosed : Closed P d) {e : Addr} (he : P (.ep e))
    (name : Blob) : Quiet P x d (d.updateEpName env e name) := by
  unfold State.updateEpName
  split
  · exact Quiet.refl P x d
  · exact quiet_updateEpNameAndLocation hwf hclosed he _ _

theorem quiet_updateEpLocation (hwf : WellFormed d) (hclosed : Closed P d) {e : Addr} (he : P (.ep e))
    (location : Blob) : Quiet P x d (d.updateEpLocation env e location) := by
  unfold State.updateEpLocation
  split
  · exact Quiet.refl P x d
  · exact quiet_updateEpNameAndLocation hwf hclosed he _ _

theorem quiet_restart {d' : State} (h : Quiet P x d d') {a : Addr} {s : NodeState} (hs : s ≠ .failing)
    (t : EpState) (hx : Failing d a → x) : Quiet P x d (d'.restart a s t) := by
  refine h.writeNode a _ (fun n => ?_) (fun _ _ => ⟨hs, id⟩) hx
  simp [Node.skeleton, Function.comp_def]

theorem quiet_exit : Quiet P x d d.exit := by
  have hclear := (Quiet.refl P x d).clearNifRequestTimer
  refine hclear.mapHeap _ fun n _ n' _ => ?_
  split
  · exact nodeStep_setDeleted n'
  · exact NodeStep.refl x n'

end Events

/-! ### Changes -/

inductive Report where
  | count (n : Node) (cmd : Bytes)
  | find (n : Node) (cmd : Bytes)
deriving DecidableEq

def reported (d : State) : Input → Option Report
  | .event (.response k cmd) =>
    if d.calls.isEmpty then
      match d.requests[k]? with
      | some r =>
        if r.waiting then
          match d.node? r.user with
          | some n =>
            if r.kind = .epGet ∧ n.state = .enumerateEndpoints then some (.count n cmd)
            else if r.kind = .epFind ∧ n.state = .findEndpoints then some (.find n cmd)
            else none
          | none => none
        else none
      | none => none
    else none
  | _ => none

def newEndpoints (a : Addr) (ids : List UInt8) : List Endpoint :=
  ids.zipIdx.map fun (epid, i) =>
    { endpointId := epid, state := .probeInfo, installerIconId := 0, userIconId := 0,
      name := .empty, location := .empty, agg := .empty, info := .empty, addr := a + i }

def Node.extended (a : Addr) (ids : List UInt8) (n : Node) : Node :=
  { n with
    endpoints := n.endpoints ++ newEndpoints a ids
    nEndpoints := n.nEndpoints + UInt8.ofNat ids.length }

namespace State

variable (d : State)

def extended (a : Addr) (ids : List UInt8) : State :=
  { d.modifyNode a (Node.extended d.fresh ids) with fresh := d.fresh + ids.length }

def counted (n : Node) (cmd : Bytes) : State :=
  if n.nEndpoints.toNat ≠ reportedCount cmd + 1 then d.dropEndpoints n.addr (reportedAgg cmd) else d

def foundBy (env : Env) (n : Node) (cmd : Bytes) : State :=
  if env.allocatesEndpoint then d.extended n.addr (findReportIds env n cmd) else d

def registered (env : Env) (node : NodeId) (flags : UInt16) : State :=
  let d' := d.install (d.newNode env node flags) node
  if env.allocatesEndpoint then d'.extended d.fresh [0] else d'

def erased (node : NodeId) (n : Node) : State :=
  { d with
    currentProbeEntry := if d.currentProbeEntry = some n.addr then none else d.currentProbeEntry
    heap := d.heap.filter fun m => m.addr ≠ n.addr
    ndb := Function.update d.ndb node none
    db := d.db.nvmFree n.nodeid }

def imported (node : NodeId) (e : NodeEntry) : State :=
  { d.install (placed d.fresh e) node with fresh := d.fresh + 1 + e.endpoints.length }

def cleared : State :=
  { d with db := { d.db with nodes := [], endpoints := [], ipAssociation := [] } }

end State

inductive Mark (d : State) : State → Prop
  | failing (a : Addr) (failing : Bool) : Mark d (d.setFailing a failing)
  | awake (a : Addr) (now : UInt32) : Mark d (d.modifyNode a fun n => { n with lastAwake := now })

def Files (d : State) (i : Input) (node : NodeId) : Prop :=
  d.nodeGetRaw node = none ∨ i = .proceed ∧ d.calls.head? = some (.importNode node)

def Call.registers : Call → Bool
  | .registerNewNode _ _ => true
  | .importNode _ => true
  | _ => false

def Allocates (env : Env) (d : State) (i : Input) : Prop :=
  i = .proceed ∧ d.calls.head?.any Call.registers = true ∧ env.allocates = true

inductive Change (env : Env) (d : State) (i : Input) : State → Prop
  | same (h : reported d i = none) : Change env d i d
  | count {n : Node} {cmd : Bytes} (h : reported d i = some (.count n cmd)) :
      Change env d i (d.counted n cmd)
  | find {n : Node} {cmd : Bytes} (h : reported d i = some (.find n cmd)) :
      Change env d i (d.foundBy env n cmd)
  | unfile {node : NodeId} (h : reported d i = none) (hfiles : Files d i node) :
      Change env d i { d with ndb := Function.update d.ndb node none }
  | register {node : NodeId} {flags : UInt16} (h : reported d i = none) (hfiles : Files d i node)
      (halloc : Allocates env d i) : Change env d i (d.registered env node flags)
  | erase {node : NodeId} {n : Node} (h : reported d i = none) (hi : i = .proceed)
      (hcalls : d.calls.head? = some (.eraseNode node)) (hraw : d.nodeGetRaw node = some n) :
      Change env d i (d.erased node n)
  | read {node : NodeId} {e : NodeEntry} (h : reported d i = none) (hfiles : Files d i node)
      (hread : d.db.read node = some e) : Change env d i (d.imported node e)
  | mark {d' : State} (h : reported d i = none) (hmarks : Relation.ReflTransGen Mark d d') :
      Change env d i d'
  | clear (h : reported d i = none) : Change env d i d.cleared
  | destroy (h : reported d i = none) (hi : i = .event .destroy) (hcalls : d.calls = []) :
      Change env d i d.destroy

end ZipGateway.Directory

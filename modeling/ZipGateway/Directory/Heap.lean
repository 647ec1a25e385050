import Mathlib.Data.List.Flatten
import ZipGateway.Directory.Changes
import ZipGateway.Directory.RoundTrip

/-!
# The heap of the directory

A change keeps the heap well formed: what is allocated is new, and what is freed is taken out of the
database.
-/

namespace ZipGateway.Directory

open State Sqlite

/-! ### Changes keep the heap well formed -/

theorem nodup_epAddrs_iff (heap : List Node) : (heap.flatMap fun n => n.endpoints.map Endpoint.addr).Nodup ↔
      (∀ n ∈ heap, (n.endpoints.map Endpoint.addr).Nodup) ∧
        heap.Pairwise fun n m => (n.endpoints.map Endpoint.addr).Disjoint (m.endpoints.map Endpoint.addr) :=
  List.nodup_flatMap

namespace WellFormed

variable {d d' : State}

theorem shrink (h : WellFormed d) (g : Node → Node)
    (hg : ∀ n, (g n).addr = n.addr ∧ (g n).nodeid = n.nodeid ∧ (g n).endpoints.Sublist n.endpoints)
    (hheap : d'.heap = d.heap.map g) (hndb : d'.ndb = d.ndb) (hfresh : d'.fresh = d.fresh) :
    WellFormed d' where
  addrs := by
    have hsame : (d.heap.map g).map Node.addr = d.heap.map Node.addr := by
      rw [List.map_map]
      exact List.map_congr_left fun n _ => (hg n).1
    rw [hheap, hsame]
    exact h.addrs
  epAddrs := by
    rw [hheap, List.flatMap_map]
    exact h.epAddrs.sublist (List.Sublist.flatMap_right _ fun n _ => (hg n).2.2.map _)
  bound := by
    intro n' hn'
    rw [hheap] at hn'
    obtain ⟨n, hn, rfl⟩ := List.mem_map.mp hn'
    rw [hfresh, (hg n).1]
    exact ⟨(h.bound n hn).1, fun p hp => (h.bound n hn).2 p ((hg n).2.2.subset hp)⟩
  filed := by
    intro i a hi
    rw [hndb] at hi
    obtain ⟨n, hn, haddr, hid⟩ := h.filed i a hi
    refine ⟨g n, hheap ▸ List.mem_map_of_mem hn, (hg n).1.trans haddr, (hg n).2.1.trans hid⟩

theorem dropEndpoints (h : WellFormed d) (a : Addr) (nAgg : UInt8) : WellFormed (d.dropEndpoints a nAgg) := by
  refine h.shrink _ (fun n => ?_) rfl rfl rfl
  split
  · exact ⟨rfl, rfl, List.take_sublist 1 n.endpoints⟩
  · exact ⟨rfl, rfl, List.Sublist.refl _⟩

theorem addr_newEndpoints (a : Addr) (ids : List UInt8) :
    (newEndpoints a ids).map Endpoint.addr = List.range' a ids.length := by
  apply List.ext_getElem
  · simp [newEndpoints]
  · intro k hk hk'
    simp [newEndpoints]

theorem extended (h : WellFormed d) (a : Addr) (ids : List UInt8) : WellFormed (d.extended a ids) where
  addrs := by
    have hsame : (d.extended a ids).heap.map Node.addr = d.heap.map Node.addr := by
      simp only [State.extended, State.modifyNode, List.map_map]
      refine List.map_congr_left fun n _ => ?_
      simp only [Function.comp_apply]
      split <;> rfl
    rw [hsame]
    exact h.addrs
  epAddrs := by
    have hold := (nodup_epAddrs_iff d.heap).mp h.epAddrs
    have hnew : ∀ n ∈ d.heap, (n.endpoints.map Endpoint.addr).Disjoint
        ((newEndpoints d.fresh ids).map Endpoint.addr) := by
      intro n hn e he he'
      obtain ⟨p, hp, rfl⟩ := List.mem_map.mp he
      rw [addr_newEndpoints, List.mem_range'_1] at he'
      exact Nat.not_lt.mpr he'.1 ((h.bound n hn).2 p hp)
    simp only [State.extended, State.modifyNode]
    rw [nodup_epAddrs_iff, List.pairwise_map]
    constructor
    · intro n' hn'
      obtain ⟨n, hn, rfl⟩ := List.mem_map.mp hn'
      split
      · simp only [Node.extended, List.map_append]
        rw [List.nodup_append']
        refine ⟨hold.1 n hn, ?_, hnew n hn⟩
        rw [addr_newEndpoints]
        exact List.nodup_range'
      · exact hold.1 n hn
    · -- Only one of two entries can be the one that is extended.
      have haddrs : d.heap.Pairwise fun n m => n.addr ≠ m.addr := List.pairwise_map.mp h.addrs
      have hmem : d.heap.Pairwise fun n m => n ∈ d.heap ∧ m ∈ d.heap :=
        List.pairwise_of_forall_mem_list fun _ hn _ hm => ⟨hn, hm⟩
      refine (hold.2.and (haddrs.and hmem)).imp fun {n m} ⟨hdisjoint, hne, hn, hm⟩ => ?_
      split_ifs with hna hma hma
      · exact absurd (hna.trans hma.symm) hne
      · simp only [Node.extended, List.map_append]
        exact List.disjoint_append_left.mpr ⟨hdisjoint, (hnew m hm).symm⟩
      · simp only [Node.extended, List.map_append]
        exact List.disjoint_append_right.mpr ⟨hdisjoint, hnew n hn⟩
      · exact hdisjoint
  bound := by
    intro n' hn'
    simp only [State.extended, State.modifyNode] at hn' ⊢
    obtain ⟨n, hn, rfl⟩ := List.mem_map.mp hn'
    have hbound := h.bound n hn
    split
    · refine ⟨Nat.lt_add_right _ hbound.1, fun p hp => ?_⟩
      obtain hp | hp := List.mem_append.mp hp
      · exact Nat.lt_add_right _ (hbound.2 p hp)
      · have hp' : p.addr ∈ List.range' d.fresh ids.length := by
          rw [← addr_newEndpoints]
          exact List.mem_map_of_mem hp
        rw [List.mem_range'_1] at hp'
        exact hp'.2
    · exact ⟨Nat.lt_add_right _ hbound.1, fun p hp => Nat.lt_add_right _ (hbound.2 p hp)⟩
  filed := by
    intro i a' hi
    obtain ⟨n, hn, haddr, hid⟩ := h.filed i a' hi
    refine ⟨_, List.mem_map_of_mem hn, ?_, ?_⟩
    · split <;> exact haddr
    · split <;> exact hid

theorem install (h : WellFormed d) {n : Node} {k : Nat} (haddr : n.addr = d.fresh)
    (heps : n.endpoints.map Endpoint.addr = List.range' (d.fresh + 1) k) :
    WellFormed { d.install n n.nodeid with fresh := d.fresh + 1 + k } where
  addrs := by
    simp only [State.install, List.map_append, List.map_singleton]
    rw [List.nodup_append']
    refine ⟨h.addrs, List.nodup_singleton _, ?_⟩
    rw [List.disjoint_singleton]
    intro hmem
    obtain ⟨m, hm, heq⟩ := List.mem_map.mp hmem
    exact Nat.ne_of_lt (h.bound m hm).1 (heq.trans haddr)
  epAddrs := by
    simp only [State.install, List.flatMap_append, List.flatMap_singleton]
    rw [List.nodup_append', heps]
    refine ⟨h.epAddrs, List.nodup_range', fun e he he' => ?_⟩
    obtain ⟨m, hm, he⟩ := List.mem_flatMap.mp he
    obtain ⟨p, hp, rfl⟩ := List.mem_map.mp he
    rw [List.mem_range'_1] at he'
    exact Nat.not_lt.mpr (Nat.le_of_succ_le he'.1) ((h.bound m hm).2 p hp)
  bound := by
    intro m hm
    obtain hm | hm := List.mem_append.mp hm
    · have hbound := h.bound m hm
      have hroom : d.fresh ≤ d.fresh + 1 + k := Nat.le_add_right_of_le (Nat.le_succ _)
      exact ⟨Nat.lt_of_lt_of_le hbound.1 hroom, fun p hp => Nat.lt_of_lt_of_le (hbound.2 p hp) hroom⟩
    · rw [List.mem_singleton.mp hm]
      refine ⟨?_, fun p hp => ?_⟩
      · rw [haddr]
        exact Nat.lt_add_right _ (Nat.lt_succ_self _)
      · have hp' : p.addr ∈ List.range' (d.fresh + 1) k := by
          rw [← heps]
          exact List.mem_map_of_mem hp
        rw [List.mem_range'_1] at hp'
        exact hp'.2
  filed := by
    intro i a hi
    simp only [State.install] at hi ⊢
    by_cases hid : i = n.nodeid
    · rw [hid, Function.update_self, Option.some_inj] at hi
      exact ⟨n, by simp, hi, hid.symm⟩
    · rw [Function.update_of_ne hid] at hi
      obtain ⟨m, hm, hm'⟩ := h.filed i a hi
      exact ⟨m, List.mem_append_left _ hm, hm'⟩

theorem unfile (h : WellFormed d) (node : NodeId) : WellFormed { d with ndb := Function.update d.ndb node none } where
  addrs := h.addrs
  epAddrs := h.epAddrs
  bound := h.bound
  filed := by
    intro i a hi
    by_cases hid : i = node
    · simp [hid] at hi
    · exact h.filed i a (by simpa [Function.update_of_ne hid] using hi)

theorem erased (h : WellFormed d) {node : NodeId} {n : Node} (hraw : d.nodeGetRaw node = some n) :
    WellFormed (d.erased node n) where
  addrs := h.addrs.sublist (List.filter_sublist.map _)
  epAddrs := h.epAddrs.sublist (List.filter_sublist.flatMap _)
  bound := fun m hm => h.bound m (List.mem_of_mem_filter hm)
  filed := by
    intro i a hi
    simp only [State.erased] at hi ⊢
    by_cases hid : i = node
    · simp [hid] at hi
    · rw [Function.update_of_ne hid] at hi
      obtain ⟨m, hm, haddr, hm'⟩ := h.filed i a hi
      refine ⟨m, List.mem_filter.mpr ⟨hm, ?_⟩, haddr, hm'⟩
      obtain ⟨hn, hnode, -⟩ := h.nodeGetRaw_eq hraw
      simp only [decide_eq_true_eq]
      intro heq
      rw [h.eq_of_addr hm hn heq, hnode] at hm'
      exact hid hm'.symm

theorem destroy (h : WellFormed d) : WellFormed d.destroy where
  addrs := h.addrs.sublist (List.filter_sublist.map _)
  epAddrs := h.epAddrs.sublist (List.filter_sublist.flatMap _)
  bound := fun m hm => h.bound m (List.mem_of_mem_filter hm)
  filed := fun _ _ hi => by simp [State.destroy] at hi

end WellFormed

/-! ### Entries of the data store -/

theorem nodeid_of_read {db : Database} {node : NodeId} {e : NodeEntry} (h : db.read node = some e) :
    e.nodeid = node := by
  unfold Database.read at h
  split at h
  · cases h
  · rename_i row rows hrows
    have hkey : hasKey ntColNodeid node.toUInt32 row = true := by
      have hmem : row ∈ selectWhere ntColNodeid node.toUInt32 db.nodes := by
        rw [hrows]
        exact List.mem_cons_self
      exact (List.mem_filter.mp hmem).2
    have hcol : columnInt row ntColNodeid = node.toUInt32 := by
      simp only [hasKey, decide_eq_true_eq] at hkey
      simp [columnInt, hkey]
    rw [← Option.some_inj.mp h, foldl_addRow]
    simp [readNode, hcol]

/-- Everything that can be read is as `K` says. -/
def Stored (K : NodeEntry → Prop) (db : Database) : Prop :=
  ∀ node e, db.read node = some e → K e

section Stored

variable {K : NodeEntry → Prop} {db : Database}

theorem stored_of_nil (h : db.nodes = []) : Stored K db := by
  intro node e he
  simp [Database.read, h, selectWhere] at he

theorem Stored.nvmWrite (h : Stored K db) {n : NodeEntry}
    (hn : K { n with nEndpoints := UInt8.ofNat n.endpoints.length }) : Stored K (db.nvmWrite n) := by
  intro node e he
  by_cases hnode : node = n.nodeid
  · rw [hnode, read_nvmWrite_self, Option.some_inj] at he
    exact he ▸ hn
  · rw [read_nvmWrite_of_ne db n hnode] at he
    exact h node e he

theorem read_nvmFree_self (db : Database) (node : NodeId) : (db.nvmFree node).read node = none := by
  simp [Database.read, Database.nvmFree]

theorem read_nvmFree_of_ne (db : Database) {node other : NodeId} (h : other ≠ node) :
    (db.nvmFree node).read other = db.read other := by
  have hne : other.toUInt32 ≠ node.toUInt32 := fun heq => h (UInt16.toUInt32_inj.mp heq)
  simp only [Database.read, Database.nvmFree, selectWhere_deleteWhere_of_ne hne]

theorem Stored.nvmFree (h : Stored K db) (node : NodeId) : Stored K (db.nvmFree node) := by
  intro other e he
  by_cases hnode : other = node
  · rw [hnode, read_nvmFree_self] at he
    cases he
  · rw [read_nvmFree_of_ne db hnode] at he
    exact h other e he

end Stored

theorem addr_placed (a : Addr) (e : NodeEntry) :
    (placed a e).endpoints.map Endpoint.addr = List.range' (a + 1) e.endpoints.length := by
  apply List.ext_getElem
  · simp [placed]
  · intro k hk hk'
    simp [placed]

/-- What `rd_set_failing` writes. -/
def Node.marked (failing : Bool) (n : Node) : Node :=
  { n with
    state := if failing then .failing else .done
    mode := (n.mode &&& ~~~modeFlagsFailed) ||| if failing then modeFlagsFailed else 0 }

section

variable {d d' : State} {env : Env} {i : Input}

/-! ### Marks -/

theorem setFailing_eq (d : State) (a : Addr) (failing : Bool) : d.setFailing a failing = d ∨
      ∃ n, d.node? a = some n ∧ (n.state = .failing ∨ n.state = .done) ∧
        d.setFailing a failing = (d.modifyNode a (Node.marked failing)).persist a := by
  unfold State.setFailing
  split
  · exact .inl rfl
  · rename_i n hn
    by_cases hstate : n.state ≠ (if failing then .failing else .done) ∧ (n.state = .failing ∨ n.state = .done)
    · exact .inr ⟨n, hn, hstate.2, if_pos hstate⟩
    · exact .inl (if_neg hstate)

theorem persist_fields (d : State) (a : Addr) :
    (d.persist a).heap = d.heap ∧ (d.persist a).ndb = d.ndb ∧ (d.persist a).fresh = d.fresh ∧
      (d.persist a).refs = d.refs := by
  unfold State.persist
  split <;> exact ⟨rfl, rfl, rfl, rfl⟩

theorem skeletons_modifyNode (d : State) (a : Addr) (f : Node → Node) (hf : ∀ n, (f n).skeleton = n.skeleton) :
    (d.modifyNode a f).heap.map Node.skeleton = d.heap.map Node.skeleton := by
  simp only [State.modifyNode, List.map_map]
  refine List.map_congr_left fun n _ => ?_
  simp only [Function.comp_apply]
  split
  · exact hf n
  · rfl

theorem Mark.frame (h : Mark d d') : d'.ndb = d.ndb ∧ d'.fresh = d.fresh ∧ d'.refs = d.refs ∧
      d'.heap.map Node.skeleton = d.heap.map Node.skeleton := by
  cases h with
  | failing a failing =>
    obtain heq | ⟨n, -, -, heq⟩ := setFailing_eq d a failing
    · rw [heq]
      exact ⟨rfl, rfl, rfl, rfl⟩
    · obtain ⟨hheap, hndb, hfresh, hrefs⟩ :=
        persist_fields (d.modifyNode a (Node.marked failing)) a
      rw [heq, hheap, hndb, hfresh, hrefs]
      exact ⟨rfl, rfl, rfl, skeletons_modifyNode d a _ fun _ => rfl⟩
  | awake a now => exact ⟨rfl, rfl, rfl, skeletons_modifyNode d a _ fun _ => rfl⟩

theorem marks_frame (h : Relation.ReflTransGen Mark d d') : d'.ndb = d.ndb ∧ d'.fresh = d.fresh ∧ d'.refs = d.refs ∧
      d'.heap.map Node.skeleton = d.heap.map Node.skeleton := by
  induction h with
  | refl => exact ⟨rfl, rfl, rfl, rfl⟩
  | tail _ hmark ih =>
    obtain ⟨hndb, hfresh, hrefs, hheap⟩ := hmark.frame
    exact ⟨hndb.trans ih.1, hfresh.trans ih.2.1, hrefs.trans ih.2.2.1, hheap.trans ih.2.2.2⟩

theorem marks_worker (env : Env) (d : State) : Relation.ReflTransGen Mark d (d.checkForDeadNodesWorker env) := by
  have hround : ∀ (d : State) (node : NodeId), Relation.ReflTransGen Mark d (d.checkForDeadNode env node) := by
    intro d node
    unfold State.checkForDeadNode
    split
    · exact .refl
    · split_ifs <;> first | exact .refl | exact .single (.failing _ _)
  unfold State.checkForDeadNodesWorker
  induction List.range' 1 zwMaxNodes generalizing d with
  | nil => exact .refl
  | cons k ks ih =>
    rw [List.foldl_cons]
    exact (hround d _).trans (ih _)

/-! ### Changes -/

theorem WellFormed.registered (h : WellFormed d) (env : Env) (node : NodeId) (flags : UInt16) :
    WellFormed (d.registered env node flags) := by
  have hinstall : WellFormed (d.install (d.newNode env node flags) node) :=
    h.install (n := d.newNode env node flags) (k := 0) rfl rfl
  unfold State.registered
  dsimp only
  split
  · exact hinstall.extended _ _
  · exact hinstall

theorem Change.wellFormed (h : Change env d i d') (hwf : WellFormed d) : WellFormed d' := by
  cases h with
  | same h => exact hwf
  | count h =>
    unfold State.counted
    split
    · exact hwf.dropEndpoints _ _
    · exact hwf
  | find h =>
    unfold State.foundBy
    split
    · exact hwf.extended _ _
    · exact hwf
  | unfile h hfiles => exact hwf.unfile _
  | register h hfiles halloc => exact hwf.registered env _ _
  | erase h hi hcalls hraw => exact hwf.erased hraw
  | read h hfiles hread =>
    rename_i node e
    obtain rfl : e.nodeid = node := nodeid_of_read hread
    exact hwf.install (n := placed d.fresh e) rfl (addr_placed d.fresh e)
  | mark h hmarks =>
    obtain ⟨hndb, hfresh, -, hheap⟩ := marks_frame hmarks
    exact hwf.congr hndb hfresh hheap
  | clear h => exact hwf.congr rfl rfl rfl
  | destroy h hi hcalls => exact hwf.destroy

end

end ZipGateway.Directory

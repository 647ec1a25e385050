import Mathlib.Data.List.Pairwise
import ZipGateway.Directory.Steps

/-!
# Pointers to entries and endpoints

A probe keeps pointers in `current_probe_entry` and `nif_request_ep`, in timers, in requests and with the
mDNS server. Entries are freed by `rd_remove_node` and `rd_destroy`, endpoints by a report with another
number of them, and `rd_init` writes over the entries it reads. None of these looks at the pointers, but
for `rd_remove_node` at `current_probe_entry`. So the pointers are good as long as nothing is freed while
something refers to it.
-/

set_option maxRecDepth 8000

namespace ZipGateway.Directory

open State

def Live (d : State) : Ref → Prop
  | .node a => ∃ n ∈ d.heap, d.ndb n.nodeid = some n.addr ∧ n.addr = a
  | .ep e => ∃ n ∈ d.heap, d.ndb n.nodeid = some n.addr ∧ ∃ p ∈ n.endpoints, p.addr = e

def Allocated (d : State) : Ref → Prop
  | .node a => ∃ n ∈ d.heap, n.addr = a
  | .ep e => ∃ n ∈ d.heap, ∃ p ∈ n.endpoints, p.addr = e

def Node.HasRef (n : Node) : Ref → Prop
  | .node a => n.addr = a
  | .ep e => ∃ p ∈ n.endpoints, p.addr = e

instance (d : State) : (r : Ref) → Decidable (Live d r)
  | .node a => inferInstanceAs (Decidable (∃ n ∈ d.heap, d.ndb n.nodeid = some n.addr ∧ n.addr = a))
  | .ep e =>
    inferInstanceAs (Decidable (∃ n ∈ d.heap, d.ndb n.nodeid = some n.addr ∧ ∃ p ∈ n.endpoints, p.addr = e))

instance (n : Node) : (r : Ref) → Decidable (n.HasRef r)
  | .node a => inferInstanceAs (Decidable (n.addr = a))
  | .ep e => inferInstanceAs (Decidable (∃ p ∈ n.endpoints, p.addr = e))

structure ReferencesRight (d : State) : Prop where
  currentProbeEntry : ∀ a, d.currentProbeEntry = some a → ∃ node n, d.nodeGetRaw node = some n ∧ n.addr = a
  nifRequestEp : ∀ e, d.nifRequestEp = some e → ∃ node n, d.nodeGetRaw node = some n ∧ ∃ p ∈ n.endpoints, p.addr = e
  pending : ∀ r ∈ d.pending, Allocated d r

/-- After `rd_remove_node` nothing refers to the entry it has freed. -/
def Forgets (d : State) (i : Env × Input) : Prop :=
  ∀ node n, i.2 = .proceed → d.calls.head? = some (.eraseNode node) → node ≠ 0 →
    d.nodeGetRaw node = some n → ∀ r ∈ (step d i).refs, ¬n.HasRef r

def erasedEntry (d : State) : Input → Option Node
  | .proceed =>
    match d.calls with
    | .eraseNode node :: _ => d.nodeGetRaw node
    | _ => none
  | _ => none

def lostEntries (d : State) : Input → List Node
  | .proceed =>
    match d.calls with
    | .importNode node :: _ => (d.nodeGetRaw node).toList
    | _ => []
  | .event .destroy => if d.calls.isEmpty then d.heap else []
  | _ => []

def droppedEndpoints (d : State) (i : Input) : List Endpoint :=
  match reported d i with
  | some (.count n cmd) =>
    if n.nEndpoints.toNat ≠ reportedCount cmd + 1 then n.endpoints.drop 1 else []
  | _ => []

/-- Frees nothing that something refers to but `current_probe_entry`, which is cleared; an endpoint passed is
of the database. -/
structure Careful (d : State) (i : Env × Input) : Prop where
  passed : ∀ r ∈ i.2.refs, Live d r
  erased : ∀ n ∈ (erasedEntry d i.2).toList, ∀ r ∈ d.held, ¬n.HasRef r
  lost : ∀ n ∈ lostEntries d i.2, ∀ r ∈ d.refs, ¬n.HasRef r
  dropped : ∀ p ∈ droppedEndpoints d i.2, Ref.ep p.addr ∉ d.refs

instance (d : State) (i : Env × Input) : Decidable (Careful d i) :=
  decidable_of_iff ((∀ r ∈ i.2.refs, Live d r) ∧ (∀ n ∈ (erasedEntry d i.2).toList, ∀ r ∈ d.held, ¬n.HasRef r) ∧
      (∀ n ∈ lostEntries d i.2, ∀ r ∈ d.refs, ¬n.HasRef r) ∧
      ∀ p ∈ droppedEndpoints d i.2, Ref.ep p.addr ∉ d.refs)
    ⟨fun h => ⟨h.1, h.2.1, h.2.2.1, h.2.2.2⟩, fun h => ⟨h.passed, h.erased, h.lost, h.dropped⟩⟩

def AllLive (d : State) : Prop :=
  ∀ r ∈ d.refs, Live d r

variable {node : NodeId} {r : Ref}

section Steps

variable {d d' : State} {env : Env} {i : Input}

theorem WellFormed.eq_of_epAddr (h : WellFormed d) {n m : Node} {p q : Endpoint} (hn : n ∈ d.heap)
    (hm : m ∈ d.heap) (hp : p ∈ n.endpoints) (hq : q ∈ m.endpoints) (heq : p.addr = q.addr) : n = m := by
  by_contra hne
  have hdisjoint := ((nodup_epAddrs_iff d.heap).mp h.epAddrs).2
  have hsymm : Std.Symm fun n m : Node => (n.endpoints.map Endpoint.addr).Disjoint
      (m.endpoints.map Endpoint.addr) := ⟨fun _ _ h => h.symm⟩
  refine hdisjoint.forall hn hm hne (List.mem_map_of_mem hp) ?_
  rw [heq]
  exact List.mem_map_of_mem hq

theorem AllLive.closed (h : AllLive d) (hwf : WellFormed d) : Closed (Live d) d where
  refs := h
  endpoints := by
    rintro a n hnode ⟨m, hm, hfiled, haddr⟩ p hp
    have heq := hwf.eq_of_addr (mem_of_node? hnode) hm ((addr_of_node? hnode).trans haddr.symm)
    exact ⟨n, mem_of_node? hnode, heq ▸ hfiled, p, hp, rfl⟩
  owner := by
    rintro e n p hep ⟨m, hm, hfiled, q, hq, haddr⟩
    obtain ⟨hn, hp, hpaddr⟩ := ep?_spec hep
    have heq := hwf.eq_of_epAddr hn hm hp hq (hpaddr.trans haddr.symm)
    exact ⟨n, hn, heq ▸ hfiled, rfl⟩
  raw := by
    intro node n hraw
    obtain ⟨hn, hid, hndb⟩ := hwf.nodeGetRaw_eq hraw
    exact ⟨n, hn, hid ▸ hndb, rfl⟩

theorem Live.keep (h : Live d r)
    (hkeep : ∀ n ∈ d.heap, d.ndb n.nodeid = some n.addr → n.HasRef r → ∃ n' ∈ d'.heap, d'.ndb n'.nodeid = some n'.addr ∧ n'.HasRef r) :
    Live d' r := by
  cases r with
  | node a =>
    obtain ⟨n, hn, hfiled, haddr⟩ := h
    exact hkeep n hn hfiled haddr
  | ep e =>
    obtain ⟨n, hn, hfiled, hp⟩ := h
    exact hkeep n hn hfiled hp

theorem hasRef_of_skeleton {n n' : Node} (h : n'.skeleton = n.skeleton) (hr : n.HasRef r) : n'.HasRef r := by
  simp only [Node.skeleton, Prod.mk.injEq] at h
  cases r with
  | node a => exact h.1.trans hr
  | ep e =>
    obtain ⟨p, hp, rfl⟩ := hr
    have hmem : (p.addr, p.endpointId) ∈ n'.endpoints.map fun p => (p.addr, p.endpointId) := by
      rw [h.2.2.1]
      exact List.mem_map_of_mem hp
    obtain ⟨q, hq, heq⟩ := List.mem_map.mp hmem
    exact ⟨q, hq, (Prod.mk.inj heq).1⟩

theorem Live.of_skeletons (h : Live d r) (hndb : d'.ndb = d.ndb)
    (hheap : d'.heap.map Node.skeleton = d.heap.map Node.skeleton) : Live d' r := by
  refine h.keep fun n hn hfiled hr => ?_
  have hmem : n.skeleton ∈ d'.heap.map Node.skeleton := hheap ▸ List.mem_map_of_mem hn
  obtain ⟨n', hn', heq⟩ := List.mem_map.mp hmem
  refine ⟨n', hn', ?_, hasRef_of_skeleton heq hr⟩
  simp only [Node.skeleton, Prod.mk.injEq] at heq
  rw [hndb, heq.1, heq.2.1]
  exact hfiled

theorem Moves.allLive {x : Prop} (h : Moves (Live d) x d d') (hd : AllLive d) : AllLive d' := by
  intro r hr
  have hlive : Live d r := (h.quiet.refs r hr).elim (hd r) id
  exact hlive.of_skeletons h.quiet.ndb h.quiet.skeletons

/-! ### Changes -/

theorem Live.file (h : Live d r) {a : Option Addr} (hsub : ∀ n ∈ d.heap, n ∈ d'.heap)
    (hndb : d'.ndb = Function.update d.ndb node a)
    (hother : ∀ n ∈ d.heap, d.ndb n.nodeid = some n.addr → n.HasRef r → n.nodeid ≠ node) :
    Live d' r := by
  refine h.keep fun n hn hfiled hr => ⟨n, hsub n hn, ?_, hr⟩
  rw [hndb, Function.update_of_ne (hother n hn hfiled hr)]
  exact hfiled

theorem nodeid_ne_of_files (hwf : WellFormed d) (hfiles : Files d i node) (hlost : ∀ n ∈ lostEntries d i, ¬n.HasRef r) :
    ∀ n ∈ d.heap, d.ndb n.nodeid = some n.addr → n.HasRef r → n.nodeid ≠ node := by
  rintro n hn hfiled href rfl
  obtain ⟨m, hraw, haddr⟩ := hwf.nodeGetRaw_of_ndb hfiled
  obtain rfl : m = n := hwf.eq_of_addr (hwf.nodeGetRaw_eq hraw).1 hn haddr
  obtain hnone | ⟨rfl, hhead⟩ := hfiles
  · rw [hraw] at hnone
    cases hnone
  · obtain ⟨rest, hcalls⟩ := List.head?_eq_some_iff.mp hhead
    exact hlost m (by simp [lostEntries, hcalls, hraw]) href

theorem Live.extended (h : Live d r) (a : Addr) (ids : List UInt8) : Live (d.extended a ids) r := by
  refine h.keep fun n hn hfiled hr => ⟨_, List.mem_map_of_mem hn, ?_⟩
  split
  · refine ⟨hfiled, ?_⟩
    cases r with
    | node b => exact hr
    | ep e =>
      obtain ⟨p, hp, haddr⟩ := hr
      exact ⟨p, List.mem_append_left _ hp, haddr⟩
  · exact ⟨hfiled, hr⟩

theorem Live.counted (h : Live d r) (hwf : WellFormed d) {n : Node} {cmd : Bytes}
    (hreport : reported d i = some (.count n cmd))
    (hdropped : ∀ p ∈ droppedEndpoints d i, r ≠ .ep p.addr) : Live (d.counted n cmd) r := by
  unfold State.counted
  split
  · rename_i hcount
    refine h.keep fun m hm hfiled href => ⟨_, List.mem_map_of_mem hm, ?_⟩
    split
    · rename_i haddr
      refine ⟨hfiled, ?_⟩
      cases r with
      | node b => exact href
      | ep e =>
        obtain ⟨p, hp, rfl⟩ := href
        obtain ⟨k, r, -, -, -, -, hn, -⟩ := reported_count hreport
        obtain rfl : m = n := hwf.eq_of_addr hm (mem_of_node? hn) haddr
        rw [← List.take_append_drop 1 m.endpoints] at hp
        obtain hp | hp := List.mem_append.mp hp
        · exact ⟨p, hp, rfl⟩
        · refine absurd rfl (hdropped p ?_)
          simp only [droppedEndpoints, hreport]
          rw [if_pos hcount]
          exact hp
    · exact ⟨hfiled, href⟩
  · exact h

theorem Live.erased (h : Live d r) (hwf : WellFormed d) {n : Node}
    (hraw : d.nodeGetRaw node = some n) (hother : ¬n.HasRef r) : Live (d.erased node n) r := by
  obtain ⟨hn, hid, hndb⟩ := hwf.nodeGetRaw_eq hraw
  refine h.keep fun m hm hfiled href => ?_
  have hne : m.addr ≠ n.addr := by
    intro heq
    rw [hwf.eq_of_addr hm hn heq] at href
    exact hother href
  have hnode : m.nodeid ≠ node := by
    intro heq
    rw [heq, hndb, Option.some_inj] at hfiled
    exact hne hfiled.symm
  refine ⟨m, List.mem_filter.mpr ⟨hm, by simpa using hne⟩, ?_, href⟩
  simp only [State.erased, Function.update_of_ne hnode]
  exact hfiled

def Erases (d : State) (i : Input) (n : Node) (d' : State) : Prop :=
  ∃ node, i = .proceed ∧ d.calls.head? = some (.eraseNode node) ∧ d.nodeGetRaw node = some n ∧ d' = d.erased node n

theorem Erases.erasedEntry {n : Node} (h : Erases d i n d') : erasedEntry d i = some n := by
  obtain ⟨node, rfl, hhead, hraw, -⟩ := h
  obtain ⟨rest, hcalls⟩ := List.head?_eq_some_iff.mp hhead
  simp [Directory.erasedEntry, hcalls, hraw]

theorem refs_erased (d : State) (node : NodeId) (n : Node) (h : r ∈ (d.erased node n).refs) :
    r ∈ d.held ∨ ∃ a, d.currentProbeEntry = some a ∧ a ≠ n.addr ∧ r = .node a := by
  have hheld : (d.erased node n).held = d.held := rfl
  simp only [State.refs, hheld, List.mem_append] at h
  obtain h | h := h
  · right
    simp only [ptrs, State.erased, Option.mem_toList, Option.map_eq_some_iff] at h
    obtain ⟨a, ha, rfl⟩ := h
    split at ha
    · cases ha
    · rename_i hne
      exact ⟨a, ha, fun heq => hne (heq ▸ ha), rfl⟩
  · exact .inl h

theorem Careful.not_hasRef (h : Careful d (env, i)) {n : Node} (herases : Erases d i n d')
    (hr : r ∈ d'.refs) : ¬n.HasRef r := by
  have hentry := herases.erasedEntry
  obtain ⟨node, -, -, -, rfl⟩ := herases
  obtain hr' | ⟨a, -, hne, rfl⟩ := refs_erased d node n hr
  · exact h.erased n (by simp [hentry]) r hr'
  · exact fun heq => hne heq.symm

theorem Change.live (h : Change env d i d') (hwf : WellFormed d) (hlive : Live d r)
    (herased : ∀ n, Erases d i n d' → ¬n.HasRef r) (hlost : ∀ n ∈ lostEntries d i, ¬n.HasRef r)
    (hdropped : ∀ p ∈ droppedEndpoints d i, r ≠ .ep p.addr) : Live d' r := by
  cases h with
  | same h => exact hlive
  | count h => exact hlive.counted hwf h hdropped
  | find h =>
    unfold State.foundBy
    split
    · exact hlive.extended _ _
    · exact hlive
  | unfile h hfiles => exact hlive.file (fun _ hn => hn) rfl (nodeid_ne_of_files hwf hfiles hlost)
  | register h hfiles halloc =>
    rename_i node flags
    have hinstall : Live (d.install (d.newNode env node flags) node) r :=
      hlive.file (fun _ hn => List.mem_append_left _ hn) rfl (nodeid_ne_of_files hwf hfiles hlost)
    unfold State.registered
    dsimp only
    split
    · exact hinstall.extended _ _
    · exact hinstall
  | erase h hi hcalls hraw =>
    exact hlive.erased hwf hraw (herased _ ⟨_, hi, hcalls, hraw, rfl⟩)
  | read h hfiles hread =>
    exact hlive.file (fun _ hn => List.mem_append_left _ hn) rfl (nodeid_ne_of_files hwf hfiles hlost)
  | mark h hmarks =>
    obtain ⟨hndb, -, -, hheap⟩ := marks_frame hmarks
    exact hlive.of_skeletons hndb hheap
  | clear h => exact hlive.of_skeletons rfl rfl
  | destroy h hi hcalls =>
    refine hlive.keep fun n hn _ href => absurd href (hlost n ?_)
    simpa [lostEntries, hi, hcalls] using hn

theorem Change.refs (h : Change env d i d') (hr : r ∈ d'.refs) : r ∈ d.refs := by
  cases h with
  | same h => exact hr
  | count h => exact (fields_counted d _ _).2 ▸ hr
  | find h => exact (fields_foundBy d env _ _).2 ▸ hr
  | unfile h hfiles => exact hr
  | register h hfiles halloc =>
    unfold State.registered at hr
    dsimp only at hr
    split at hr <;> exact hr
  | erase h hi hcalls hraw =>
    obtain hheld | ⟨a, ha, -, rfl⟩ := refs_erased d _ _ hr
    · exact List.mem_append_right _ hheld
    · simp [State.refs, ptrs, ha]
  | read h hfiles hread => exact hr
  | mark h hmarks => exact (marks_frame hmarks).2.2.1 ▸ hr
  | clear h => exact hr
  | destroy h hi hcalls => exact hr

theorem Change.live_passed (h : Change env d i d') (hwf : WellFormed d) (hr : r ∈ i.refs)
    (hlive : Live d r) : Live d' r := by
  have hupdate : lostEntries d i = [] ∧ droppedEndpoints d i = [] ∧ i ≠ .proceed := by
    cases i with
    | proceed => simp [Input.refs] at hr
    | event e =>
      cases e <;> first
        | exact ⟨rfl, rfl, by simp⟩
        | simp [Input.refs, Event.refs] at hr
  refine h.live hwf hlive (fun n herases => ?_) (by simp [hupdate.1]) (by simp [hupdate.2.1])
  obtain ⟨node, hi, -⟩ := herases
  exact absurd hi hupdate.2.2

theorem AllLive.step (h : AllLive d) (hwf : WellFormed d) (hok : Careful d (env, i)) :
    AllLive (Directory.step d (env, i)) := by
  obtain ⟨d₁, hchange, hmoves⟩ := step_leads hwf env i
  have hlive : AllLive d₁ := by
    intro r hr
    have hmem := hchange.refs hr
    exact hchange.live hwf (h r hmem) (fun n herases => hok.not_hasRef herases hr)
      (fun n hn => hok.lost n hn r hmem) fun p hp heq => hok.dropped p hp (heq ▸ hmem)
  have hclosed := hlive.closed (hchange.wellFormed hwf)
  exact (hmoves (Live d₁) hclosed fun r hr => hchange.live_passed hwf hr (hok.passed r hr)).allLive hlive

end Steps

theorem Reach.allLive {d : State} (h : Reach Careful d) : AllLive d := by
  induction h with
  | start => exact fun r hr => by simp [State.refs, State.held, State.pending, State.empty, ptrs] at hr
  | step h hok ih => exact ih.step h.wellFormed hok
  | reboot h ih => exact fun r hr => by simp [State.refs, State.held, State.pending, State.empty, ptrs] at hr

theorem AllLive.referencesRight {d : State} (h : AllLive d) (hwf : WellFormed d) : ReferencesRight d where
  currentProbeEntry := by
    intro a ha
    obtain ⟨n, hn, hfiled, haddr⟩ := h (.node a) (by simp [State.refs, ptrs, ha])
    obtain ⟨m, hraw, hm⟩ := hwf.nodeGetRaw_of_ndb hfiled
    exact ⟨n.nodeid, m, hraw, hm.trans haddr⟩
  nifRequestEp := by
    intro e he
    obtain ⟨n, hn, hfiled, hp⟩ := h (.ep e) (by simp [State.refs, State.held, ptrs, he])
    obtain ⟨m, hraw, hm⟩ := hwf.nodeGetRaw_of_ndb hfiled
    obtain rfl : m = n := hwf.eq_of_addr (hwf.nodeGetRaw_eq hraw).1 hn hm
    exact ⟨m.nodeid, m, hraw, hp⟩
  pending := by
    intro r hr
    have hlive : Live d r := h r (by simp [State.refs, State.held, hr])
    cases r with
    | node a =>
      obtain ⟨n, hn, -, haddr⟩ := hlive
      exact ⟨n, hn, haddr⟩
    | ep e =>
      obtain ⟨n, hn, -, hp⟩ := hlive
      exact ⟨n, hn, hp⟩

/-- In every run that frees nothing while something refers to it, the pointers are right in every state
that is reached, and nothing refers to a node that was removed. -/
theorem references_right_of_careful {d : State} (h : Reach Careful d) :
    ReferencesRight d ∧ ∀ i, Careful d i → Forgets d i := by
  refine ⟨h.allLive.referencesRight h.wellFormed, ?_⟩
  rintro ⟨env, i⟩ hok node n hi hhead hzero hraw r hr
  have herases : Erases d i n (d.erased node n) := ⟨node, hi, hhead, hraw, rfl⟩
  obtain ⟨rest, hcalls⟩ := List.head?_eq_some_iff.mp hhead
  have hstep : step d (env, i) = { d.erased node n with calls := rest } := by
    rw [← execute_eraseNode env h.wellFormed rest hzero hraw]
    simp only at hi
    simp [step, hi, hcalls]
  have hpop := quiet_pop (P := fun _ => False) (x := True) (d.erased node n) hcalls
  rw [hstep] at hr
  exact hok.not_hasRef herases ((hpop.refs r hr).resolve_right id)

theorem interviewed_references :
    let d := run (State.empty Database.empty) (interviewed 5 ++ settled (.removeNode 5))
    d.heap = [] ∧ ReferencesRight d ∧ ∀ i, Careful d i → Forgets d i := by
  intro d
  have hreach : Reach Careful d := Reach.start.run (by decide +kernel)
  exact ⟨by decide +kernel, references_right_of_careful hreach⟩

def removedWhileProbed : List (Env × Input) :=
  settled (.registerNewNode 5 0) ++ settled (.removeNode 5)

theorem removedWhileProbed_nif :
    let d := run (State.empty Database.empty) removedWhileProbed
    d.nifRequestEp = some 1 ∧ d.heap = [] := by
  decide

theorem removedWhileProbed_dangling : ¬ ∀ d, Reach (fun _ _ => True) d → ReferencesRight d := by
  intro h
  have hright := h _ (Reach.start.run (allowed_true _ removedWhileProbed))
  obtain ⟨hnif, hheap⟩ := removedWhileProbed_nif
  obtain ⟨node, n, hraw, -⟩ := hright.nifRequestEp 1 hnif
  obtain ⟨a, -, hn⟩ := Option.bind_eq_some_iff.mp hraw
  have hmem := mem_of_node? hn
  rw [hheap] at hmem
  cases hmem

end ZipGateway.Directory

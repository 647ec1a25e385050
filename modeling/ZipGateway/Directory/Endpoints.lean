import ZipGateway.Directory.Steps

/-!
# The endpoints of a node

`END_POINT_REPORT` says how many endpoints a node has, and `END_POINT_FIND_REPORT` frames say which, in
one frame or in several. The list is emptied, but for endpoint 0, only when the number is another one than
before, and what a find report names is always added; so are the aggregated endpoints, with each report.
The list is right as long as every enumeration starts from an empty list and names an endpoint once.
-/

set_option maxRecDepth 8000

namespace ZipGateway.Directory

open State

def Node.ids (n : Node) : List UInt8 :=
  n.endpoints.map fun p => p.endpointId

structure Counted (count : UInt8) (ids : List UInt8) : Prop where
  count : count.toNat = ids.length
  head : ids.head? = some 0
  nodup : ids.Nodup

def EndpointsRight (d : State) : Prop :=
  ∀ node n, d.nodeGetRaw node = some n → Counted n.nEndpoints n.ids

/-! ### Enumerations -/

/-- For every entry, the individual endpoints that were reported so far in the enumeration that is under
way. -/
abbrev Reported := Addr → List UInt8

def Adds (env : Env) (n : Node) (cmd : Bytes) : Prop :=
  env.allocatesEndpoint = true ∨ findReportIds env n cmd = []

instance (env : Env) (n : Node) (cmd : Bytes) : Decidable (Adds env n cmd) :=
  inferInstanceAs (Decidable (_ ∨ _))

/-- What has been reported after a report; the last one, or a failure, ends an enumeration. -/
def Reported.taken (g : Reported) (d : State) (i : Env × Input) : Reported := fun a =>
  match reported d i.2 with
  | some (.find n cmd) =>
    if a = n.addr then
      if cmd.getD 2 0 ≠ 0 ∧ Adds i.1 n cmd then g a ++ individualIds cmd else []
    else g a
  | _ => g a

def Reported.next (g : Reported) (d : State) (i : Env × Input) : Reported := fun a =>
  if ((step d i).node? a).any fun n => n.state = .enumerateEndpoints then [] else g.taken d i a

/-- States with what has been reported, when every step is as `ok` says. -/
inductive Enumerates (ok : Reported → State → Env × Input → Prop) : Reported → State → Prop
  | start : Enumerates ok (fun _ => []) (State.empty Database.empty)
  | step {g : Reported} {d : State} {i : Env × Input} (h : Enumerates ok g d) (hok : ok g d i) :
      Enumerates ok (g.next d i) (step d i)
  | reboot {g : Reported} {d : State} (h : Enumerates ok g d) :
      Enumerates ok (fun _ => []) (State.empty d.db)

/-- After the last find report the list is endpoint 0, what was reported, and as many aggregated
endpoints as the entry says. -/
def Completes (g : Reported) (d : State) (i : Env × Input) : Prop :=
  ∀ n cmd, reported d i.2 = some (.find n cmd) → cmd.getD 2 0 = 0 → Adds i.1 n cmd →
    ∃ n' agg, (step d i).node? n.addr = some n' ∧
      n'.ids = 0 :: (g n.addr ++ individualIds cmd ++ agg) ∧ agg.length = n'.nAggEndpoints.toNat

/-- A find report that starts from an empty list or goes on with one, names new endpoints only, leaves
room in eight bits for the count, and is the only one if there are aggregated endpoints. -/
structure Continues (g : Reported) (env : Env) (n : Node) (cmd : Bytes) : Prop where
  first : g n.addr = [] → n.endpoints.length = 1
  fresh : env.allocatesEndpoint = true → (n.ids ++ findReportIds env n cmd).Nodup
  room : env.allocatesEndpoint = true → n.endpoints.length + (findReportIds env n cmd).length ≤ 255
  aggregated : n.nAggEndpoints = 0 ∨ g n.addr = [] ∧ cmd.getD 2 0 = 0

instance (g : Reported) (env : Env) (n : Node) (cmd : Bytes) : Decidable (Continues g env n cmd) :=
  decidable_of_iff ((g n.addr = [] → n.endpoints.length = 1) ∧
      (env.allocatesEndpoint = true → (n.ids ++ findReportIds env n cmd).Nodup) ∧
      (env.allocatesEndpoint = true → n.endpoints.length + (findReportIds env n cmd).length ≤ 255) ∧
      (n.nAggEndpoints = 0 ∨ g n.addr = [] ∧ cmd.getD 2 0 = 0))
    ⟨fun h => ⟨h.1, h.2.1, h.2.2.1, h.2.2.2⟩, fun h => ⟨h.first, h.fresh, h.room, h.aggregated⟩⟩

def Proper (g : Reported) (env : Env) : Option Report → Prop
  | some (.find n cmd) => Continues g env n cmd
  | _ => True

instance (g : Reported) (env : Env) : (r : Option Report) → Decidable (Proper g env r)
  | some (.find n cmd) => inferInstanceAs (Decidable (Continues g env n cmd))
  | some (.count _ _) => isTrue trivial
  | none => isTrue trivial

/-- A new entry gets endpoint 0, and reports are proper. -/
structure Enumerable (g : Reported) (d : State) (i : Env × Input) : Prop where
  memory : Allocates i.1 d i.2 → i.1.allocatesEndpoint = true
  report : Proper g i.1 (reported d i.2)

theorem Enumerable.find {g : Reported} {d : State} {i : Env × Input} (h : Enumerable g d i) (n : Node)
    (cmd : Bytes) (hreport : reported d i.2 = some (.find n cmd)) : Continues g i.1 n cmd := by
  have hproper := h.report
  rw [hreport] at hproper
  exact hproper

/-! ### The invariant -/

/-- The lists are right, in the heap and in the data store, and an enumeration that is under way has
what was reported. -/
structure Tidy (g : Reported) (d : State) : Prop where
  counted : ∀ n ∈ d.heap, Counted n.nEndpoints n.ids
  stored : Stored (fun e => Counted e.nEndpoints (e.endpoints.map fun p => p.endpointId)) d.db
  progress : ∀ n ∈ d.heap, g n.addr ≠ [] → n.ids = 0 :: g n.addr
  beyond : ∀ a, d.fresh ≤ a → g a = []

section Steps

variable {P : Ref → Prop} {x : Prop} {g : Reported} {d d' : State} {env : Env} {i : Input} {n n' : Node}

theorem ids_of_skeleton (h : n'.skeleton = n.skeleton) :
    n'.ids = n.ids ∧ n'.addr = n.addr ∧ n'.nEndpoints = n.nEndpoints ∧ n'.nAggEndpoints = n.nAggEndpoints := by
  simp only [Node.skeleton, Prod.mk.injEq] at h
  obtain ⟨haddr, -, heps, hcount, hagg⟩ := h
  refine ⟨?_, haddr, hcount, hagg⟩
  have hids : ∀ m : Node, m.ids = (m.endpoints.map fun p => (p.addr, p.endpointId)).map Prod.snd := by
    intro m
    simp [Node.ids, Function.comp_def]
  rw [hids, hids, heps]

theorem Tidy.of_skeletons (h : Tidy g d) (hfresh : d'.fresh = d.fresh)
    (hheap : d'.heap.map Node.skeleton = d.heap.map Node.skeleton)
    (hstored : Stored (fun e => Counted e.nEndpoints (e.endpoints.map fun p => p.endpointId)) d'.db) :
    Tidy g d' := by
  have hold : ∀ n' ∈ d'.heap, ∃ n ∈ d.heap, n'.skeleton = n.skeleton := by
    intro n' hn'
    have hmem : n'.skeleton ∈ d.heap.map Node.skeleton := hheap ▸ List.mem_map_of_mem hn'
    obtain ⟨n, hn, heq⟩ := List.mem_map.mp hmem
    exact ⟨n, hn, heq.symm⟩
  refine ⟨fun n' hn' => ?_, hstored, fun n' hn' hne => ?_, fun a ha => h.beyond a (hfresh ▸ ha)⟩
  · obtain ⟨n, hn, heq⟩ := hold n' hn'
    obtain ⟨hids, -, hcount, -⟩ := ids_of_skeleton heq
    rw [hids, hcount]
    exact h.counted n hn
  · obtain ⟨n, hn, heq⟩ := hold n' hn'
    obtain ⟨hids, haddr, -, -⟩ := ids_of_skeleton heq
    rw [haddr] at hne
    rw [hids, haddr]
    exact h.progress n hn hne

theorem counted_entry (h : Counted n.nEndpoints n.ids) :
    Counted (UInt8.ofNat n.entry.endpoints.length) (n.entry.endpoints.map fun p => p.endpointId) := by
  have hids : (n.entry.endpoints.map fun p => p.endpointId) = n.ids := by
    simp [Node.entry, Node.ids, Function.comp_def]
  have hlength : n.entry.endpoints.length = n.nEndpoints.toNat := by
    rw [h.count]
    simp [Node.entry, Node.ids]
  rw [hids, hlength, UInt8.ofNat_toNat]
  exact h

theorem Moves.tidy (h : Moves P x d d') (hd : Tidy g d) : Tidy g d' := by
  refine hd.of_skeletons h.quiet.fresh h.quiet.skeletons ?_
  obtain hdb | ⟨n', hn', hdb⟩ := h.db
  · rw [hdb]
    exact hd.stored
  · have hmem : n'.skeleton ∈ d.heap.map Node.skeleton := by
      have hskel : d'.heap.map Node.skeleton = d.heap.map Node.skeleton := h.quiet.skeletons
      exact hskel ▸ List.mem_map_of_mem hn'
    obtain ⟨n, hn, heq⟩ := List.mem_map.mp hmem
    obtain ⟨hids, -, hcount, -⟩ := ids_of_skeleton heq
    rw [hdb]
    refine hd.stored.nvmWrite (counted_entry ?_)
    rw [← hids, ← hcount]
    exact hd.counted n hn

theorem Mark.tidy (h : Mark d d') (hd : Tidy g d) : Tidy g d' := by
  obtain ⟨-, hfresh, -, hheap⟩ := h.frame
  refine hd.of_skeletons hfresh hheap ?_
  cases h with
  | failing a failing =>
    obtain heq | ⟨n, -, -, heq⟩ := setFailing_eq d a failing
    · rw [heq]
      exact hd.stored
    · rw [heq]
      have hmark : Tidy g (d.modifyNode a (Node.marked failing)) :=
        hd.of_skeletons rfl (skeletons_modifyNode d a _ fun _ => rfl) hd.stored
      unfold State.persist
      split
      · rename_i m hm
        exact hmark.stored.nvmWrite (counted_entry (hmark.counted m (mem_of_node? hm)))
      · exact hmark.stored
  | awake a now => exact hd.stored

/-! ### Reports -/

theorem Counted.cons {count : UInt8} {ids : List UInt8} (h : Counted count ids) : ∃ rest, ids = 0 :: rest := by
  obtain ⟨rest, hrest⟩ := List.head?_eq_some_iff.mp h.head
  exact ⟨rest, hrest⟩

theorem ids_extended (a : Addr) (ids : List UInt8) (n : Node) : (n.extended a ids).ids = n.ids ++ ids := by
  have hnew : (newEndpoints a ids).map (fun p => p.endpointId) = ids := by
    apply List.ext_getElem
    · simp [newEndpoints]
    · intro k hk hk'
      simp [newEndpoints]
  simp only [Node.ids, Node.extended, List.map_append, hnew]

theorem Counted.append {count : UInt8} {ids ids' : List UInt8} (h : Counted count ids)
    (hroom : ids.length + ids'.length ≤ 255) (hnodup : (ids ++ ids').Nodup) :
    Counted (count + UInt8.ofNat ids'.length) (ids ++ ids') where
  count := by
    rw [UInt8.toNat_add, UInt8.toNat_ofNat', h.count, List.length_append, Nat.add_mod_mod, Nat.mod_eq_of_lt]
    exact Nat.lt_succ_of_le hroom
  head := by
    obtain ⟨rest, rfl⟩ := h.cons
    rfl
  nodup := hnodup

theorem taken_eq (h : ∀ n cmd, reported d i ≠ some (.find n cmd)) : g.taken d (env, i) = g := by
  funext a
  unfold Reported.taken
  split
  · rename_i n cmd heq
    exact absurd heq (h n cmd)
  · rfl

theorem Tidy.count (h : Tidy g d) (hidle : ∀ n ∈ d.heap, n.state = .enumerateEndpoints → g n.addr = []) {cmd : Bytes}
    (hreport : reported d i = some (.count n cmd)) : Tidy g (d.counted n cmd) := by
  obtain ⟨k, r, -, -, -, -, hn, -, hstate⟩ := reported_count hreport
  unfold State.counted
  split
  · refine ⟨fun m' hm' => ?_, h.stored, fun m' hm' hne => ?_, h.beyond⟩
    · obtain ⟨m, hm, rfl⟩ := List.mem_map.mp hm'
      split
      · obtain ⟨rest, hrest⟩ := (h.counted m hm).cons
        have hids : (m.endpoints.take 1).map (fun p => p.endpointId) = [0] := by
          rw [List.map_take]
          change m.ids.take 1 = [0]
          rw [hrest, List.take_succ_cons, List.take_zero]
        refine ⟨?_, ?_, ?_⟩ <;> simp [Node.ids, hids]
      · exact h.counted m hm
    · obtain ⟨m, hm, rfl⟩ := List.mem_map.mp hm'
      split at hne
      · rename_i haddr
        exact absurd (haddr ▸ hidle n (mem_of_node? hn) hstate) hne
      · rename_i haddr
        rw [if_neg haddr]
        exact h.progress m hm hne
  · exact h

theorem ids_of_length_eq_one {count : UInt8} (h : Counted count n.ids) (hone : n.endpoints.length = 1) :
    n.ids = [0] := by
  obtain ⟨rest, hrest⟩ := h.cons
  have hlength : n.ids.length = 1 := by
    rw [← hone]
    exact List.length_map ..
  rw [hrest, List.length_cons] at hlength
  have hnil : rest = [] := List.eq_nil_of_length_eq_zero (by omega)
  rw [hrest, hnil]

theorem Tidy.ids_eq (h : Tidy g d) (hok : Enumerable g d (env, i)) {cmd : Bytes}
    (hreport : reported d i = some (.find n cmd)) : n.ids = 0 :: g n.addr := by
  obtain ⟨k, r, -, -, -, -, hn, -⟩ := reported_find hreport
  by_cases hg : g n.addr = []
  · rw [hg]
    exact ids_of_length_eq_one (h.counted n (mem_of_node? hn)) ((hok.find n cmd hreport).first hg)
  · exact h.progress n (mem_of_node? hn) hg

theorem taken_of_find {cmd : Bytes} (hreport : reported d i = some (.find n cmd)) (a : Addr) : g.taken d (env, i) a =
      if a = n.addr then
        if cmd.getD 2 0 ≠ 0 ∧ Adds env n cmd then g a ++ individualIds cmd else []
      else g a := by
  simp only [Reported.taken, hreport]

theorem Enumerable.findReportIds_eq (hok : Enumerable g d (env, i)) {cmd : Bytes}
    (hreport : reported d i = some (.find n cmd)) (hmore : cmd.getD 2 0 ≠ 0) :
    findReportIds env n cmd = individualIds cmd := by
  have hagg : n.nAggEndpoints = 0 :=
    (hok.find n cmd hreport).aggregated.resolve_right fun h => hmore h.2
  simp [findReportIds, aggregatedIds, hagg]

theorem Tidy.find (h : Tidy g d) (hwf : WellFormed d) (hok : Enumerable g d (env, i)) {cmd : Bytes}
    (hreport : reported d i = some (.find n cmd)) : Tidy (g.taken d (env, i)) (d.foundBy env n cmd) := by
  obtain ⟨k, r, -, -, -, -, hn, -⟩ := reported_find hreport
  have hmem := mem_of_node? hn
  have hids := h.ids_eq hok hreport
  have hbeyond : ∀ a, d.fresh ≤ a → g.taken d (env, i) a = [] := by
    intro a ha
    rw [taken_of_find hreport, if_neg]
    · exact h.beyond a ha
    · rintro rfl
      exact Nat.not_lt.mpr ha (hwf.bound n hmem).1
  -- What was reported for the node, once this report is taken.
  have htaken : g.taken d (env, i) n.addr ≠ [] → cmd.getD 2 0 ≠ 0 ∧ Adds env n cmd ∧
        g.taken d (env, i) n.addr = g n.addr ++ individualIds cmd := by
    rw [taken_of_find hreport, if_pos rfl]
    split
    · rename_i hmore
      exact fun _ => ⟨hmore.1, hmore.2, rfl⟩
    · exact fun hne => absurd rfl hne
  unfold State.foundBy
  split
  · rename_i halloc
    refine ⟨fun m' hm' => ?_, h.stored, fun m' hm' hne => ?_, fun a ha => hbeyond a (le_trans (Nat.le_add_right ..) ha)⟩
    · obtain ⟨m, hm, rfl⟩ := List.mem_map.mp hm'
      split
      · rename_i haddr
        obtain rfl : m = n := hwf.eq_of_addr hm hmem haddr
        rw [ids_extended]
        refine (h.counted m hm).append ?_ ((hok.find m cmd hreport).fresh halloc)
        have hlength : m.ids.length = m.endpoints.length := List.length_map ..
        rw [hlength]
        exact (hok.find m cmd hreport).room halloc
      · exact h.counted m hm
    · obtain ⟨m, hm, rfl⟩ := List.mem_map.mp hm'
      split at hne
      · rename_i haddr
        obtain rfl : m = n := hwf.eq_of_addr hm hmem haddr
        obtain ⟨hmore, -, heq⟩ := htaken hne
        rw [if_pos rfl, ids_extended, hok.findReportIds_eq hreport hmore, hids]
        change 0 :: g m.addr ++ individualIds cmd = 0 :: g.taken d (env, i) m.addr
        rw [heq, List.cons_append]
      · rename_i haddr
        rw [if_neg haddr]
        rw [taken_of_find hreport, if_neg haddr] at hne ⊢
        exact h.progress m hm hne
  · rename_i halloc
    refine ⟨h.counted, h.stored, fun m hm hne => ?_, hbeyond⟩
    by_cases haddr : m.addr = n.addr
    · obtain rfl : m = n := hwf.eq_of_addr hm hmem haddr
      obtain ⟨hmore, hadds, heq⟩ := htaken hne
      have hnil : individualIds cmd = [] := by
        rw [← hok.findReportIds_eq hreport hmore]
        exact hadds.resolve_left halloc
      rw [heq, hnil, List.append_nil]
      exact hids
    · rw [taken_of_find hreport, if_neg haddr] at hne ⊢
      exact h.progress m hm hne

/-! ### Changes -/

theorem Tidy.install (h : Tidy g d) {node : NodeId} {n : Node} {k : Nat} (haddr : n.addr = d.fresh)
    (hn : Counted n.nEndpoints n.ids) : Tidy g { d.install n node with fresh := d.fresh + 1 + k } := by
  have hbeyond : ∀ a, d.fresh + 1 + k ≤ a → g a = [] := fun a ha =>
    h.beyond a (le_trans (Nat.le_add_right_of_le (Nat.le_succ _)) ha)
  refine ⟨fun m hm => ?_, h.stored, fun m hm hne => ?_, hbeyond⟩
  · obtain hm | hm := List.mem_append.mp hm
    · exact h.counted m hm
    · rw [List.mem_singleton.mp hm]
      exact hn
  · obtain hm | hm := List.mem_append.mp hm
    · exact h.progress m hm hne
    · rw [List.mem_singleton.mp hm, haddr] at hne
      exact absurd (h.beyond _ le_rfl) hne

theorem Tidy.registered (h : Tidy g d) (hwf : WellFormed d) (halloc : env.allocatesEndpoint = true)
    (node : NodeId) (flags : UInt16) : Tidy g (d.registered env node flags) := by
  have heq : d.registered env node flags = (d.install (d.newNode env node flags) node).extended d.fresh [0] := by
    simp [State.registered, halloc]
  have hnew : ∀ m ∈ (d.install (d.newNode env node flags) node).heap, m.addr = d.fresh →
      m = d.newNode env node flags := by
    intro m hm haddr
    obtain hm | hm := List.mem_append.mp hm
    · exact absurd haddr (Nat.ne_of_lt (hwf.bound m hm).1)
    · exact List.mem_singleton.mp hm
  have hold : ∀ m ∈ (d.install (d.newNode env node flags) node).heap, m.addr ≠ d.fresh → m ∈ d.heap := by
    intro m hm haddr
    obtain hm | hm := List.mem_append.mp hm
    · exact hm
    · exact absurd (congrArg Node.addr (List.mem_singleton.mp hm)) haddr
  rw [heq]
  refine ⟨fun m' hm' => ?_, h.stored, fun m' hm' hne => ?_, fun a ha => ?_⟩
  · obtain ⟨m, hm, rfl⟩ := List.mem_map.mp hm'
    split
    · rename_i haddr
      rw [hnew m hm haddr, ids_extended]
      exact ⟨rfl, rfl, List.nodup_singleton _⟩
    · rename_i haddr
      exact h.counted m (hold m hm haddr)
  · obtain ⟨m, hm, rfl⟩ := List.mem_map.mp hm'
    split at hne
    · rename_i haddr
      have haddr' : (m.extended (d.install (d.newNode env node flags) node).fresh [0]).addr = d.fresh := haddr
      rw [haddr'] at hne
      exact absurd (h.beyond _ le_rfl) hne
    · rename_i haddr
      rw [if_neg haddr]
      exact h.progress m (hold m hm haddr) hne
  · exact h.beyond a (le_trans (Nat.le_add_right_of_le (Nat.le_succ _)) ha)

theorem Change.tidy (h : Change env d i d') (hd : Tidy g d) (hwf : WellFormed d)
    (hidle : ∀ n ∈ d.heap, n.state = .enumerateEndpoints → g n.addr = [])
    (hok : Enumerable g d (env, i)) : Tidy (g.taken d (env, i)) d' := by
  have hsame : reported d i = none → g.taken d (env, i) = g :=
    fun hnone => taken_eq fun n cmd heq => by simp [hnone] at heq
  cases h with
  | same h =>
    rw [hsame h]
    exact hd
  | count h =>
    rw [taken_eq fun n cmd heq => by simp [h] at heq]
    exact hd.count hidle h
  | find h => exact hd.find hwf hok h
  | unfile h hfiles =>
    rw [hsame h]
    exact ⟨hd.counted, hd.stored, hd.progress, hd.beyond⟩
  | register h hfiles halloc =>
    rw [hsame h]
    exact hd.registered hwf (hok.memory halloc) _ _
  | erase h hi hcalls hraw =>
    rw [hsame h]
    exact ⟨fun m hm => hd.counted m (List.mem_of_mem_filter hm), hd.stored.nvmFree _,
      fun m hm => hd.progress m (List.mem_of_mem_filter hm), hd.beyond⟩
  | read h hfiles hread =>
    rename_i node e
    rw [hsame h]
    refine hd.install rfl ?_
    have hids : (placed d.fresh e).ids = e.endpoints.map fun p => p.endpointId := by
      apply List.ext_getElem
      · simp [placed, Node.ids]
      · intro k hk hk'
        simp [placed, Node.ids]
    rw [hids]
    exact hd.stored node e hread
  | mark h hmarks =>
    rw [hsame h]
    induction hmarks with
    | refl => exact hd
    | tail _ hmark ih => exact hmark.tidy ih
  | clear h =>
    rw [hsame h]
    exact ⟨hd.counted, stored_of_nil rfl, hd.progress, hd.beyond⟩
  | destroy h hi hcalls =>
    rw [hsame h]
    exact ⟨fun m hm => hd.counted m (List.mem_of_mem_filter hm), hd.stored,
      fun m hm => hd.progress m (List.mem_of_mem_filter hm), hd.beyond⟩

theorem Tidy.next (h : Tidy (g.taken d (env, i)) (step d (env, i))) : Tidy (g.next d (env, i)) (step d (env, i)) := by
  have hnext : ∀ a, g.next d (env, i) a = [] ∨ g.next d (env, i) a = g.taken d (env, i) a := by
    intro a
    unfold Reported.next
    split
    · exact .inl rfl
    · exact .inr rfl
  refine ⟨h.counted, h.stored, fun n hn hne => ?_, fun a ha => ?_⟩
  · have heq := (hnext n.addr).resolve_left hne
    rw [heq] at hne ⊢
    exact h.progress n hn hne
  · exact (hnext a).elim id fun heq => heq.trans (h.beyond a ha)

theorem Tidy.step (h : Tidy g d) (hwf : WellFormed d)
    (hidle : ∀ n ∈ d.heap, n.state = .enumerateEndpoints → g n.addr = [])
    (hok : Enumerable g d (env, i)) : Tidy (g.next d (env, i)) (Directory.step d (env, i)) := by
  obtain ⟨d₁, hchange, hmoves⟩ := step_leads hwf env i
  have hmove := hmoves (fun _ => True) (closed_true d₁) fun _ _ => trivial
  exact (hmove.tidy (hchange.tidy h hwf hidle hok)).next

end Steps

theorem Enumerates.wellFormed {ok : Reported → State → Env × Input → Prop} {g : Reported} {d : State}
    (h : Enumerates ok g d) : WellFormed d := by
  induction h with
  | start => exact wellFormed_empty _
  | step h hok ih => exact ih.step _ _
  | reboot h ih => exact wellFormed_empty _

theorem Enumerates.idle {ok : Reported → State → Env × Input → Prop} {g : Reported} {d : State}
    (h : Enumerates ok g d) : ∀ n ∈ d.heap, n.state = .enumerateEndpoints → g n.addr = [] := by
  cases h with
  | start => exact fun _ _ _ => rfl
  | step h hok =>
    intro n hn hstate
    rw [Reported.next, (h.wellFormed.step _ _).node?_eq hn]
    simp [hstate]
  | reboot h => exact fun _ _ _ => rfl

theorem Enumerates.tidy {g : Reported} {d : State} (h : Enumerates Enumerable g d) : Tidy g d := by
  induction h with
  | start => exact ⟨fun n hn => by simp [State.empty] at hn, stored_of_nil rfl, fun _ _ hne => absurd rfl hne, fun _ _ => rfl⟩
  | step h hok ih => exact ih.step h.wellFormed h.idle hok
  | reboot h ih => exact ⟨fun n hn => by simp [State.empty] at hn, ih.stored, fun _ _ hne => absurd rfl hne, fun _ _ => rfl⟩

/-! ### Completed enumerations -/

theorem node_foundBy {d : State} {env : Env} {n : Node} {cmd : Bytes} (hn : n ∈ d.heap) (hadds : Adds env n cmd) :
    ∃ n₁ ∈ (d.foundBy env n cmd).heap, n₁.addr = n.addr ∧ n₁.nAggEndpoints = n.nAggEndpoints ∧
      n₁.ids = n.ids ++ findReportIds env n cmd := by
  unfold State.foundBy
  split
  · refine ⟨n.extended d.fresh (findReportIds env n cmd), ?_, rfl, rfl, ids_extended ..⟩
    refine List.mem_map.mpr ⟨n, hn, if_pos rfl⟩
  · rename_i halloc
    refine ⟨n, hn, rfl, rfl, ?_⟩
    rw [hadds.resolve_left halloc, List.append_nil]

theorem Tidy.completes {g : Reported} {d : State} {i : Env × Input} (h : Tidy g d) (hwf : WellFormed d)
    (hok : Enumerable g d i) : Completes g d i := by
  intro n cmd hreport hlast hadds
  obtain ⟨k, r, -, -, -, -, hn, -⟩ := reported_find hreport
  obtain ⟨d₁, hchange, hmoves⟩ := step_leads hwf i.1 i.2
  have hd₁ : d₁ = d.foundBy i.1 n cmd := by
    cases hchange with
    | find hreport' =>
      rw [hreport, Option.some_inj, Report.find.injEq] at hreport'
      rw [hreport'.1, hreport'.2]
    | _ => simp_all
  have hmove := hmoves (fun _ => True) (closed_true d₁) fun _ _ => trivial
  obtain ⟨n₁, hn₁, haddr, hagg, hids⟩ := node_foundBy (mem_of_node? hn) hadds
  have hskeleton : n₁.skeleton ∈ (Directory.step d i).heap.map Node.skeleton := by
    have hskel : (Directory.step d i).heap.map Node.skeleton = d₁.heap.map Node.skeleton :=
      hmove.quiet.skeletons
    rw [hskel, hd₁]
    exact List.mem_map_of_mem hn₁
  obtain ⟨n', hn', heq⟩ := List.mem_map.mp hskeleton
  obtain ⟨hids', haddr', -, hagg'⟩ := ids_of_skeleton heq
  refine ⟨n', aggregatedIds ((individualIds cmd).getLast?.getD i.1.staleEpid) n.nAggEndpoints, ?_, ?_, ?_⟩
  · rw [← haddr, ← haddr']
    exact (hwf.step i.1 i.2).node?_eq hn'
  · rw [hids', hids, h.ids_eq hok hreport, List.cons_append, List.append_assoc]
    rfl
  · rw [hagg', hagg]
    simp [aggregatedIds]

/-- In every run in which the enumerations are as they should be, the list of endpoints is right in
every state that is reached, and it is what was reported once an enumeration is complete. -/
theorem endpoints_right_of_enumerable {g : Reported} {d : State} (h : Enumerates Enumerable g d) :
    EndpointsRight d ∧ ∀ i, Enumerable g d i → Completes g d i := by
  have hd := h.tidy
  exact ⟨fun node n hraw => hd.counted n (h.wellFormed.nodeGetRaw_eq hraw).1,
    fun i hok => hd.completes h.wellFormed hok⟩

def answered (frame : Bytes) : List (Env × Input) :=
  settled (.transmitted 0 true) ++ settled (.response 0 frame)

def enumerated (node : NodeId) : List (Env × Input) :=
  settled (.registerNewNode node 0) ++ settled (.nif true node [4, 0x10, 0x01, 0x60]) ++
    answered [0x86, 0x14, 0x60, 0x04] ++ settled (.nameProbeDone true false) ++
    answered [0x60, 0x08, 0x00, 0x02, 0x00] ++ answered [0x60, 0x0C, 0x00, 0x10, 0x01, 0x01, 0x02]

def Continued : Reported → State → List (Env × Input) → Prop
  | _, _, [] => True
  | g, d, i :: inputs =>
    i.1.allocatesEndpoint = true ∧ Proper g i.1 (reported d i.2) ∧ Continued (g.next d i) (step d i) inputs

instance decidableContinued : ∀ g d inputs, Decidable (Continued g d inputs)
  | _, _, [] => isTrue trivial
  | g, d, i :: inputs =>
    have := decidableContinued (g.next d i) (step d i) inputs
    inferInstanceAs (Decidable (_ ∧ _ ∧ _))

theorem Enumerates.run {g : Reported} {d : State} (h : Enumerates Enumerable g d)
    {inputs : List (Env × Input)} (hinputs : Continued g d inputs) :
    ∃ g', Enumerates Enumerable g' (run d inputs) := by
  induction inputs generalizing g d with
  | nil => exact ⟨g, h⟩
  | cons i inputs ih => exact ih (h.step ⟨fun _ => hinputs.1, hinputs.2.1⟩) hinputs.2.2

theorem enumerated_right :
    let d := run (State.empty Database.empty) (enumerated 5)
    (d.nodeGetRaw 5).any (fun n => n.ids = [0, 1, 2]) = true ∧ EndpointsRight d := by
  intro d
  have hinputs : Continued (fun _ => []) (State.empty Database.empty) (enumerated 5) := by
    decide
  obtain ⟨g, hg⟩ := Enumerates.start.run hinputs
  exact ⟨by decide, (endpoints_right_of_enumerable hg).1⟩

def enumeratedAgain : List (Env × Input) :=
  enumerated 5 ++ settled (.requestTimeout 0) ++ enumerated 5

theorem enumeratedAgain_ids : ((run (State.empty Database.empty) enumeratedAgain).nodeGetRaw 5).any
      (fun n => n.ids = [0, 1, 2, 1, 2]) = true := by
  decide +kernel

theorem enumeratedAgain_twice : ¬ ∀ d, Reach (fun _ _ => True) d → EndpointsRight d := by
  intro h
  obtain ⟨n, hraw, hids⟩ := (Option.any_eq_true _ _).mp enumeratedAgain_ids
  have hcounted := h _ (Reach.start.run (allowed_true _ enumeratedAgain)) 5 n hraw
  have hnodup := hcounted.nodup
  rw [of_decide_eq_true hids] at hnodup
  exact absurd hnodup (by decide)

end ZipGateway.Directory

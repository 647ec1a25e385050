import ZipGateway.Directory.Heap

/-!
# Steps of the directory

Every step is a change after which the interview goes on. The module ends with the states that are
reachable.
-/

namespace ZipGateway.Directory

open State

/-! ### Steps -/

def Event.refs : Event → List Ref
  | .updateEpName e _ => [.ep e]
  | .updateEpLocation e _ => [.ep e]
  | .updateEpNameAndLocation e _ _ => [.ep e]
  | _ => []

def Input.refs : Input → List Ref
  | .event e => e.refs
  | .proceed => []

def requestUser (d : State) (k : Nat) (calls : Request → Bool) : List Addr :=
  ((d.requests[k]?).filter fun r => r.kind.forNode && calls r).toList.map Request.user

def Event.touches (d : State) : Event → List Addr
  | .transmitted k ok => requestUser d k fun r => !(ok && !r.waiting)
  | .requestTimeout k => requestUser d k fun _ => true
  | .response k _ => requestUser d k fun r => r.waiting
  | .findReportTimeout => d.findReportTimer.toList
  | .assignReturnRoute => d.currentProbeEntry.toList
  | .wuIntervalSet k => d.wuIntervalSets[k]?.toList
  | _ => []

def Call.touches (env : Env) (d : State) : Call → List Addr
  | .registerNewNode node _ =>
    if env.isVirtual node then [] else ((d.nodeGetRaw node).map Node.addr).toList
  | .removeNode node =>
    (d.requests.filter fun r => r.waiting ∧ r.node = node.toUInt8.toUInt16 ∧ r.kind.forNode).map Request.user
  | _ => []

def touched (env : Env) (d : State) : Input → List Addr
  | .event e => if d.calls.isEmpty then e.touches d else []
  | .proceed => d.calls.head?.elim [] fun c => c.touches env d

def Disturbs (env : Env) (d : State) (i : Input) : Prop :=
  ∃ a ∈ touched env d i, Failing d a

instance (d : State) (a : Addr) : Decidable (Failing d a) :=
  inferInstanceAs (Decidable (∃ n ∈ d.heap, n.addr = a ∧ n.state = .failing))

instance (env : Env) (d : State) (i : Input) : Decidable (Disturbs env d i) :=
  inferInstanceAs (Decidable (∃ a ∈ touched env d i, Failing d a))

variable {cmd : Bytes} {c : Call} {rest : List Call} {k : Nat} {n : Node} {x : Prop} {P : Ref → Prop} {r : Request}

theorem mem_requestUser {d : State} (calls : Request → Bool) (hr : d.requests[k]? = some r)
    (hfor : r.kind.forNode = true) (hcalls : calls r = true) : r.user ∈ requestUser d k calls := by
  simp [requestUser, hr, hfor, hcalls]

section Step

variable {d : State} {env : Env} {i : Input}

def Leads (env : Env) (d : State) (i : Input) (d₁ d' : State) : Prop :=
  Change env d i d₁ ∧ ∀ P : Ref → Prop, Closed P d₁ → (∀ r ∈ i.refs, P r) → Moves P (Disturbs env d i) d₁ d'

theorem leads_same (hreport : reported d i = none) {d' : State}
    (h : ∀ P : Ref → Prop, Closed P d → (∀ r ∈ i.refs, P r) → Moves P (Disturbs env d i) d d') :
    ∃ d₁, Leads env d i d₁ d' :=
  ⟨d, .same hreport, h⟩

theorem leads_mark (hreport : reported d i = none) {d' : State}
    (h : Relation.ReflTransGen Mark d d') : ∃ d₁, Leads env d i d₁ d' :=
  ⟨d', .mark hreport h, fun P _ _ => (Quiet.refl P _ d').moves⟩

theorem quiet_calls {d d' : State} (hndb : d'.ndb = d.ndb) (hfresh : d'.fresh = d.fresh)
    (hdb : d'.db = d.db) (hheap : d'.heap = d.heap) (hpending : d'.pending = d.pending)
    (hcurrent : ptrs .node d'.currentProbeEntry ⊆ ptrs .node d.currentProbeEntry)
    (hnif : ptrs .ep d'.nifRequestEp ⊆ ptrs .ep d.nifRequestEp)
    (hcalls : ∀ c ∈ d'.calls, c.refs = []) : Quiet P x d d' := by
  refine (Quiet.refl P x d).keep hndb hfresh hdb hheap fun r hr => .inl ?_
  have hnone : d'.calls.flatMap Call.refs = [] := by
    rw [List.flatMap_eq_nil_iff]
    exact hcalls
  simp only [State.refs, State.held, hpending, hnone, List.append_nil, List.mem_append] at hr ⊢
  have := @hcurrent r
  have := @hnif r
  tauto

theorem event_leads (hwf : WellFormed d) (hcalls : d.calls = []) (e : Event)
    (hresponse : ∀ k cmd, e ≠ .response k cmd) :
    ∃ d₁, Leads env d (.event e) d₁ (d.event env e) := by
  have hreport : reported d (.event e) = none := by
    cases e <;> first | rfl | exact absurd rfl (hresponse _ _)
  have hdisturbs : ∀ a ∈ e.touches d, Failing d a → Disturbs env d (.event e) := by
    intro a ha hfailing
    exact ⟨a, by simpa [touched, hcalls] using ha, hfailing⟩
  have hrefl : ∀ P, Quiet P (Disturbs env d (.event e)) d d := fun P => Quiet.refl P _ d
  cases e with
  | registerNewNode node flags =>
    exact leads_same hreport fun P _ _ => ((hrefl P).call (by simp [Call.refs])).moves
  | removeNode node =>
    exact leads_same hreport fun P _ _ => ((hrefl P).call (by simp [Call.refs])).moves
  | init lock clear nodelist =>
    have hrefs : ∀ c ∈ (d.init env lock clear nodelist).calls, c.refs = [] := by
      intro c hc
      simp only [State.init, List.cons_append, List.mem_cons, List.mem_append, List.mem_map,
        List.not_mem_nil, or_false] at hc
      obtain rfl | ⟨k, -, rfl⟩ | rfl := hc
      · rfl
      · split <;> rfl
      · rfl
    cases clear with
    | true =>
      refine ⟨d.cleared, .clear hreport, fun P _ _ => Quiet.moves ?_⟩
      exact quiet_calls rfl rfl rfl rfl rfl (List.nil_subset _) (List.nil_subset _) hrefs
    | false =>
      refine leads_same hreport fun P _ _ => Quiet.moves ?_
      exact quiet_calls rfl rfl rfl rfl rfl (List.nil_subset _) (List.nil_subset _) hrefs
  | fullNetworkDiscovery nodelist =>
    refine leads_same hreport fun P _ _ => Quiet.moves ?_
    refine quiet_calls rfl rfl rfl rfl rfl (List.Subset.refl _) (List.Subset.refl _) fun c hc => ?_
    simp only [State.event, State.fullNetworkDiscovery, List.mem_map] at hc
    obtain ⟨k, -, rfl⟩ := hc
    split <;> rfl
  | probeNewNodes nodelist =>
    refine leads_same hreport fun P _ _ => Quiet.moves ?_
    refine quiet_calls rfl rfl rfl rfl rfl (List.Subset.refl _) (List.Subset.refl _) fun c hc => ?_
    simp only [State.event, State.probeNewNodes, List.mem_map] at hc
    obtain ⟨k, -, rfl⟩ := hc
    rfl
  | exit => exact leads_same hreport fun P _ _ => quiet_exit.moves
  | destroy => exact ⟨_, .destroy hreport rfl hcalls, fun P _ _ => (Quiet.refl P _ _).moves⟩
  | mdnsRestart =>
    refine leads_same hreport fun P _ _ => Quiet.moves ?_
    refine (hrefl P).keep rfl rfl rfl rfl fun r hr => .inl ?_
    simp only [State.event, State.refs, State.held, State.pending, Option.toList_none, List.mem_append,
      List.not_mem_nil, or_false] at hr ⊢
    tauto
  | probeLock enable =>
    refine leads_same hreport fun P _ _ => Quiet.moves ?_
    cases enable with
    | true => exact (hrefl P).keep rfl rfl rfl rfl fun r hr => .inl hr
    | false =>
      have hunlock : Quiet P (Disturbs env d (.event (.probeLock false))) d { d with probeLock := false } :=
        (hrefl P).keep rfl rfl rfl rfl fun r hr => .inl hr
      exact hunlock.call (by simp [Call.refs])
  | probeCancel =>
    refine leads_same hreport fun P _ _ => Quiet.moves ?_
    exact (hrefl P).clearCurrent.keep rfl rfl rfl rfl fun r hr => .inl hr
  | nodeProbeUpdate node =>
    refine leads_same hreport fun P hclosed _ => Quiet.moves ?_
    simp only [State.event]
    split
    · rename_i n hn
      exact (hrefl P).call (by simpa [Call.refs] using hclosed.raw hn)
    · exact hrefl P
  | nif status node nif =>
    exact leads_same hreport fun P hclosed _ => (quiet_nifRequestNotify hclosed status node nif).moves
  | nifTimeout =>
    exact leads_same hreport fun P hclosed _ => (quiet_nodeInfoRequestTimeout hclosed).moves
  | findReportTimeout =>
    refine leads_same hreport fun P hclosed _ => (quiet_findReportTimedOut hclosed ?_).moves
    exact fun a ha => hdisturbs a (by simp [Event.touches, ha])
  | epProbeUpdateTimeout =>
    refine leads_same hreport fun P hclosed _ => Quiet.moves ?_
    simp only [State.event]
    split
    · rename_i e he
      have hclear : Quiet P (Disturbs env d (.event .epProbeUpdateTimeout)) d
          { d with epProbeUpdateTimer := none } := by
        refine (hrefl P).keep rfl rfl rfl rfl fun r hr => .inl ?_
        simp only [State.refs, State.held, State.pending, ptrs, Option.map_none, Option.toList_none,
          List.mem_append, List.not_mem_nil] at hr ⊢
        tauto
      refine hclear.call ?_
      have he' : P (.ep e) :=
        hclosed.refs _ (by simp [State.refs, State.held, State.pending, ptrs, he])
      simpa [Call.refs] using he'
    · exact hrefl P
  | nodeProbeUpdateTimeout =>
    refine leads_same hreport fun P hclosed _ => Quiet.moves ?_
    simp only [State.event]
    split
    · rename_i a ha
      have hclear : Quiet P (Disturbs env d (.event .nodeProbeUpdateTimeout)) d
          { d with nodeProbeUpdateTimer := none } := by
        refine (hrefl P).keep rfl rfl rfl rfl fun r hr => .inl ?_
        simp only [State.refs, State.held, State.pending, ptrs, Option.map_none, Option.toList_none,
          List.mem_append, List.not_mem_nil] at hr ⊢
        tauto
      refine hclear.call ?_
      have ha' : P (.node a) :=
        hclosed.refs _ (by simp [State.refs, State.held, State.pending, ptrs, ha])
      simpa [Call.refs] using ha'
    · exact hrefl P
  | transmitted k ok =>
    refine leads_same hreport fun P hclosed _ => Quiet.moves ?_
    exact quiet_requestTransmitted hclosed k ok fun r hr hfor hcalled =>
      hdisturbs _ (mem_requestUser _ hr hfor (by cases ok <;> simp_all))
  | requestTimeout k =>
    refine leads_same hreport fun P hclosed _ => Quiet.moves ?_
    exact quiet_requestTimeout (hrefl P) rfl rfl hclosed k fun r hr hfor =>
      hdisturbs _ (mem_requestUser _ hr hfor rfl)
  | response k cmd => exact absurd rfl (hresponse k cmd)
  | assignReturnRoute =>
    refine leads_same hreport fun P hclosed _ => (quiet_assignReturnRouteCallback hclosed ?_).moves
    exact fun a ha => hdisturbs a (by simp [Event.touches, ha])
  | wuIntervalSet k =>
    refine leads_same hreport fun P hclosed _ => (quiet_setWuIntervalCallback hclosed k ?_).moves
    exact fun a ha => hdisturbs a (by simp [Event.touches, ha])
  | nameProbeDone ok tie =>
    exact leads_same hreport fun P hclosed _ => (quiet_nameProbeDone hclosed hwf ok tie).moves
  | deadNodesWorker => exact leads_mark hreport (marks_worker env d)
  | unreachable node =>
    refine leads_mark hreport ?_
    simp only [State.event, State.nodeIsUnreachable]
    split
    · exact .refl
    · split
      · exact .single (.failing _ _)
      · exact .refl
  | alive node =>
    refine leads_mark hreport ?_
    simp only [State.event, State.nodeIsAlive]
    split
    · exact .refl
    · exact (Relation.ReflTransGen.single (.awake _ _)).tail (.failing _ _)
  | setFailing node failing =>
    refine leads_mark hreport ?_
    simp only [State.event]
    split
    · exact .single (.failing _ _)
    · exact .refl
  | markDeleted node =>
    refine leads_same hreport fun P _ _ => Quiet.moves ?_
    simp only [State.event]
    split
    · exact (hrefl P).modifyNode _ _ nodeStep_setDeleted
    · exact hrefl P
  | setCacheEntryFlag node value mask =>
    refine leads_same hreport fun P _ _ => ?_
    simp only [State.event]
    split
    · refine Quiet.persist ?_ _
      exact (hrefl P).modifyNode _ _ fun m => ⟨rfl, .inl ⟨rfl, rfl⟩⟩
    · exact (hrefl P).moves
  | updateEpName e name =>
    refine leads_same hreport fun P hclosed hrefs => Quiet.moves ?_
    exact quiet_updateEpName hwf hclosed (hrefs _ (by simp [Input.refs, Event.refs])) name
  | updateEpLocation e location =>
    refine leads_same hreport fun P hclosed hrefs => Quiet.moves ?_
    exact quiet_updateEpLocation hwf hclosed (hrefs _ (by simp [Input.refs, Event.refs])) location
  | updateEpNameAndLocation e name location =>
    refine leads_same hreport fun P hclosed hrefs => Quiet.moves ?_
    exact quiet_updateEpNameAndLocation hwf hclosed (hrefs _ (by simp [Input.refs, Event.refs])) name location

/-! ### Reports -/

theorem reported_count (h : reported d i = some (.count n cmd)) :
    ∃ k r, i = .event (.response k cmd) ∧ d.calls = [] ∧ d.requests[k]? = some r ∧ r.waiting = true ∧
      d.node? r.user = some n ∧ r.kind = .epGet ∧ n.state = .enumerateEndpoints := by
  unfold reported at h
  split at h
  · rename_i k cmd'
    split_ifs at h with hcalls
    split at h
    · rename_i r hr
      split_ifs at h with hwaiting
      split at h
      · rename_i n' hn
        split_ifs at h with hkind
        · cases h
          exact ⟨k, r, rfl, List.isEmpty_iff.mp hcalls, hr, hwaiting, hn, hkind⟩
        · cases h
      · cases h
    · cases h
  · cases h

theorem reported_find (h : reported d i = some (.find n cmd)) :
    ∃ k r, i = .event (.response k cmd) ∧ d.calls = [] ∧ d.requests[k]? = some r ∧ r.waiting = true ∧
      d.node? r.user = some n ∧ r.kind = .epFind ∧ n.state = .findEndpoints := by
  unfold reported at h
  split at h
  · rename_i k cmd'
    split_ifs at h with hcalls
    split at h
    · rename_i r hr
      split_ifs at h with hwaiting
      split at h
      · rename_i n' hn
        split_ifs at h with hcount hkind
        · cases h
        · cases h
          exact ⟨k, r, rfl, List.isEmpty_iff.mp hcalls, hr, hwaiting, hn, hkind⟩
      · cases h
    · cases h
  · cases h

theorem not_report (hcalls : d.calls = []) (h : reported d (.event (.response k cmd)) = none)
    (r : Request) (n : Node) (hr : d.requests[k]? = some r) (hwaiting : r.waiting = true)
    (hn : d.node? r.user = some n) :
    ¬(r.kind = .epGet ∧ n.state = .enumerateEndpoints) ∧ ¬(r.kind = .epFind ∧ n.state = .findEndpoints) := by
  simp only [reported, hcalls, List.isEmpty_nil, if_true, hr, hwaiting, hn] at h
  split_ifs at h with hcount hfind
  exact ⟨hcount, hfind⟩

theorem newEndpoints_cons (a : Addr) (epid : UInt8) (ids : List UInt8) :
    newEndpoints a (epid :: ids) = newEndpoints a [epid] ++ newEndpoints (a + 1) ids := by
  simp only [newEndpoints, List.zipIdx_cons, List.zipIdx_nil, List.map_cons, List.map_nil,
    List.singleton_append, List.cons.injEq, true_and]
  rw [List.zipIdx_eq_map_add, List.map_map]
  refine List.map_congr_left fun q _ => ?_
  simp only [Function.comp_apply, Endpoint.mk.injEq, true_and]
  change a + (0 + 1 + q.2) = a + 1 + q.2
  rw [Nat.zero_add, Nat.add_assoc]

theorem extended_nil (a : Addr) (n : Node) : n.extended a [] = n := by
  simp [Node.extended, newEndpoints]

theorem extended_cons (a : Addr) (epid : UInt8) (ids : List UInt8) (n : Node) :
    (n.extended a [epid]).extended (a + 1) ids = n.extended a (epid :: ids) := by
  simp only [Node.extended, newEndpoints_cons a epid ids, List.append_assoc, Node.mk.injEq,
    NodeHeader.mk.injEq, true_and, and_true, List.length_cons, List.length_nil]
  rw [UInt8.add_assoc, ← UInt8.ofNat_add, Nat.zero_add, Nat.add_comm]

theorem modifyNode_modifyNode (d : State) (a : Addr) (f g : Node → Node)
    (hf : ∀ n, (f n).addr = n.addr) : (d.modifyNode a f).modifyNode a g = d.modifyNode a (g ∘ f) := by
  simp only [State.modifyNode, List.map_map]
  congr 1
  refine List.map_congr_left fun n _ => ?_
  by_cases ha : n.addr = a <;> simp [ha, hf]

theorem addEndpoints_eq (env : Env) (a : Addr) (ids : List UInt8) (d : State) : addEndpoints env a d ids =
      if env.allocatesEndpoint then (d.extended a ids, true) else (d, ids.isEmpty) := by
  cases halloc : env.allocatesEndpoint with
  | false =>
    cases ids with
    | nil => rfl
    | cons epid ids => simp [addEndpoints, addEndpoint, halloc]
  | true =>
    simp only [if_true]
    induction ids generalizing d with
    | nil =>
      have hsame : Node.extended d.fresh [] = id := funext (extended_nil d.fresh)
      simp [addEndpoints, State.extended, State.modifyNode, hsame]
    | cons epid ids ih =>
      have hone : d.addEndpoint env a epid = some (d.extended a [epid]) := by
        rw [addEndpoint, if_pos halloc]
        rfl
      rw [addEndpoints, hone]
      dsimp only
      rw [ih]
      congr 1
      have htwo := modifyNode_modifyNode d a (Node.extended d.fresh [epid])
        (Node.extended (d.fresh + 1) ids) fun _ => rfl
      have hcomp : Node.extended (d.fresh + 1) ids ∘ Node.extended d.fresh [epid] =
          Node.extended d.fresh (epid :: ids) := funext (extended_cons d.fresh epid ids)
      rw [hcomp] at htwo
      have hheap := congrArg State.heap htwo
      have hfresh : d.fresh + 1 + ids.length = d.fresh + (ids.length + 1) := by
        rw [Nat.add_assoc, Nat.add_comm 1]
      simp only [State.extended, State.modifyNode, List.length_cons, List.length_nil] at hheap ⊢
      rw [hheap, hfresh]

theorem failing_of_modifyNode {a b : Addr} {f : Node → Node}
    (hf : ∀ n, (f n).addr = n.addr ∧ (f n).state = n.state) (h : Failing (d.modifyNode b f) a) :
    Failing d a := by
  obtain ⟨m, hm, haddr, hfailing⟩ := h
  obtain ⟨n, hn, rfl⟩ := List.mem_map.mp hm
  refine ⟨n, hn, ?_⟩
  split_ifs at haddr hfailing
  · exact ⟨(hf n).1 ▸ haddr, (hf n).2 ▸ hfailing⟩
  · exact ⟨haddr, hfailing⟩

theorem failing_of_counted {a : Addr} (h : Failing (d.counted n cmd) a) : Failing d a := by
  unfold State.counted at h
  split at h
  · refine failing_of_modifyNode ?_ h
    exact fun _ => ⟨rfl, rfl⟩
  · exact h

theorem failing_of_foundBy {a : Addr} (h : Failing (d.foundBy env n cmd) a) : Failing d a := by
  unfold State.foundBy at h
  split at h
  · refine failing_of_modifyNode (b := n.addr) (f := Node.extended d.fresh (findReportIds env n cmd)) ?_ h
    exact fun _ => ⟨rfl, rfl⟩
  · exact h

theorem fields_counted (d : State) (n : Node) (cmd : Bytes) :
    (d.counted n cmd).requests = d.requests ∧ (d.counted n cmd).refs = d.refs := by
  unfold State.counted
  split <;> exact ⟨rfl, rfl⟩

theorem fields_foundBy (d : State) (env : Env) (n : Node) (cmd : Bytes) :
    (d.foundBy env n cmd).requests = d.requests ∧ (d.foundBy env n cmd).refs = d.refs := by
  unfold State.foundBy
  split <;> exact ⟨rfl, rfl⟩

theorem requestResponse_count (hr : d.requests[k]? = some r) (hwaiting : r.waiting = true)
    (hn : d.node? r.user = some n) (hkind : r.kind = .epGet)
    (hstate : n.state = .enumerateEndpoints) :
    d.requestResponse env k cmd = { d.counted n cmd with
        requests := d.requests.eraseIdx k
        identicalEndpoints := cmd.getD 2 0 &&& 0x40 ≠ 0 }.goto n.addr .findEndpoints := by
  have hn' : { d with requests := d.requests.eraseIdx k }.node? r.user = some n := hn
  have hfor : r.kind.forNode = true := by rw [hkind]; rfl
  simp only [State.requestResponse, hr, hwaiting, if_true, State.requestCallback, hfor, hn']
  simp only [hkind, State.nodeCallback, State.epGetCallback, hstate, if_true, State.counted]
  split <;> rfl

theorem requestResponse_find (env : Env) (cmd : Bytes) (hr : d.requests[k]? = some r)
    (hwaiting : r.waiting = true) (hn : d.node? r.user = some n) (hkind : r.kind = .epFind)
    (hstate : n.state = .findEndpoints) :
    let d' := { d.foundBy env n cmd with requests := d.requests.eraseIdx k, findReportTimer := none }
    d.requestResponse env k cmd = d'.goto n.addr .probeFail ∨
      d.requestResponse env k cmd = d'.goto n.addr .checkWuCcVersion ∨
      d.requestResponse env k cmd = { d' with findReportTimer := some n.addr, requests := d'.requests ++ [r] } := by
  have hn' : { d with requests := d.requests.eraseIdx k }.node? r.user = some n := hn
  have hfor : r.kind.forNode = true := by rw [hkind]; rfl
  intro d'
  have hadd : addEndpoints env n.addr
      { d with requests := d.requests.eraseIdx k, findReportTimer := none } (findReportIds env n cmd) =
        (d', env.allocatesEndpoint || (findReportIds env n cmd).isEmpty) := by
    rw [addEndpoints_eq]
    simp only [d', State.foundBy]
    cases env.allocatesEndpoint <;> rfl
  simp only [State.requestResponse, hr, hwaiting, if_true, State.requestCallback, hfor, hn']
  simp only [hkind, State.nodeCallback, State.epFindCallback, hstate, if_true, hadd]
  cases env.allocatesEndpoint || (findReportIds env n cmd).isEmpty with
  | false => exact .inl rfl
  | true =>
    by_cases hmore : cmd.getD 2 0 = 0
    · simp only [hmore, ne_eq, not_true_eq_false, if_false]
      exact .inr (.inl trivial)
    · simp only [ne_eq, hmore, not_false_eq_true, if_true]
      exact .inr (.inr trivial)

theorem response_leads (hwf : WellFormed d) (hcalls : d.calls = []) (k : Nat) (cmd : Bytes) :
    ∃ d₁, Leads env d (.event (.response k cmd)) d₁ (d.requestResponse env k cmd) := by
  cases hreport : reported d (.event (.response k cmd)) with
  | none =>
    refine leads_same hreport fun P hclosed _ => Quiet.moves ?_
    refine quiet_requestResponse hclosed k cmd (fun r hr hfor hwaiting hfailing => ?_) (not_report hcalls hreport)
    refine ⟨r.user, ?_, hfailing⟩
    simpa [touched, hcalls, Event.touches] using mem_requestUser (fun r => r.waiting) hr hfor hwaiting
  | some report =>
    cases report with
    | count n cmd' =>
      refine ⟨d.counted n cmd', .count hreport, fun P hclosed _ => Quiet.moves ?_⟩
      obtain ⟨k', r, hi, -, hr, hwaiting, hn, hkind, hstate⟩ := reported_count hreport
      cases hi
      obtain ⟨hrequests, hrefs⟩ := fields_counted d n cmd
      rw [requestResponse_count hr hwaiting hn hkind hstate, ← hrequests]
      have hnode : P (.node n.addr) := by
        rw [addr_of_node? hn]
        have hmem := mem_refs_of_request hr
        rw [← hrefs] at hmem
        simpa [Request.ref, hkind, RequestKind.forNode] using hclosed.refs _ hmem
      refine Quiet.goto ?_ (by decide) (fun hfailing => ?_) hnode
      · refine (quiet_eraseRequest (Quiet.refl P _ _) k).keep rfl rfl rfl rfl fun r hr => .inl hr
      · refine absurd (failing_of_counted hfailing) (hwf.not_failing (mem_of_node? hn) ?_)
        simp [hstate]
    | find n cmd' =>
      refine ⟨d.foundBy env n cmd', .find hreport, fun P hclosed _ => Quiet.moves ?_⟩
      obtain ⟨k', r, hi, -, hr, hwaiting, hn, hkind, hstate⟩ := reported_find hreport
      cases hi
      obtain ⟨hrequests, hrefs⟩ := fields_foundBy d env n cmd
      have hmem := mem_refs_of_request hr
      rw [← hrefs] at hmem
      have hnode : P (.node n.addr) := by
        rw [addr_of_node? hn]
        simpa [Request.ref, hkind, RequestKind.forNode] using hclosed.refs _ hmem
      have hx : Failing (d.foundBy env n cmd) n.addr → Disturbs env d (.event (.response k cmd)) := by
        intro hfailing
        refine absurd (failing_of_foundBy hfailing) (hwf.not_failing (mem_of_node? hn) ?_)
        simp [hstate]
      have hbase : Quiet P (Disturbs env d (.event (.response k cmd))) (d.foundBy env n cmd) { d.foundBy env n cmd with
            requests := d.requests.eraseIdx k, findReportTimer := none } := by
        rw [← hrequests]
        exact (quiet_eraseRequest (Quiet.refl P _ _) k).clearFindReportTimer
      obtain heq | heq | heq := requestResponse_find env cmd hr hwaiting hn hkind hstate
      · rw [heq]
        exact hbase.goto (by decide) hx hnode
      · rw [heq]
        exact hbase.goto (by decide) hx hnode
      · rw [heq]
        refine hbase.keep rfl rfl rfl rfl fun r' hr' => ?_
        simp only [State.refs, State.held, State.pending, ptrs, Option.map_some, Option.toList_some,
          List.map_append, List.map_singleton, List.mem_append, List.mem_singleton] at hr' ⊢
        by_cases heq' : r' = .node n.addr
        · exact .inr (heq' ▸ hnode)
        · by_cases heq'' : r' = r.ref
          · exact .inr (heq'' ▸ hclosed.refs _ hmem)
          · tauto

/-! ### Calls -/

theorem quiet_pop (d : State) (h : d.calls = c :: rest) : Quiet P x d { d with calls := rest } := by
  refine (Quiet.refl P x d).keep rfl rfl rfl rfl fun r hr => .inl ?_
  simp only [State.refs, State.held, State.pending, h, List.flatMap_cons, List.mem_append] at hr ⊢
  tauto

theorem Closed.of_call {d : State} (hclosed : Closed P d) (h : d.calls = c :: rest) : ∀ r ∈ c.refs, P r := by
  intro r hr
  refine hclosed.refs r ?_
  simp only [State.refs, State.held, h, List.flatMap_cons, List.mem_append]
  tauto

theorem WellFormed.moves_nodeProbeUpdate (hwf : WellFormed d) (env : Env) (a : Addr)
    (hn : ∀ n, d.node? a = some n → P (.node n.addr) ∧ ∀ p ∈ n.endpoints, P (.ep p.addr)) :
    Moves P x d (d.nodeProbeUpdate env a) := by
  by_cases hfailing : Failing d a
  · obtain ⟨n, hmem, rfl, hstate⟩ := hfailing
    have hrefl := Quiet.refl P x d
    unfold State.nodeProbeUpdate
    rw [hwf.node?_eq hmem]
    dsimp only
    split_ifs
    · exact hrefl.moves
    · exact hrefl.moves
    · exact hrefl.moves
    · exact hrefl.moves
    · exact (hrefl.call (by simp [Call.refs])).moves
    · unfold State.nodeProbeState
      rw [hstate]
      exact hrefl.moves
  · exact Directory.moves_nodeProbeUpdate env a hn fun h => absurd h hfailing

theorem quiet_resumeImported (hwf : WellFormed d) (hn : n ∈ d.heap) : Quiet P x d (d.resumeImported env n) := by
  have hrefl := Quiet.refl P x d
  have hx : n.state ≠ .failing → Failing d n.addr → x :=
    fun hstate hfailing => absurd hfailing (hwf.not_failing hn hstate)
  unfold State.resumeImported
  dsimp only
  refine Quiet.modifyNode ?_ _ _ fun m => ?_
  · split_ifs with hcreated hasleep hdone
    · have hrestart := quiet_restart hrefl (s := .created) (by decide) .probeInfo (hx (by simp [hcreated]))
      refine hrestart.writeNode _ _ (fun _ => rfl) (fun m hm => ⟨?_, id⟩) (hx (by simp [hcreated]))
      change NodeState.probeFail ≠ .failing
      decide
    · exact quiet_restart hrefl (by decide) .probeInfo (hx (by simp [hcreated]))
    · refine Quiet.modifyNode ?_ _ _ fun m => ⟨rfl, .inl ⟨rfl, rfl⟩⟩
      exact quiet_restart hrefl (by decide) .mdnsProbe (hx (by simp [hdone]))
    · exact hrefl
  · split
    · exact ⟨rfl, .inl ⟨rfl, rfl⟩⟩
    · exact NodeStep.refl x m

theorem ndb_registered (d : State) (env : Env) (node : NodeId) (flags : UInt16) :
    (d.registered env node flags).ndb node = some d.fresh := by
  unfold State.registered
  dsimp only
  split <;> exact Function.update_self ..

theorem registerFresh_leads (hwf : WellFormed d) (hcalls : d.calls = c :: rest)
    (hcall : c.registers = true) {node : NodeId} (hfiles : Files d .proceed node) (flags : UInt16)
    {f : NodeId → Option Addr} (hf : ∀ a, Function.update f node a = Function.update d.ndb node a) :
    ∃ d₁, Leads env d .proceed d₁ ({ d with calls := rest, ndb := f }.registerFresh env node flags) := by
  have hreport : reported d .proceed = none := rfl
  cases halloc : env.allocates with
  | false =>
    refine ⟨_, .unfile hreport hfiles, fun P _ _ => ?_⟩
    simp only [State.registerFresh, halloc, Bool.false_eq_true, if_false, hf]
    exact (quiet_pop { d with ndb := Function.update d.ndb node none } hcalls).moves
  | true =>
    have hchange : Change env d .proceed (d.registered env node flags) :=
      .register hreport hfiles ⟨rfl, by simpa [hcalls] using hcall, halloc⟩
    have hwf' := hchange.wellFormed hwf
    refine ⟨_, hchange, fun P hclosed _ => Quiet.moves ?_⟩
    have hfresh : P (.node d.fresh) := by
      obtain ⟨n, hn, haddr⟩ := hwf'.nodeGetRaw_of_ndb (ndb_registered d env node flags)
      exact haddr ▸ hclosed.raw hn
    cases hep : env.allocatesEndpoint with
    | false =>
      have heq : d.registered env node flags = d.install (d.newNode env node flags) node := by
        simp [State.registered, hep]
      rw [heq] at hwf' ⊢
      simp only [State.registerFresh, halloc, if_true, State.addEndpoint, hep, Bool.false_eq_true,
        if_false, State.install, hf]
      refine (quiet_pop (d.install (d.newNode env node flags) node) hcalls).goto
        (s := .probeFail) (by decide) (fun hfailing => ?_) hfresh
      have hmem : d.newNode env node flags ∈ (d.install (d.newNode env node flags) node).heap :=
        List.mem_append_right _ List.mem_cons_self
      refine absurd hfailing (hwf'.not_failing hmem ?_)
      simp only [State.newNode]
      split <;> decide
    | true =>
      have heq : d.registered env node flags = (d.install (d.newNode env node flags) node).extended d.fresh [0] := by
        simp [State.registered, hep]
      rw [heq]
      simp only [State.registerFresh, halloc, if_true, State.addEndpoint, hep, State.install, hf]
      have hpop := quiet_pop (P := P) (x := Disturbs env d .proceed)
        ((d.install (d.newNode env node flags) node).extended d.fresh [0]) hcalls
      exact hpop.call (c := .nodeProbeUpdate d.fresh) (by simpa [Call.refs] using hfresh)

theorem execute_eraseNode (env : Env) (hwf : WellFormed d) (rest : List Call) {node : NodeId}
    (hzero : node ≠ 0) (hraw : d.nodeGetRaw node = some n) :
    { d with calls := rest }.execute env (.eraseNode node) = { d.erased node n with calls := rest } := by
  have hraw' : { d with calls := rest }.nodeGetRaw node = some n := hraw
  have hid : n.nodeid ≠ 0 := by
    rw [(hwf.nodeGetRaw_eq hraw).2.1]
    exact hzero
  simp only [State.execute, State.eraseNode, hzero, if_false, hraw', hid]
  by_cases hcurrent : d.currentProbeEntry = some n.addr <;> simp [State.erased, hcurrent]

theorem call_leads (hwf : WellFormed d) (hcalls : d.calls = c :: rest) :
    ∃ d₁, Leads env d .proceed d₁ ({ d with calls := rest }.execute env c) := by
  have hreport : reported d .proceed = none := rfl
  have hpop : ∀ P, Quiet P (Disturbs env d .proceed) d { d with calls := rest } :=
    fun P => quiet_pop d hcalls
  have hwf' : WellFormed { d with calls := rest } := hwf.congr rfl rfl rfl
  have hdisturbs : ∀ a ∈ c.touches env d, Failing d a → Disturbs env d .proceed := by
    intro a ha hfailing
    exact ⟨a, by simpa [touched, hcalls] using ha, hfailing⟩
  cases c with
  | nodeProbeUpdate a =>
    refine leads_same hreport fun P hclosed _ => Moves.after (hpop P) ?_
    refine hwf'.moves_nodeProbeUpdate env a fun n hn => ?_
    have ha : P (.node a) := hclosed.of_call hcalls _ (by simp [Call.refs])
    refine ⟨?_, hclosed.endpoints hn ha⟩
    rw [addr_of_node? hn]
    exact ha
  | epProbeUpdate e =>
    refine leads_same hreport fun P hclosed _ => Moves.after (hpop P) (Quiet.moves ?_)
    refine quiet_epProbeUpdate env e fun n p hp => ?_
    have he : P (.ep e) := hclosed.of_call hcalls _ (by simp [Call.refs])
    refine ⟨hclosed.owner hp he, ?_⟩
    rw [(ep?_spec hp).2.2]
    exact he
  | probeResume =>
    refine leads_same hreport fun P hclosed _ => Moves.after (hpop P) (Quiet.moves ?_)
    refine quiet_probeResume (fun a ha => ?_) fun node n hn => hclosed.raw hn
    have hcurrent : d.currentProbeEntry = some a := ha
    exact hclosed.refs _ (by simp [State.refs, ptrs, hcurrent])
  | pcvPostEvent e ev =>
    refine leads_same hreport fun P hclosed _ => Moves.after (hpop P) (Quiet.moves ?_)
    refine quiet_pcvPostEvent env e ev fun n p hp => ?_
    rw [(ep?_spec hp).2.2]
    exact hclosed.of_call hcalls _ (by simp [Call.refs])
  | registerNewNode node flags =>
    simp only [State.execute, State.registerNewNode]
    split
    · exact leads_same hreport fun P _ _ => (hpop P).moves
    · rename_i hvirtual
      split
      · rename_i n hn
        have hraw : d.nodeGetRaw node = some n := hn
        split
        · refine leads_same hreport fun P hclosed _ => Quiet.moves ?_
          refine Quiet.call ?_ (by simpa [Call.refs] using hclosed.raw hraw)
          refine quiet_restart (hpop P) (by decide) .probeInfo (hdisturbs _ ?_)
          simp [Call.touches, hvirtual, hraw]
        · exact leads_same hreport fun P _ _ => (hpop P).moves
      · rename_i hn
        exact registerFresh_leads hwf hcalls rfl (.inl hn) flags fun _ => rfl
  | removeNode node =>
    refine leads_same hreport fun P hclosed _ => Quiet.moves ?_
    have hcall : Quiet P (Disturbs env d .proceed) d
        ({ d with calls := rest }.call (.eraseNode node)) := (hpop P).call (by simp [Call.refs])
    simp only [State.execute, State.removeNode, State.abortSendRequest]
    split
    · rename_i k hk
      refine quiet_requestTimeout hcall rfl rfl hclosed k fun r hr hfor => hdisturbs _ ?_
      have hk' : d.requests.findIdx? (fun r => r.waiting ∧ r.node = node.toUInt8.toUInt16) = some k := hk
      obtain ⟨hlt, hpick, -⟩ := List.findIdx?_eq_some_iff_getElem.mp hk'
      obtain ⟨hlt', hget⟩ := List.getElem?_eq_some_iff.mp hr
      have hr' : r.waiting = true ∧ r.node = node.toUInt8.toUInt16 := by
        rw [← hget]
        simpa using hpick
      simp only [Call.touches, List.mem_map, List.mem_filter, decide_eq_true_eq]
      exact ⟨r, ⟨List.mem_of_getElem? hr, hr'.1, hr'.2, hfor⟩, rfl⟩
    · exact hcall
  | eraseNode node =>
    by_cases hzero : node = 0
    · simp only [State.execute, State.eraseNode, hzero, if_true]
      exact leads_same hreport fun P _ _ => (hpop P).moves
    · cases hraw : d.nodeGetRaw node with
      | none =>
        have hraw' : { d with calls := rest }.nodeGetRaw node = none := hraw
        simp only [State.execute, State.eraseNode, hzero, if_false, hraw']
        exact leads_same hreport fun P _ _ => (hpop P).moves
      | some n =>
        refine ⟨d.erased node n, .erase hreport rfl (by rw [hcalls]; rfl) hraw, fun P _ _ => ?_⟩
        rw [execute_eraseNode env hwf rest hzero hraw]
        have hpop' : Quiet P (Disturbs env d .proceed) (d.erased node n)
            { d.erased node n with calls := rest } := quiet_pop _ hcalls
        exact hpop'.moves
  | importNode node =>
    simp only [State.execute, State.importNode]
    have hfiles : Files d .proceed node := .inr ⟨rfl, by rw [hcalls]; rfl⟩
    split
    · simp only [State.registerNewNode, State.nodeGetRaw, Function.update_self, Option.bind_none]
      split
      · refine ⟨_, .unfile hreport hfiles, fun P _ _ => ?_⟩
        exact (quiet_pop { d with ndb := Function.update d.ndb node none } hcalls).moves
      · exact registerFresh_leads hwf hcalls rfl hfiles 0 fun _ => Function.update_idem ..
    · rename_i e he
      have hread : d.db.read node = some e := he
      have hchange : Change env d .proceed (d.imported node e) := .read hreport hfiles hread
      refine ⟨d.imported node e, hchange, fun P _ _ => ?_⟩
      have hpop' : Quiet P (Disturbs env d .proceed) (d.imported node e)
          { d.imported node e with calls := rest } := quiet_pop _ hcalls
      have hlength : (placed d.fresh e).endpoints.length = e.endpoints.length := by simp [placed]
      have hwf' : WellFormed { d.imported node e with calls := rest } :=
        (hchange.wellFormed hwf).congr rfl rfl rfl
      refine Moves.after hpop' (Quiet.moves ?_)
      rw [hlength]
      exact quiet_resumeImported hwf' (List.mem_append_right _ List.mem_cons_self)

theorem step_leads (hwf : WellFormed d) (env : Env) (i : Input) : ∃ d₁, Leads env d i d₁ (step d (env, i)) := by
  cases i with
  | event e =>
    by_cases hcalls : d.calls = []
    · have hstep : step d (env, .event e) = d.event env e := by simp [step, hcalls]
      rw [hstep]
      cases e with
      | response k cmd => exact response_leads hwf hcalls k cmd
      | _ => exact event_leads hwf hcalls _ (by simp)
    · have hstep : step d (env, .event e) = d := by simp [step, hcalls]
      have hreport : reported d (.event e) = none := by
        unfold reported
        split
        · simp [hcalls]
        · rfl
      rw [hstep]
      exact leads_same hreport fun P _ _ => (Quiet.refl P _ d).moves
  | proceed =>
    cases hcalls : d.calls with
    | nil =>
      have hstep : step d (env, .proceed) = d := by simp [step, hcalls]
      rw [hstep]
      exact leads_same rfl fun P _ _ => (Quiet.refl P _ d).moves
    | cons c rest =>
      have hstep : step d (env, .proceed) = { d with calls := rest }.execute env c := by
        simp [step, hcalls]
      rw [hstep]
      exact call_leads hwf hcalls

theorem closed_true (d : State) : Closed (fun _ => True) d :=
  ⟨fun _ _ => trivial, fun _ _ _ _ => trivial, fun _ _ => trivial, fun _ => trivial⟩

theorem WellFormed.step (h : WellFormed d) (env : Env) (i : Input) : WellFormed (Directory.step d (env, i)) := by
  obtain ⟨d₁, hchange, hmoves⟩ := step_leads h env i
  exact (hmoves _ (closed_true d₁) fun _ _ => trivial).wellFormed (hchange.wellFormed h)

end Step

/-! ### Reachable states -/

/-- The states reached from the first start when every step is as `ok` says. Only the data store outlives a
reboot. -/
inductive Reach (ok : State → Env × Input → Prop) : State → Prop
  | start : Reach ok (State.empty Database.empty)
  | step {d : State} {i : Env × Input} (h : Reach ok d) (hok : ok d i) : Reach ok (step d i)
  | reboot {d : State} (h : Reach ok d) : Reach ok (State.empty d.db)

theorem Reach.wellFormed {ok : State → Env × Input → Prop} {d : State} (h : Reach ok d) : WellFormed d := by
  induction h with
  | start => exact wellFormed_empty _
  | step h hok ih => exact ih.step _ _
  | reboot h ih => exact wellFormed_empty _

/-- Every step of a run is as `ok` says. -/
def Allowed (ok : State → Env × Input → Prop) : State → List (Env × Input) → Prop
  | _, [] => True
  | d, i :: inputs => ok d i ∧ Allowed ok (step d i) inputs

instance decidableAllowed (ok : State → Env × Input → Prop) [∀ d i, Decidable (ok d i)] :
    ∀ d inputs, Decidable (Allowed ok d inputs)
  | _, [] => isTrue trivial
  | d, i :: inputs =>
    have := decidableAllowed ok (step d i) inputs
    inferInstanceAs (Decidable (ok d i ∧ Allowed ok (step d i) inputs))

theorem Reach.run {ok : State → Env × Input → Prop} {d : State} (h : Reach ok d)
    {inputs : List (Env × Input)} (hinputs : Allowed ok d inputs) : Reach ok (run d inputs) := by
  induction inputs generalizing d with
  | nil => exact h
  | cons i inputs ih => exact ih (h.step hinputs.1) hinputs.2

theorem allowed_true (d : State) (inputs : List (Env × Input)) : Allowed (fun _ _ => True) d inputs := by
  induction inputs generalizing d with
  | nil => trivial
  | cons i inputs ih => exact ⟨trivial, ih _⟩

end ZipGateway.Directory

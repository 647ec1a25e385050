import ZipGateway.Directory.Steps

/-!
# Nodes that are failing

That a node is failing is said twice, by `STATUS_FAILING` and by `MODE_FLAGS_FAILED`. `rd_set_failing`
writes both. A registration, and a callback of the interview that comes late, write the state only, and
`rd_set_failing` does nothing once the state is `STATUS_DONE`.
-/

set_option maxRecDepth 8000

namespace ZipGateway.Directory

open State

def Flagged (n : NodeHeader) : Prop :=
  n.failed = true ↔ n.state = .failing

/-- The flag is right for every node of the database that is done or failing. -/
def FlagsRight (d : State) : Prop :=
  ∀ node n, d.nodeGetRaw node = some n → n.state = .failing ∨ n.state = .done → Flagged n.toNodeHeader

def Clears (d : State) : Prop :=
  ∀ env node n, d.calls = [] → d.nodeGetRaw node = some n → n.state = .failing ∨ n.state = .done →
    ∃ n', (step d (env, .event (.alive node))).nodeGetRaw node = some n' ∧ n'.state = .done ∧ n'.failed = false

structure Consistent (d : State) : Prop where
  heap : ∀ n ∈ d.heap, Flagged n.toNodeHeader
  stored : Stored (fun e => Flagged e.toNodeHeader) d.db

variable {n : Node}

section Steps

variable {P : Ref → Prop} {d d' : State} {env : Env} {i : Input}

theorem NodeStep.flagged {n n' : Node} (h : NodeStep False n n') (hn : Flagged n.toNodeHeader) :
    Flagged n'.toNodeHeader := by
  obtain ⟨hs, hf⟩ | ⟨-, hx⟩ | ⟨hne, hne', hf⟩ := h.flag
  · unfold Flagged
    rw [hs, hf]
    exact hn
  · exact hx.elim
  · exact ⟨fun h => absurd (hn.mp (hf h)) hne, fun h => absurd h hne'⟩

theorem Moves.consistent (h : Moves P False d d') (hd : Consistent d) : Consistent d' := by
  obtain ⟨g, hheap, hg⟩ := h.quiet.nodes
  have hnodes : ∀ n ∈ d'.heap, Flagged n.toNodeHeader := by
    intro n' hn'
    have hmem : n' ∈ d.heap.map g := hheap ▸ hn'
    obtain ⟨n, hn, rfl⟩ := List.mem_map.mp hmem
    exact (hg n hn).flagged (hd.heap n hn)
  refine ⟨hnodes, ?_⟩
  obtain hdb | ⟨n, hn, hdb⟩ := h.db
  · rw [hdb]
    exact hd.stored
  · rw [hdb]
    exact hd.stored.nvmWrite (hnodes n hn)

theorem failed_marked (mode : UInt32) (failing : Bool) :
    ((mode &&& ~~~modeFlagsFailed ||| if failing then modeFlagsFailed else 0) &&& modeFlagsFailed != 0) =
      failing := by
  have hclear : mode &&& ~~~modeFlagsFailed &&& modeFlagsFailed = 0 := by
    have hmask : ~~~modeFlagsFailed &&& modeFlagsFailed = 0 := by decide
    rw [UInt32.and_assoc, hmask, UInt32.and_zero]
  rw [mode_or_and, hclear, UInt32.zero_or]
  cases failing <;> decide

theorem flagged_marked (failing : Bool) (n : Node) : Flagged (n.marked failing).toNodeHeader := by
  have hflag : (n.marked failing).failed = failing := failed_marked n.mode failing
  unfold Flagged
  rw [hflag]
  cases failing <;> simp [Node.marked]

theorem Consistent.modifyNode (h : Consistent d) (a : Addr) {f : Node → Node}
    (hf : ∀ n, Flagged n.toNodeHeader → Flagged (f n).toNodeHeader) : Consistent (d.modifyNode a f) := by
  refine ⟨fun n' hn' => ?_, h.stored⟩
  obtain ⟨n, hn, rfl⟩ := List.mem_map.mp hn'
  split
  · exact hf n (h.heap n hn)
  · exact h.heap n hn

theorem Consistent.persist (h : Consistent d) (a : Addr) : Consistent (d.persist a) := by
  refine ⟨fun n hn => h.heap n ((persist_fields d a).1 ▸ hn), ?_⟩
  unfold State.persist
  split
  · rename_i n hn
    exact h.stored.nvmWrite (h.heap n (mem_of_node? hn))
  · exact h.stored

theorem Mark.consistent (h : Mark d d') (hd : Consistent d) : Consistent d' := by
  cases h with
  | failing a failing =>
    obtain heq | ⟨n, -, -, heq⟩ := setFailing_eq d a failing
    · rw [heq]
      exact hd
    · rw [heq]
      exact (hd.modifyNode a fun n _ => flagged_marked failing n).persist a
  | awake a now => exact hd.modifyNode a fun _ hn => hn

theorem flagged_newNode (d : State) (env : Env) (node : NodeId) (flags : UInt16) :
    Flagged (d.newNode env node flags).toNodeHeader := by
  have hfailed : (d.newNode env node flags).failed = false := by
    simp only [NodeHeader.failed, State.newNode, protocolMode]
    split_ifs <;> decide
  have hstate : (d.newNode env node flags).state ≠ .failing := by
    simp only [State.newNode]
    split <;> decide
  unfold Flagged
  rw [hfailed]
  exact ⟨fun h => absurd h (by decide), fun h => absurd h hstate⟩

theorem Consistent.install (h : Consistent d) (hn : Flagged n.toNodeHeader) (node : NodeId) :
    Consistent (d.install n node) := by
  refine ⟨fun m hm => ?_, h.stored⟩
  obtain hm | hm := List.mem_append.mp hm
  · exact h.heap m hm
  · rw [List.mem_singleton.mp hm]
    exact hn

theorem Change.consistent (h : Change env d i d') (hd : Consistent d) : Consistent d' := by
  have hextended : ∀ (s : State) (a : Addr) (ids : List UInt8), Consistent s → Consistent (s.extended a ids) :=
    fun s a ids hs => ⟨(hs.modifyNode a (f := Node.extended s.fresh ids) fun _ hn => hn).heap, hs.stored⟩
  cases h with
  | same h => exact hd
  | count h =>
    unfold State.counted
    split
    · exact hd.modifyNode _ fun _ hn => hn
    · exact hd
  | find h =>
    unfold State.foundBy
    split
    · exact hextended _ _ _ hd
    · exact hd
  | unfile h hfiles => exact ⟨hd.heap, hd.stored⟩
  | register h hfiles halloc =>
    rename_i node flags
    have hinstall := hd.install (flagged_newNode d env node flags) node
    unfold State.registered
    dsimp only
    split
    · exact hextended _ _ _ hinstall
    · exact hinstall
  | erase h hi hcalls hraw =>
    exact ⟨fun m hm => hd.heap m (List.mem_of_mem_filter hm), hd.stored.nvmFree _⟩
  | read h hfiles hread =>
    rename_i node e
    have hinstall := hd.install (n := placed d.fresh e) (hd.stored node e hread) node
    exact ⟨hinstall.heap, hinstall.stored⟩
  | mark h hmarks =>
    induction hmarks with
    | refl => exact hd
    | tail _ hmark ih => exact hmark.consistent ih
  | clear h => exact ⟨hd.heap, stored_of_nil rfl⟩
  | destroy h hi hcalls =>
    exact ⟨fun m hm => hd.heap m (List.mem_of_mem_filter hm), hd.stored⟩

theorem Consistent.step (h : Consistent d) (hwf : WellFormed d) (hcalm : ¬Disturbs env d i) :
    Consistent (Directory.step d (env, i)) := by
  obtain ⟨d₁, hchange, hmoves⟩ := step_leads hwf env i
  have hmove := hmoves (fun _ => True) (closed_true d₁) fun _ _ => trivial
  rw [eq_false hcalm] at hmove
  exact hmove.consistent (hchange.consistent h)

end Steps

/-- Nothing writes the state of a node that is failing but `rd_set_failing`. -/
def Calm (d : State) (i : Env × Input) : Prop :=
  ¬Disturbs i.1 d i.2

instance (d : State) (i : Env × Input) : Decidable (Calm d i) :=
  inferInstanceAs (Decidable ¬Disturbs i.1 d i.2)

theorem Reach.consistent {d : State} (h : Reach Calm d) : Consistent d := by
  induction h with
  | start => exact ⟨fun n hn => by simp [State.empty] at hn, stored_of_nil rfl⟩
  | step h hok ih => exact ih.step h.wellFormed hok
  | reboot h ih => exact ⟨fun n hn => by simp [State.empty] at hn, ih.stored⟩

/-! ### Nodes that answer -/

theorem node?_of_nodeGetRaw {d : State} {node : NodeId} (h : d.nodeGetRaw node = some n) : d.node? n.addr = some n := by
  obtain ⟨a, -, hn⟩ := Option.bind_eq_some_iff.mp h
  rw [addr_of_node? hn]
  exact hn

theorem nodeGetRaw_congr {d d' : State} (hheap : d'.heap = d.heap) (hndb : d'.ndb = d.ndb)
    (node : NodeId) : d'.nodeGetRaw node = d.nodeGetRaw node := by
  have hnode : d'.node? = d.node? := by
    funext a
    rw [State.node?, State.node?, hheap]
  rw [State.nodeGetRaw, State.nodeGetRaw, hnode, hndb]

theorem nodeGetRaw_modifyNode {d : State} {node : NodeId} (h : d.nodeGetRaw node = some n)
    {f : Node → Node} (hf : ∀ m, (f m).addr = m.addr) :
    (d.modifyNode n.addr f).nodeGetRaw node = some (f n) := by
  have haddr : ∀ m, (if m.addr = n.addr then f m else m).addr = m.addr := by
    intro m
    split <;> simp [hf]
  have hndb : (d.modifyNode n.addr f).ndb = d.ndb := rfl
  rw [nodeGetRaw_of_map haddr rfl hndb, h]
  simp

theorem nodeGetRaw_setFailing {d : State} {node : NodeId} (h : d.nodeGetRaw node = some n) :
    (d.setFailing n.addr false).nodeGetRaw node = some (if n.state = .failing then n.marked false else n) := by
  by_cases hfailing : n.state = .failing
  · have heq : d.setFailing n.addr false = (d.modifyNode n.addr (Node.marked false)).persist n.addr := by
      rw [State.setFailing, node?_of_nodeGetRaw h]
      exact if_pos ⟨by simp [hfailing], .inl hfailing⟩
    obtain ⟨hheap, hndb, -, -⟩ := persist_fields (d.modifyNode n.addr (Node.marked false)) n.addr
    rw [heq, if_pos hfailing, nodeGetRaw_congr hheap hndb]
    exact nodeGetRaw_modifyNode h fun _ => rfl
  · have heq : d.setFailing n.addr false = d := by
      simp [State.setFailing, node?_of_nodeGetRaw h, hfailing]
    rw [heq, if_neg hfailing, h]

theorem Consistent.clears {d : State} (h : Consistent d) (hwf : WellFormed d) : Clears d := by
  intro env node n hcalls hraw hstate
  have hstep : Directory.step d (env, .event (.alive node)) =
      (d.modifyNode n.addr fun n => { n with lastAwake := env.now }).setFailing n.addr false := by
    simp [Directory.step, hcalls, State.event, State.nodeIsAlive, hraw]
  have hawake := nodeGetRaw_modifyNode hraw (f := fun n => { n with lastAwake := env.now }) fun _ => rfl
  have hset := nodeGetRaw_setFailing hawake
  rw [hstep]
  refine ⟨_, hset, ?_⟩
  split
  · exact ⟨rfl, failed_marked n.mode false⟩
  · rename_i hne
    have hflag := h.heap n (hwf.nodeGetRaw_eq hraw).1
    exact ⟨hstate.resolve_left hne, Bool.eq_false_iff.mpr fun hfailed => hne (hflag.mp hfailed)⟩

/-- As long as only `rd_set_failing` writes the state of a node that is failing, the flag is right in
every state that is reached, and a node that answers is cleared. -/
theorem failing_flag_of_calm {d : State} (h : Reach Calm d) : FlagsRight d ∧ Clears d := by
  have hd := h.consistent
  exact ⟨fun node n hraw _ => hd.heap n (h.wellFormed.nodeGetRaw_eq hraw).1, hd.clears h.wellFormed⟩

theorem unreachable_flag_right :
    let d := run (State.empty Database.empty) (interviewed 5 ++ settled (.unreachable 5))
    (d.nodeGetRaw 5).any (fun n => n.state = .failing) = true ∧ FlagsRight d ∧ Clears d := by
  intro d
  have hreach : Reach Calm d := Reach.start.run (by decide +kernel)
  exact ⟨by decide +kernel, failing_flag_of_calm hreach⟩

def registeredAgain : List (Env × Input) :=
  interviewed 5 ++ settled (.unreachable 5) ++ interviewed 5

theorem registeredAgain_flag : ((run (State.empty Database.empty) registeredAgain).nodeGetRaw 5).any
      (fun n => n.state = .done ∧ n.failed = true) = true := by
  decide +kernel

theorem registeredAgain_not_flagged : ¬ ∀ d, Reach (fun _ _ => True) d → FlagsRight d := by
  intro h
  obtain ⟨n, hraw, hn⟩ := (Option.any_eq_true _ _).mp registeredAgain_flag
  simp only [decide_eq_true_eq] at hn
  have hflag := h _ (Reach.start.run (allowed_true _ registeredAgain)) 5 n hraw (.inr hn.1)
  have hfailing := hflag.mp hn.2
  rw [hn.1] at hfailing
  cases hfailing

end ZipGateway.Directory

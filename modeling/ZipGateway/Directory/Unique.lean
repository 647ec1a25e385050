import ZipGateway.Directory.Frame

/-!
# Two endpoints with one name

An update of a name or a location looks for an endpoint that has the pair already. `mdns_str_cmp`
compares its first argument with itself and so never tells a difference, while the lookup takes a zero
for a match: nothing is ever found, and an update is refused for its form only. So no two endpoints get
the same pair as long as nobody asks for a pair that is taken.
-/

namespace ZipGateway.Directory

open State

/-! ### The lookup -/

variable (env : Env) (d : State)

theorem mdnsStrCmp_eq_true (s1 s2 : Bytes) (len : Nat) : mdnsStrCmp s1 s2 len = true := by
  simp [mdnsStrCmp]

theorem lookupByEpName_eq_none (name : Bytes) (location : Option Bytes) :
    d.lookupByEpName env name location = none := by
  rw [lookupByEpName, List.find?_eq_none]
  intro x _
  simp [mdnsStrCmp_eq_true]

/-! ### Endpoints of the database -/

def Listed (d : State) (p : Endpoint) : Prop :=
  ∃ node n, d.nodeGetRaw node = some n ∧ p ∈ n.endpoints

def HasPair (name location : Bytes) (p : EpEntry) : Prop :=
  p.name.val ≠ [] ∧ p.name.val.map toUpper = name.map toUpper ∧ p.location.val.map toUpper = location.map toUpper

def Taken (d : State) (e : Addr) (name location : Bytes) : Prop :=
  ∃ q, Listed d q ∧ q.addr ≠ e ∧ HasPair name location q.toEpEntry

def Clash (d : State) (e : Addr) : Prop :=
  ∃ p, Listed d p ∧ p.addr = e ∧ p.name.val ≠ [] ∧ Taken d e p.name.val p.location.val

def renamed (e : Addr) (name location : Blob) (p : Endpoint) : Endpoint :=
  if p.addr = e then { p with name := name, location := location, state := .mdnsProbe } else p

def renamedNode (n : Node) (e : Addr) (name location : Blob) (m : Node) : Node :=
  let m' : Node := if m.addr = n.addr then
    { m with mode := m.mode &&& ~~~modeFlagsDeleted, state := .mdnsEpProbe } else m
  { m' with endpoints := m.endpoints.map (renamed e name location) }

theorem heap_writeName (n : Node) (e : Addr) (name location : Blob) :
    (d.writeName n e name location).heap = d.heap.map (renamedNode n e name location) ∧
      (d.writeName n e name location).ndb = d.ndb := by
  have hnode : ∀ m : Node, (fun m : Node => if m.addr = n.addr then { m with state := .mdnsEpProbe } else m)
        ((fun m : Node => { m with
            endpoints := m.endpoints.map fun p =>
              if p.addr = e then { p with name := name, location := location, state := .mdnsProbe }
              else p })
          (if m.addr = n.addr then { m with mode := m.mode &&& ~~~modeFlagsDeleted } else m)) =
        renamedNode n e name location m := by
    intro m
    unfold renamedNode renamed
    by_cases hm : m.addr = n.addr <;> simp [hm]
  have hheap : (((d.modifyNode n.addr fun n => { n with mode := n.mode &&& ~~~modeFlagsDeleted }).modifyEp
      e fun p => { p with name := name, location := location, state := .mdnsProbe }).setState n.addr
        .mdnsEpProbe).heap = d.heap.map (renamedNode n e name location) := by
    simp only [setState, modifyNode, modifyEp, List.map_map]
    exact List.map_congr_left fun m _ => hnode m
  dsimp only [writeName]
  split
  · exact ⟨hheap, rfl⟩
  · exact ⟨hheap, rfl⟩

theorem listed_writeName (n : Node) (e : Addr) (name location : Blob) (p : Endpoint) :
    Listed (d.writeName n e name location) p ↔ ∃ q, Listed d q ∧ p = renamed e name location q := by
  obtain ⟨hheap, hndb⟩ := heap_writeName d n e name location
  have hraw : ∀ node, (d.writeName n e name location).nodeGetRaw node =
      (d.nodeGetRaw node).map (renamedNode n e name location) := by
    intro node
    have haddr : ∀ m, (renamedNode n e name location m).addr = m.addr := by
      intro m
      unfold renamedNode
      by_cases hm : m.addr = n.addr <;> simp [hm]
    exact nodeGetRaw_of_map haddr hheap hndb node
  constructor
  · rintro ⟨node, m, hm, hp⟩
    rw [hraw, Option.map_eq_some_iff] at hm
    obtain ⟨m', hm', rfl⟩ := hm
    obtain ⟨q, hq, rfl⟩ := List.mem_map.mp hp
    exact ⟨q, ⟨node, m', hm', hq⟩, rfl⟩
  · rintro ⟨q, ⟨node, m, hm, hq⟩, rfl⟩
    refine ⟨node, renamedNode n e name location m, ?_, List.mem_map_of_mem hq⟩
    rw [hraw, hm]
    rfl

theorem taken_writeName (n : Node) (e : Addr) (name location : Blob) (name' location' : Bytes) :
    Taken (d.writeName n e name location) e name' location' ↔ Taken d e name' location' := by
  constructor
  · rintro ⟨q, hq, hne, hpair⟩
    obtain ⟨q', hq', rfl⟩ := (listed_writeName d n e name location q).mp hq
    have hne' : q'.addr ≠ e := by
      intro heq
      apply hne
      rw [renamed, if_pos heq]
      exact heq
    rw [renamed, if_neg hne'] at hpair
    exact ⟨q', hq', hne', hpair⟩
  · rintro ⟨q, hq, hne, hpair⟩
    refine ⟨q, (listed_writeName d n e name location q).mpr ⟨q, hq, ?_⟩, hne, hpair⟩
    rw [renamed, if_neg hne]

/-! ### One update -/

/-- The endpoint, the name and the location of an update. A name or a location that is not given is the
one the endpoint has. -/
def Event.update (d : State) : Event → Option (Addr × Blob × Option Blob)
  | .updateEpName e name => (d.ep? e).map fun x => (e, name, locationArg x.2)
  | .updateEpLocation e location => (d.ep? e).map fun x => (e, x.2.name, some location)
  | .updateEpNameAndLocation e name location => some (e, name, location)
  | _ => none

def Admitted (d : State) (e : Addr) (name location : Blob) : Prop :=
  ∃ n p, d.ep? e = some (n, p) ∧ admits n name location = true

/-- An update that is carried out does not give the endpoint a pair that another one has; and one to a
pair that no other endpoint has is not refused by the lookup. -/
def Separates (d : State) : Env × Input → Prop
  | (env, .event ev) => d.calls = [] → ∀ e name location, ev.update d = some (e, name, location) →
      Admitted d e name (location.getD .empty) →
        (d.lookupByEpName env name.val (location.map Subtype.val) = none → ¬ Clash (d.event env ev) e) ∧
          (¬ Taken d e name.val (location.getD .empty).val →
            d.lookupByEpName env name.val (location.map Subtype.val) = none)
  | (_, .proceed) => True

def AsksForFree (d : State) : Env × Input → Prop
  | (_, .event ev) => d.calls = [] → ∀ e name location, ev.update d = some (e, name, location) →
      Admitted d e name (location.getD .empty) → (∃ p, Listed d p ∧ p.addr = e) →
        ¬ Taken d e name.val (location.getD .empty).val
  | (_, .proceed) => True

theorem event_of_update {d : State} {ev : Event} {e : Addr} {name : Blob} {location : Option Blob}
    (h : ev.update d = some (e, name, location)) :
    d.event env ev = d.updateEpNameAndLocation env e name location := by
  cases ev with
  | updateEpName e' name' =>
    obtain ⟨⟨n, p⟩, hep, hx⟩ := Option.map_eq_some_iff.mp h
    simp only [Prod.mk.injEq] at hx
    obtain ⟨rfl, rfl, rfl⟩ := hx
    simp [event, updateEpName, hep]
  | updateEpLocation e' location' =>
    obtain ⟨⟨n, p⟩, hep, hx⟩ := Option.map_eq_some_iff.mp h
    simp only [Prod.mk.injEq] at hx
    obtain ⟨rfl, rfl, rfl⟩ := hx
    simp [event, updateEpLocation, hep]
  | updateEpNameAndLocation e' name' location' =>
    simp only [Event.update, Option.some.injEq, Prod.mk.injEq] at h
    obtain ⟨rfl, rfl, rfl⟩ := h
    rfl
  | _ => simp [Event.update] at h

theorem clash_update_iff {d : State} {e : Addr} {name : Blob} {location : Option Blob}
    (h : Admitted d e name (location.getD .empty)) :
    Clash (d.updateEpNameAndLocation env e name location) e ↔
      (∃ p, Listed d p ∧ p.addr = e) ∧ Taken d e name.val (location.getD .empty).val := by
  obtain ⟨n, p, hep, hadmits⟩ := h
  have hname : name.val ≠ [] := by
    intro hnil
    simp [admits, hnil] at hadmits
  have hevent : d.updateEpNameAndLocation env e name location = d.writeName n e name (location.getD .empty) := by
    simp [updateEpNameAndLocation, hep, hadmits, lookupByEpName_eq_none]
  rw [hevent]
  constructor
  · rintro ⟨q, hq, haddr, -, htaken⟩
    obtain ⟨q', hq', rfl⟩ := (listed_writeName d n e name _ q).mp hq
    have haddr' : q'.addr = e := by
      by_contra hne
      rw [renamed, if_neg hne] at haddr
      exact hne haddr
    rw [renamed, if_pos haddr', taken_writeName] at htaken
    exact ⟨⟨q', hq', haddr'⟩, htaken⟩
  · rintro ⟨⟨q, hq, haddr⟩, htaken⟩
    refine ⟨renamed e name (location.getD .empty) q, (listed_writeName d n e name _ _).mpr ⟨q, hq, rfl⟩, ?_⟩
    rw [renamed, if_pos haddr, taken_writeName]
    exact ⟨haddr, hname, htaken⟩

theorem separates_iff (x : Env × Input) : Separates d x ↔ AsksForFree d x := by
  obtain ⟨env, ev | _⟩ := x
  · constructor
    · intro h hcalls e name location hup hadm hlisted htaken
      refine (h hcalls e name location hup hadm).1 (lookupByEpName_eq_none ..) ?_
      rw [event_of_update env hup, clash_update_iff env hadm]
      exact ⟨hlisted, htaken⟩
    · intro h hcalls e name location hup hadm
      refine ⟨fun _ hclash => ?_, fun _ => lookupByEpName_eq_none ..⟩
      rw [event_of_update env hup, clash_update_iff env hadm] at hclash
      exact h hcalls e name location hup hadm hclash.1 hclash.2
  · exact Iff.rfl

/-! ### Runs -/

/-- In every run, from any database, every update keeps the pairs apart if and only if none asks for a
pair that another endpoint has. -/
theorem names_separate_iff (db : Database) (inputs : List (Env × Input)) :
    (∀ pre x post, inputs = pre ++ x :: post → Separates (run (State.empty db) pre) x) ↔
      ∀ pre x post, inputs = pre ++ x :: post → AsksForFree (run (State.empty db) pre) x := by
  constructor <;> intro h pre x post hinputs
  · exact (separates_iff _ x).mp (h pre x post hinputs)
  · exact (separates_iff _ x).mpr (h pre x post hinputs)

def twoSwitches : List (Env × Input) :=
  settled (.registerNewNode 5 0) ++ settled (.registerNewNode 6 0) ++
    settled (.registerNewNode 7 0) ++ settled (.nif true 5 [4, 0x10, 0x01, 0x25]) ++
    settled (.nameProbeDone true false) ++ settled (.nameProbeDone true false) ++
    settled (.nif true 6 [4, 0x10, 0x01, 0x25]) ++ settled (.nameProbeDone true false) ++
    settled (.nameProbeDone true false)

def nameLamp (e : Addr) : Env × Input :=
  (smallHome, .event (.updateEpNameAndLocation e (.ofBytes [0x4C, 0x61, 0x6D, 0x70]) none))

theorem lamp_twice :
    let d := run (State.empty Database.empty) (twoSwitches ++ [nameLamp 1])
    d.calls = [] ∧ (d.ep? 3).any (fun x => admits x.1 (.ofBytes [0x4C, 0x61, 0x6D, 0x70]) .empty) = true ∧
      (d.nodeGetRaw 6).any (fun n => n.endpoints.any fun p => p.addr = 3) = true ∧
      (d.nodeGetRaw 5).any (fun n => n.endpoints.any fun q =>
        q.addr ≠ 3 ∧ q.name.val = [0x4C, 0x61, 0x6D, 0x70] ∧ q.location.val = []) = true := by
  decide +kernel

theorem lamp_twice_not_separate : ¬ ∀ pre x post, twoSwitches ++ [nameLamp 1] ++ [nameLamp 3] = pre ++ x :: post →
      Separates (run (State.empty Database.empty) pre) x := by
  intro h
  have hsep := h (twoSwitches ++ [nameLamp 1]) (nameLamp 3) [] rfl
  have hfree := (separates_iff _ _).mp hsep
  obtain ⟨hcalls, hadm, hlisted, htaken⟩ := lamp_twice
  refine hfree hcalls 3 (.ofBytes [0x4C, 0x61, 0x6D, 0x70]) none rfl ?_ ?_ ?_
  · obtain ⟨⟨n, p⟩, hep, hadmits⟩ := (Option.any_eq_true _ _).mp hadm
    exact ⟨n, p, hep, hadmits⟩
  · obtain ⟨n, hn, hp⟩ := (Option.any_eq_true _ _).mp hlisted
    obtain ⟨p, hmem, haddr⟩ := List.any_eq_true.mp hp
    exact ⟨p, ⟨6, n, hn, hmem⟩, by simpa using haddr⟩
  · obtain ⟨n, hn, hq⟩ := (Option.any_eq_true _ _).mp htaken
    obtain ⟨q, hmem, hpair⟩ := List.any_eq_true.mp hq
    simp only [decide_eq_true_eq] at hpair
    obtain ⟨haddr, hname, hlocation⟩ := hpair
    refine ⟨q, ⟨5, n, hn, hmem⟩, haddr, ?_, ?_, ?_⟩
    · simp [hname]
    · rw [hname]
      rfl
    · rw [hlocation]
      rfl

end ZipGateway.Directory

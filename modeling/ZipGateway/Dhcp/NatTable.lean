import ZipGateway.Dhcp.Attribution

/-!
# The NAT table as a map

The table holds a node once in every run whose renamings do not take an id that is there. In such a
table the two look-ups are inverse to each other, but for the suffix 0 of an entry without an address
and for what the netmask hides.
-/

namespace ZipGateway.Dhcp

variable {site : Site} {s t : State} {rand : UInt32}

variable {p : Entry → Bool} (i : Nat)

namespace State

variable (s : State)

def getNatAddr (ip : Ip4) : NodeId :=
  if ip.hi &&& s.hostmask.hi = s.hostaddr.hi &&& s.hostmask.hi ∧
      ip.lo &&& s.hostmask.lo = s.hostaddr.lo &&& s.hostmask.lo then
    match (List.range s.natTableSize).find? fun i => (s.natTable i).ipSuffix = ip.suffix s.hostmask with
    | some i => (s.natTable i).nodeid
    | none => 0
  else 0

def entries : List Entry := (List.range s.natTableSize).map s.natTable

def Unique : Prop :=
  ∀ i < s.natTableSize, ∀ j < s.natTableSize, (s.natTable i).nodeid = (s.natTable j).nodeid → i = j

def Has (node : NodeId) : Prop := ∃ i < s.natTableSize, (s.natTable i).nodeid = node

def nodes : Nat × (Nat → NodeId) := (s.natTableSize, fun i => (s.natTable i).nodeid)

variable {s}

theorem unique_congr (h : t.nodes = s.nodes) : t.Unique ↔ s.Unique := by
  obtain ⟨hsize, hnode⟩ := Prod.ext_iff.mp h
  simp only [nodes, funext_iff] at hsize hnode
  simp only [Unique, hsize, hnode]

theorem has_congr (h : t.nodes = s.nodes) (node : NodeId) : t.Has node ↔ s.Has node := by
  obtain ⟨hsize, hnode⟩ := Prod.ext_iff.mp h
  simp only [nodes, funext_iff] at hsize hnode
  simp only [Has, hsize, hnode]

theorem isSome_indexOf (node : NodeId) : (s.indexOf node).isSome ↔ s.Has node := by
  simp [indexOf, Has]

theorem indexOf_eq_some {node : NodeId} {k : Nat} (h : s.indexOf node = some k) :
    k < s.natTableSize ∧ (s.natTable k).nodeid = node ∧ ∀ j < k, (s.natTable j).nodeid ≠ node := by
  simpa [indexOf, List.find?_range_eq_some, and_comm, and_left_comm] using h

end State

section Dhcp

/-! ### The DHCP client gives suffixes to entries and moves none -/

theorem nodes_of_suffix {i : Nat} {suffix : UInt16} (hsize : t.natTableSize = s.natTableSize)
    (htable : t.natTable = Function.update s.natTable i ⟨(s.natTable i).nodeid, suffix⟩) :
    t.nodes = s.nodes := by
  rw [State.nodes, hsize, htable, State.nodes]
  exact congrArg (Prod.mk _) (funext fun j => nodeid_update (e := ⟨_, suffix⟩) rfl j)

theorem nodes_startFound {found : Found} (h : startFound s rand found = some t) : t.nodes = s.nodes := by
  cases found with
  | «at» i => exact Option.some.inj h ▸ rfl
  | nothing => cases h
  | forever => exact Option.some.inj h ▸ rfl

theorem nodes_discoverNext : (discoverNext site s rand).nodes = s.nodes := by
  unfold discoverNext
  dsimp only
  split
  · rename_i hown
    split_ifs at hown
    exact nodes_startFound hown
  · split
    · rename_i hfound
      exact nodes_startFound hfound
    · unfold allAssigned
      split <;> rfl

theorem nodes_checkForNewSessions : (checkForNewSessions site s rand).nodes = s.nodes := by
  unfold checkForNewSessions
  split_ifs
  · rfl
  · rfl
  · exact nodes_discoverNext
  · exact nodes_discoverNext

theorem nodes_updateIdle : (updateIdle site s rand).nodes = s.nodes :=
  nodes_checkForNewSessions

theorem nodes_updateSendRequest : (updateSendRequest site s i).nodes = s.nodes := by
  unfold updateSendRequest
  split <;> rfl

theorem nodes_updateSendDiscover : (updateSendDiscover site s i).nodes = s.nodes := by
  unfold updateSendDiscover
  split_ifs
  · exact nodes_updateSendRequest i
  all_goals rfl

theorem nodes_updateRecvOffer (m : Mem) (len i : Nat) : (updateRecvOffer site s m len i).nodes = s.nodes := by
  unfold updateRecvOffer
  split
  · change (parseMsg site m s len i).nodes = s.nodes
    unfold parseMsg
    split
    · have hkept := sameSession_parseOptions m (optionsOffset + len) len optionsOffset
        ({ s with ipaddr := ip4At m yiaddrOffset }.put (.offered (s.natTable i).nodeid (ip4At m yiaddrOffset)))
      simp only [State.nodes, hkept.natTable, hkept.natTableSize]
      rfl
    · rfl
  · rfl

theorem nodes_updateRecvAck : (updateRecvAck site s rand i).nodes = s.nodes := by
  unfold updateRecvAck
  split
  · rw [nodes_updateIdle]
    split <;> exact nodes_of_suffix rfl rfl
  · rfl

theorem nodes_updateRecvNak : (updateRecvNak site s i).nodes = s.nodes := by
  unfold updateRecvNak
  split
  · dsimp only
    split <;> exact nodes_of_suffix rfl rfl
  · rfl

theorem nodes_updateCurrent (m : Mem) (len : Nat) (newState : SessionState) :
    (updateCurrent site s rand m len newState).nodes = s.nodes := by
  unfold updateCurrent
  split
  · rfl
  · cases newState with
    | idle => exact nodes_updateIdle
    | sendDiscover => exact nodes_updateSendDiscover _
    | recvOffer => exact nodes_updateRecvOffer m len _
    | sendRequest => exact nodes_updateSendRequest _
    | recvAck => exact nodes_updateRecvAck _
    | recvNak => exact nodes_updateRecvNak _
    | timeOut =>
      change (updateTimeOut site s rand _).nodes = _
      unfold updateTimeOut
      dsimp only
      split
      · exact nodes_updateSendDiscover _
      · exact nodes_updateIdle

theorem nodes_datagram (m : Mem) (len : Nat) : (datagram site s rand m len).nodes = s.nodes := by
  unfold datagram
  split
  · split_ifs
    all_goals first | exact nodes_updateCurrent m len _ | rfl
  · rfl

theorem nodes_tick : (tick site s rand).nodes = s.nodes := by
  have hsession : (countSession site s rand).nodes = s.nodes := by
    unfold countSession
    dsimp only
    split_ifs
    · exact nodes_updateCurrent _ _ _
    all_goals rfl
  have hlease (u : State) : (countLease u).nodes = u.nodes := by
    unfold countLease
    split
    · simp only [State.nodes, Prod.mk.injEq, true_and]
      funext i
      split <;> rfl
    · rfl
  unfold tick
  dsimp only
  split
  · exact hsession
  · unfold renewAll
    dsimp only
    split
    · rw [nodes_checkForNewSessions]
      exact (hlease _).trans hsession
    · exact (hlease _).trans hsession

end Dhcp

section Operations

variable {node : NodeId}

/-- What `ipv46nat_add_entry` returns; nothing if the loop in it does not end. -/
def addEntryResult (site : Site) (s : State) (rand : UInt32) (node : NodeId) : Option UInt8 :=
  if s.natTableSize ≥ maxNatEntries then some 0
  else if (addEntry site s rand node).hung then none
  else some (UInt8.ofNat (addEntry site s rand node).natTableSize)

def appended (site : Site) (s : State) (node : NodeId) : State :=
  { s.setEntry s.natTableSize
      ⟨node, if node = site.myNodeId then s.hostaddr.suffix s.hostmask else 0⟩ with
    natTableSize := s.natTableSize + 1 }

theorem addEntry_of_has (h : s.Has node) : addEntry site s rand node = s := by
  unfold addEntry
  rw [if_pos ((State.isSome_indexOf node).mpr h), ite_self]

theorem addEntry_of_not_has (h : ¬ s.Has node) (hsize : s.natTableSize < maxNatEntries) :
    addEntry site s rand node = checkForNewSessions site (appended site s node) rand := by
  unfold addEntry
  rw [if_neg (Nat.not_le.mpr hsize), if_neg (mt (State.isSome_indexOf node).mp h)]
  rfl

theorem appended_of_lt {i : Nat} (hi : i < s.natTableSize) : (appended site s node).natTable i = s.natTable i :=
  Function.update_of_ne (by omega) _ _

theorem appended_self : ((appended site s node).natTable s.natTableSize).nodeid = node := by
  simp [appended, State.setEntry]

theorem has_appended : (appended site s node).Has node :=
  ⟨s.natTableSize, Nat.lt_succ_self _, appended_self⟩

theorem State.Unique.appended (h : s.Unique) (hnot : ¬ s.Has node) : (appended site s node).Unique := by
  intro i hi j hj heq
  have hlast {k : Nat} (hk : k < s.natTableSize + 1) (hne : k ≠ s.natTableSize) : k < s.natTableSize := by omega
  by_cases hi' : i = s.natTableSize <;> by_cases hj' : j = s.natTableSize
  · rw [hi', hj']
  · rw [hi', appended_self, appended_of_lt (hlast hj hj')] at heq
    exact absurd ⟨j, hlast hj hj', heq.symm⟩ hnot
  · rw [hj', appended_self, appended_of_lt (hlast hi hi')] at heq
    exact absurd ⟨i, hlast hi hi', heq⟩ hnot
  · rw [appended_of_lt (hlast hi hi'), appended_of_lt (hlast hj hj')] at heq
    exact h i (hlast hi hi') j (hlast hj hj') heq

theorem State.Unique.addEntry (h : s.Unique) : (addEntry site s rand node).Unique := by
  by_cases hnode : s.Has node
  · rwa [addEntry_of_has hnode]
  · by_cases hsize : s.natTableSize < maxNatEntries
    · rw [addEntry_of_not_has hnode hsize]
      exact (State.unique_congr nodes_checkForNewSessions).mpr (h.appended hnode)
    · rwa [Dhcp.addEntry, if_pos (Nat.not_lt.mp hsize)]

theorem delEntry_of_some {k : Nat} (hnode : node ≠ site.myNodeId) (h : s.indexOf node = some k) :
    (delEntry site s node).natTableSize = s.natTableSize - 1 ∧
      ∀ i < s.natTableSize - 1, (delEntry site s node).natTable i = s.natTable (if k ≤ i then i + 1 else i) := by
  unfold delEntry
  rw [if_neg hnode, h]
  refine ⟨rfl, fun i hi => ?_⟩
  change (if k ≤ i ∧ i + 1 < s.natTableSize then s.natTable (i + 1) else s.natTable i) = _
  by_cases hk : k ≤ i
  · rw [if_pos ⟨hk, by omega⟩, if_pos hk]
  · rw [if_neg fun hboth => hk hboth.1, if_neg hk]

theorem delEntry_of_not_has (h : ¬ s.Has node) : delEntry site s node = s := by
  have hnone : s.indexOf node = none := by
    simpa using mt (State.isSome_indexOf node).mp h
  unfold delEntry
  rw [hnone]
  exact ite_self _

theorem State.Unique.delEntry (h : s.Unique) : (delEntry site s node).Unique := by
  by_cases hnode : node = site.myNodeId
  · rwa [Dhcp.delEntry, if_pos hnode]
  cases hk : s.indexOf node with
  | none =>
    rwa [delEntry_of_not_has]
    rw [← State.isSome_indexOf, hk]
    simp
  | some k =>
    obtain ⟨hsize, htable⟩ := delEntry_of_some hnode hk
    intro i hi j hj heq
    rw [hsize] at hi hj
    rw [htable i hi, htable j hj] at heq
    have hmoved := h _ (by split <;> omega) _ (by split <;> omega) heq
    split_ifs at hmoved <;> omega

def RemovesOnly (site : Site) (s : State) (node : NodeId) : Prop :=
  (delEntry site s node).entries = s.entries.filter fun e => e.nodeid ≠ node

theorem removesOnly_iff (h : s.Unique) : RemovesOnly site s node ↔ (node = site.myNodeId → ¬ s.Has node) := by
  have hnone : ¬ s.Has node → s.entries.filter (fun e => e.nodeid ≠ node) = s.entries := by
    intro hnot
    refine List.filter_eq_self.mpr fun e he => ?_
    obtain ⟨i, hi, rfl⟩ := List.mem_map.mp he
    exact decide_eq_true fun heq => hnot ⟨i, List.mem_range.mp hi, heq⟩
  by_cases hhas : s.Has node
  · by_cases hnode : node = site.myNodeId
    · refine iff_of_false ?_ fun hnot => hnot hnode hhas
      obtain ⟨i, hi, heq⟩ := hhas
      rw [RemovesOnly, delEntry, if_pos hnode, eq_comm, List.filter_eq_self]
      intro hall
      simpa [heq] using hall _ (List.mem_map_of_mem (List.mem_range.mpr hi))
    · refine iff_of_true ?_ fun heq => absurd heq hnode
      obtain ⟨k, hk⟩ := Option.isSome_iff_exists.mp ((State.isSome_indexOf node).mpr hhas)
      obtain ⟨hlt, heq, -⟩ := State.indexOf_eq_some hk
      obtain ⟨hsize, htable⟩ := delEntry_of_some hnode hk
      obtain ⟨n, hn⟩ := Nat.exists_eq_add_of_lt hlt
      have hother {i : Nat} (hi : i < s.natTableSize) (hne : i ≠ k) :
          decide ((s.natTable i).nodeid ≠ node) = true :=
        decide_eq_true fun h' => hne (h i hi k hlt (h'.trans heq.symm))
      -- the table is what is before the entry, the entry and what is behind it
      have hbefore : ((List.range k).map s.natTable).filter (fun e => e.nodeid ≠ node) =
          (List.range k).map s.natTable := by
        refine List.filter_eq_self.mpr fun e he => ?_
        obtain ⟨i, hi, rfl⟩ := List.mem_map.mp he
        have := List.mem_range.mp hi
        exact hother (by omega) (by omega)
      have hbehind : ((List.range n).map fun i => s.natTable (k + 1 + i)).filter
          (fun e => e.nodeid ≠ node) = (List.range n).map fun i => s.natTable (k + 1 + i) := by
        refine List.filter_eq_self.mpr fun e he => ?_
        obtain ⟨i, hi, rfl⟩ := List.mem_map.mp he
        have := List.mem_range.mp hi
        exact hother (by omega) (by omega)
      have hsplit : s.entries = (List.range k).map s.natTable ++ s.natTable k ::
          (List.range n).map fun i => s.natTable (k + 1 + i) := by
        rw [State.entries, hn, show k + n + 1 = k + (1 + n) by omega, List.range_add, List.range_add]
        simp [Function.comp_def, Nat.add_assoc]
      rw [RemovesOnly, hsplit, List.filter_append, hbefore, List.filter_cons_of_neg (by simp [heq]),
        hbehind, State.entries, hsize, hn, show k + n + 1 - 1 = k + n by omega, List.range_add,
        List.map_append, List.map_map]
      congr 1
      · refine List.map_congr_left fun i hi => ?_
        have := List.mem_range.mp hi
        rw [htable i (by omega), if_neg (by omega)]
      · refine List.map_congr_left fun i hi => ?_
        have := List.mem_range.mp hi
        rw [Function.comp_apply, htable _ (by omega), if_pos (by omega)]
        congr 1
        omega
  · refine iff_of_true ?_ fun _ => hhas
    rw [RemovesOnly, delEntry_of_not_has hhas, hnone hhas]

theorem unique_delAllNodes : (delAllNodes site s).Unique := by
  intro i hi j hj _
  have hsize : (delAllNodes site s).natTableSize = 1 := rfl
  omega

def Fresh (s : State) (old new : NodeId) : Prop :=
  new = old ∨ ¬ s.Has old ∨ ¬ s.Has new

theorem renameNode_nodeid {old new : NodeId} {i : Nat} (hi : i < s.natTableSize) :
    ((renameNode s old new).natTable i).nodeid =
      if (s.natTable i).nodeid = old then new else (s.natTable i).nodeid := by
  simp only [renameNode, hi, true_and]
  split <;> rfl

theorem State.Unique.renameNode_iff (h : s.Unique) {old new : NodeId} :
    (renameNode s old new).Unique ↔ Fresh s old new := by
  constructor
  · intro hunique
    by_contra hfresh
    simp only [Fresh, not_or, not_not] at hfresh
    obtain ⟨hne, ⟨i, hi, hold⟩, ⟨j, hj, hnew⟩⟩ := hfresh
    have hij : i = j := hunique i hi j hj (by
      rw [renameNode_nodeid hi, renameNode_nodeid hj, if_pos hold, hnew, ite_eq_right_iff.mpr]
      exact fun heq => rfl)
    exact hne (hnew.symm.trans (hij ▸ hold))
  · intro hfresh i hi j hj heq
    rw [renameNode_nodeid (s := s) hi, renameNode_nodeid (s := s) hj] at heq
    split_ifs at heq with hold hold' hold'
    · exact h i hi j hj (hold.trans hold'.symm)
    · rcases hfresh with hsame | hnot | hnot
      · exact h i hi j hj (hold.trans (hsame.symm.trans heq))
      · exact absurd ⟨i, hi, hold⟩ hnot
      · exact absurd ⟨j, hj, heq.symm⟩ hnot
    · rcases hfresh with hsame | hnot | hnot
      · exact h i hi j hj (heq.trans (hsame.trans hold'.symm))
      · exact absurd ⟨j, hj, hold'⟩ hnot
      · exact absurd ⟨i, hi, heq⟩ hnot
    · exact h i hi j hj heq

end Operations

section Adding

variable {node : NodeId}

/-- The entries that `dhcp_check_for_new_sessions` looks for first. -/
def State.wanted (site : Site) (s : State) (e : Entry) : Bool :=
  if s.hostaddr = .zero then e.nodeid = site.myNodeId ∧ e.ipSuffix = 0 else e.ipSuffix = 0

/-- `dhcp_check_for_new_sessions` runs through the table with a counter of eight bits and does not find
what it looks for. -/
def Spins (site : Site) (s : State) : Prop :=
  s.state = .idle ∧ ¬ (s.lastRenew.toNat < s.natTableSize ∧ (s.natTable s.lastRenew.toNat).ipSuffix ≠ 0) ∧
    s.searchTable (s.wanted site) = .forever

theorem hung_startFound {found : Found} (h : startFound s rand found = some t) :
    t.hung ↔ s.hung ∨ found = .forever := by
  cases found with
  | «at» i => simp [← Option.some.inj h, startDiscover]
  | nothing => cases h
  | forever => simp [← Option.some.inj h]

theorem searchTable_forever (h : s.searchTable p = .forever) : 255 < s.natTableSize := by
  unfold State.searchTable at h
  split at h
  · cases h
  · split_ifs at h with hsize
    omega

theorem searchTable_nothing (h : s.searchTable p = .nothing) : s.natTableSize ≤ 255 := by
  unfold State.searchTable at h
  split at h
  · cases h
  · split_ifs at h with hsize
    exact hsize

theorem hung_allAssigned (h : startFound s rand (s.searchTable p) = none) :
    (allAssigned s).hung ↔ s.hung ∨ s.searchTable p = .forever := by
  have hne : s.searchTable p ≠ .forever := fun hforever => by simp [hforever, startFound] at h
  simp only [hne, or_false]
  unfold allAssigned
  split <;> rfl

theorem hung_discoverNext : (discoverNext site s rand).hung ↔ s.hung ∨ s.searchTable (s.wanted site) = .forever := by
  unfold discoverNext State.wanted
  by_cases hzero : s.hostaddr = .zero
  · simp only [hzero, if_true]
    split
    · rename_i t hown
      exact hung_startFound hown
    · rename_i hown
      -- nothing was found, so the table is short enough for both loops
      have hnothing : s.searchTable (fun e => e.nodeid = site.myNodeId ∧ e.ipSuffix = 0) = .nothing := by
        revert hown
        cases s.searchTable fun e => e.nodeid = site.myNodeId ∧ e.ipSuffix = 0 <;> simp [startFound]
      have hsize := searchTable_nothing hnothing
      have hfirst : s.searchTable (fun e => e.ipSuffix = 0) ≠ .forever := fun h =>
        absurd (searchTable_forever h) (by omega)
      rw [hnothing]
      split
      · rename_i t hfound
        simpa [hfirst] using hung_startFound hfound
      · rename_i hnone
        simpa [hfirst] using hung_allAssigned hnone
  · simp only [hzero, if_false]
    split
    · rename_i t hfound
      exact hung_startFound hfound
    · rename_i hnone
      exact hung_allAssigned hnone

theorem hung_checkForNewSessions : (checkForNewSessions site s rand).hung ↔ s.hung ∨ Spins site s := by
  unfold checkForNewSessions Spins
  split_ifs with hidle hlt hsuffix
  · simp [hidle]
  · simp [hlt, hsuffix, startRenew, State.put]
  · rw [hung_discoverNext]
    simp only [not_not.mp hidle, hlt, hsuffix, and_false, not_false_eq_true, true_and]
    rfl
  · rw [hung_discoverNext]
    simp [not_not.mp hidle, hlt]

/-- `ipv46nat_add_entry` returns, and what it returns says whether the node has an entry. -/
def AddsRight (site : Site) (s : State) (rand : UInt32) (node : NodeId) : Prop :=
  (∃ r, addEntryResult site s rand node = some r ∧ r ≠ 0) ↔ (addEntry site s rand node).Has node

/-- The table is full and without the node, or its size is no multiple of 256 afterwards and the DHCP
client finds what it looks for. -/
def Answers (site : Site) (s : State) (node : NodeId) : Prop :=
  if s.natTableSize ≥ maxNatEntries then ¬ s.Has node
  else (s.Has node → s.natTableSize % 256 ≠ 0) ∧
    (¬ s.Has node → (s.natTableSize + 1) % 256 ≠ 0 ∧ ¬ Spins site (appended site s node))

theorem ofNat_ne_zero (n : Nat) : UInt8.ofNat n ≠ 0 ↔ n % 256 ≠ 0 := by
  rw [ne_eq, ← UInt8.toNat_inj, UInt8.toNat_ofNat']
  rfl

theorem addsRight_iff (hhung : s.hung = false) : AddsRight site s rand node ↔ Answers site s node := by
  unfold AddsRight Answers addEntryResult
  by_cases hfull : s.natTableSize ≥ maxNatEntries
  · rw [if_pos hfull, if_pos hfull, addEntry, if_pos hfull]
    simp
  rw [if_neg hfull, if_neg hfull]
  by_cases hnode : s.Has node
  · simp [addEntry_of_has hnode, hhung, hnode, ← ofNat_ne_zero]
  · rw [addEntry_of_not_has hnode (Nat.not_le.mp hfull), iff_true_right
      ((State.has_congr nodes_checkForNewSessions node).mpr has_appended)]
    have hsize : (checkForNewSessions site (appended site s node) rand).natTableSize = s.natTableSize + 1 :=
      congrArg Prod.fst (@nodes_checkForNewSessions site (appended site s node) rand)
    have hspins := @hung_checkForNewSessions site (appended site s node) rand
    rw [show (appended site s node).hung = false from hhung] at hspins
    rw [hsize]
    by_cases hs : Spins site (appended site s node)
    · simp [hspins.mpr (.inr hs), hs, hnode]
    · have hreturns : (checkForNewSessions site (appended site s node) rand).hung = false := by
        simpa [hs] using hspins
      simp [hreturns, hs, hnode, ← ofNat_ne_zero]

end Adding

section Lookups

variable {node : NodeId} {ip : Ip4}

/-- No two entries with an address have the same one. -/
def State.Distinct (s : State) : Prop :=
  ∀ i < s.natTableSize, ∀ j < s.natTableSize,
    (s.natTable i).ipSuffix = (s.natTable j).ipSuffix → (s.natTable i).ipSuffix ≠ 0 → i = j

theorem ipv4addrOfNode_iff (h : s.Unique) : s.ipv4addrOfNode node = some ip ↔
    ∃ i < s.natTableSize, (s.natTable i).nodeid = node ∧ (s.natTable i).ipSuffix ≠ 0 ∧
      s.addrOfEntry (s.natTable i) = ip := by
  simp only [State.ipv4addrOfNode, List.find?_map, Option.map_map, Option.map_eq_some_iff,
    List.find?_range_eq_some, Function.comp_apply, decide_eq_true_eq, List.mem_range]
  constructor
  · rintro ⟨i, ⟨⟨hnode, hsuffix⟩, hi, -⟩, rfl⟩
    exact ⟨i, hi, hnode, hsuffix, rfl⟩
  · rintro ⟨i, hi, hnode, hsuffix, rfl⟩
    refine ⟨i, ⟨⟨hnode, hsuffix⟩, hi, fun j hj => ?_⟩, rfl⟩
    have hne : (s.natTable j).nodeid ≠ node := fun heq =>
      absurd (h j (by omega) i hi (heq.trans hnode.symm)) (by omega)
    simp [hne]

theorem getNatAddr_iff (hnode : node ≠ 0) : s.getNatAddr ip = node ↔
    (ip.hi &&& s.hostmask.hi = s.hostaddr.hi &&& s.hostmask.hi ∧
      ip.lo &&& s.hostmask.lo = s.hostaddr.lo &&& s.hostmask.lo) ∧
    ∃ i < s.natTableSize, (s.natTable i).nodeid = node ∧ (s.natTable i).ipSuffix = ip.suffix s.hostmask ∧
      ∀ j < i, (s.natTable j).ipSuffix ≠ ip.suffix s.hostmask := by
  unfold State.getNatAddr
  split_ifs with hmask
  · simp only [hmask, true_and]
    split
    · rename_i i hfind
      obtain ⟨hsuffix, hi, hfirst⟩ := List.find?_range_eq_some.mp hfind
      simp only [decide_eq_true_eq, List.mem_range, Bool.not_eq_true', decide_eq_false_iff_not] at *
      refine ⟨fun heq => ⟨i, hi, heq, hsuffix, hfirst⟩, ?_⟩
      rintro ⟨j, -, heq, hsuffix', hfirst'⟩
      rcases Nat.lt_trichotomy i j with hlt | rfl | hlt
      · exact absurd hsuffix (hfirst' i hlt)
      · exact heq
      · exact absurd hsuffix' (hfirst j hlt)
    · rename_i hfind
      refine iff_of_false hnode.symm ?_
      rintro ⟨i, hi, -, hsuffix, -⟩
      simpa [hsuffix] using List.find?_eq_none.mp hfind i (List.mem_range.mpr hi)
  · exact iff_of_false hnode.symm fun h => hmask h.1

theorem and_or_and_not (x mask : UInt16) : x &&& mask ||| x &&& ~~~mask = x := by
  rw [← UInt16.toBitVec_inj]
  ext i hi
  simp
  cases x.toBitVec[i] <;> simp

theorem merged_and (x suffix mask : UInt16) : (x &&& mask ||| suffix) &&& ~~~mask = suffix &&& ~~~mask := by
  rw [← UInt16.toBitVec_inj]
  ext i hi
  simp
  cases mask.toBitVec[i] <;> simp

theorem merged_and_mask {x suffix mask : UInt16} (h : suffix &&& mask = 0) :
    (x &&& mask ||| suffix) &&& mask = x &&& mask := by
  rw [← UInt16.toBitVec_inj] at h ⊢
  ext i hi
  have hbit : (suffix.toBitVec &&& mask.toBitVec)[i] = false := by
    simpa using congrArg (fun v : BitVec 16 => v[i]) h
  simp at hbit ⊢
  cases hm : mask.toBitVec[i] <;> cases hs : suffix.toBitVec[i] <;> simp_all

theorem and_not_eq_iff (suffix mask : UInt16) : suffix &&& ~~~mask = suffix ↔ suffix &&& mask = 0 := by
  constructor
  · intro h
    rw [← h, UInt16.and_assoc, UInt16.and_comm (~~~mask), UInt16.and_not_self, UInt16.and_zero]
  · intro h
    have hsplit := and_or_and_not suffix mask
    rwa [h, UInt16.zero_or] at hsplit

theorem getNatAddr_back (h : s.Unique) (hnode : s.getNatAddr ip ≠ 0) : s.ipv4addrOfNode (s.getNatAddr ip) = some ip ↔
      ip.suffix s.hostmask ≠ 0 ∧ ip.hi = s.hostaddr.hi := by
  obtain ⟨hmask, i, hi, heq, hsuffix, -⟩ := (getNatAddr_iff hnode).mp rfl
  have haddr : s.addrOfEntry (s.natTable i) = ip ↔ ip.hi = s.hostaddr.hi := by
    rw [State.addrOfEntry, hsuffix, ← hmask.2, Ip4.suffix, and_or_and_not]
    constructor
    · exact fun hip => hip ▸ rfl
    · exact fun hhi => hhi ▸ rfl
  rw [ipv4addrOfNode_iff h]
  constructor
  · rintro ⟨j, hj, heq', hne, hip⟩
    obtain rfl : j = i := h j hj i hi (heq'.trans heq.symm)
    exact ⟨hsuffix ▸ hne, haddr.mp hip⟩
  · rintro ⟨hne, hhi⟩
    exact ⟨i, hi, heq, hsuffix ▸ hne, haddr.mpr hhi⟩

theorem ipv4addrOfNode_back (h : s.Unique) (hdistinct : s.Distinct) (hnode : node ≠ 0)
    (hip : s.ipv4addrOfNode node = some ip) :
    s.getNatAddr ip = node ↔ ∀ e ∈ s.entries, e.nodeid = node → e.ipSuffix &&& s.hostmask.lo = 0 := by
  obtain ⟨i, hi, heq, hne, rfl⟩ := (ipv4addrOfNode_iff h).mp hip
  have hsuffix : (s.addrOfEntry (s.natTable i)).suffix s.hostmask =
      (s.natTable i).ipSuffix &&& ~~~s.hostmask.lo := merged_and _ _ _
  have hentry : (∀ e ∈ s.entries, e.nodeid = node → e.ipSuffix &&& s.hostmask.lo = 0) ↔
      (s.natTable i).ipSuffix &&& s.hostmask.lo = 0 := by
    constructor
    · exact fun hall => hall _ (List.mem_map_of_mem (List.mem_range.mpr hi)) heq
    · intro hinside e he heq'
      obtain ⟨j, hj, rfl⟩ := List.mem_map.mp he
      obtain rfl : j = i := h j (List.mem_range.mp hj) i hi (heq'.trans heq.symm)
      exact hinside
  rw [hentry, getNatAddr_iff hnode, hsuffix]
  constructor
  · rintro ⟨-, j, hj, heq', hfound, -⟩
    obtain rfl : j = i := h j hj i hi (heq'.trans heq.symm)
    exact (and_not_eq_iff _ _).mp hfound.symm
  · intro hinside
    have hkept := (and_not_eq_iff _ _).mpr hinside
    refine ⟨⟨rfl, merged_and_mask hinside⟩, i, hi, heq, hkept.symm, fun j hj hsame => ?_⟩
    have hij := hdistinct i hi j (by omega) (hkept.symm.trans hsame.symm) hne
    omega

end Lookups

/-- What the table promises in a state, each part with exactly when it is kept. -/
structure Mapped (site : Site) (s : State) : Prop where
  unique : s.Unique
  added : s.hung = false → ∀ rand node, AddsRight site s rand node ↔ Answers site s node
  removed : ∀ node, RemovesOnly site s node ↔ (node = site.myNodeId → ¬ s.Has node)
  byAddr : ∀ ip, s.getNatAddr ip ≠ 0 → (s.ipv4addrOfNode (s.getNatAddr ip) = some ip ↔
    ip.suffix s.hostmask ≠ 0 ∧ ip.hi = s.hostaddr.hi)
  byNode : s.Distinct → ∀ node ≠ 0, ∀ ip, s.ipv4addrOfNode node = some ip → (s.getNatAddr ip = node ↔
      ∀ e ∈ s.entries, e.nodeid = node → e.ipSuffix &&& s.hostmask.lo = 0)

theorem State.Unique.mapped (h : s.Unique) : Mapped site s where
  unique := h
  added hhung _ _ := addsRight_iff hhung
  removed _ := removesOnly_iff h
  byAddr _ hnode := getNatAddr_back h hnode
  byNode hdistinct _ hnode _ hip := ipv4addrOfNode_back h hdistinct hnode hip

/-- The step renames no entry to an id that another one has. -/
def RenamesFresh (s : State) : Event → Prop
  | .renameNode old new => Fresh s old new
  | _ => True

theorem unique_step {e : Event} (he : RenamesFresh s e) (h : s.Unique) : (step site s e).Unique := by
  unfold step
  split
  · exact h
  · cases e with
    | addEntry node rand => exact h.addEntry
    | delEntry node => exact h.delEntry
    | delAllNodes => exact unique_delAllNodes
    | renameNode old new => exact h.renameNode_iff.mpr he
    | datagram m len rand => exact (State.unique_congr (nodes_datagram m len)).mpr h
    | poll rand =>
      exact (State.unique_congr (nodes_updateCurrent (s := { s with state := .idle }) _ _ _)).mpr h
    | tick rand => exact (State.unique_congr nodes_tick).mpr h
    | abort rand => exact (State.unique_congr (nodes_updateCurrent _ _ _)).mpr h

theorem nat_mapped (site : Site) (events : List Event)
    (hevents : Machine.Admissible (step site) RenamesFresh .init events) : Mapped site (run site events) :=
  have hinit : State.Unique .init := fun i hi => absurd hi (Nat.not_lt_zero i)
  (Machine.run_invariant_of_admissible (fun _ _ he h => unique_step he h) hevents hinit).mapped

def newNode : List Event :=
  [.addEntry 1 0x01020304, .poll 0,
    .datagram (serverMessage dhcpOffer [1, 2, 3, 4] [10, 0, 0, 9] (someSite.macOfNode 1)) 256 0, .poll 0,
    .datagram (serverMessage dhcpAck [1, 2, 3, 4] [10, 0, 0, 9] (someSite.macOfNode 1)) 256 0,
    .addEntry 5 0]

theorem nat_mapped_renamed : Mapped someSite (run someSite (newNode ++ [.renameNode 5 9])) :=
  nat_mapped _ _ ⟨trivial, trivial, trivial, trivial, trivial, trivial, .inr (.inr (by unfold State.Has; decide)), trivial⟩

/-- The address 10.0.0.0 of the network is taken for that of node 5. -/
theorem nat_not_mapped : (run someSite newNode).getNatAddr ⟨0x0A00, 0⟩ = 5 ∧
    (run someSite newNode).ipv4addrOfNode 5 ≠ some ⟨0x0A00, 0⟩ := by
  decide

end ZipGateway.Dhcp

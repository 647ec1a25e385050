import ZipGateway.Lib.Byte
import ZipGateway.Restore.MemberOrder

/-!
# Which keys a restore assigns

The order of `nodeList` and `zwNetworkData` decides what is left in `assigned_keys` when the file gives a
long range key and has an entry for the gateway. Everything else of the backup data is the same for every
order of the members.
-/

set_option maxRecDepth 8000

namespace ZipGateway.Restore

open JsonTree

variable (intOfString : Bytes → Int)

section Definitions

/-- The bits that `zgw_parse_zwpan_data` adds to the assigned keys. -/
def lrKeys (zwpan : Json) : UInt8 :=
  match zwpan.get? "zwSecurity" with
  | none => 0
  | some security =>
    (if (security.get? "S2AccessKeyLR").isSome then keyClassS2AccessLr else 0) |||
      (if (security.get? "S2AuthenticatedKeyLR").isSome then keyClassS2AuthenticatedLr else 0)

structure NodesState where
  zwNodes : NodeId → Option NodeData
  homeId : Bytes
  myNodeId : UInt8

def World.nodes (w : World) : NodesState :=
  ⟨w.backup.zwNodes, w.homeId, w.myNodeId⟩

/-- The node list is read; the keys of the gateway are assigned if they are imported. -/
def World.withNodes (w : World) (r : NodesState × Option UInt8) : World where
  backup :=
    { w.backup with
      zwNodes := r.1.zwNodes
      securityKeys :=
        { w.backup.securityKeys with assignedKeys := r.2.getD w.backup.securityKeys.assignedKeys } }
  homeId := r.1.homeId
  myNodeId := r.1.myNodeId

def nodeItem (ctrl : Option ZwController) (n : NodesState) (json : Json) : NodesState × Option UInt8 :=
  match json with
  | .object _ =>
    let r := zgwParseNode intOfString json ctrl n.homeId n.myNodeId
    (⟨match r.node with
      | some node => (zgwNodeDataPointerAdd node.gwData.zwNodeData.nodeId node n.zwNodes).1
      | none => n.zwNodes, r.homeId, r.myNodeId⟩, r.assignedKeys)
  | _ => (n, none)

def nodesRun (ctrl : Option ZwController) : List Json → NodesState → NodesState × Option UInt8
  | [], n => (n, none)
  | json :: nodes, n =>
    let r := nodeItem intOfString ctrl n json
    let rest := nodesRun ctrl nodes r.1
    (rest.1, rest.2.or r.2)

def imported (ctrl : Option ZwController) (zgw : Json) (n : NodesState) : NodesState × Option UInt8 :=
  match zgw.get? "nodeList" with
  | some (.array nodes) => nodesRun intOfString ctrl nodes n
  | _ => (n, none)

def lrKeysOf (zgw : Json) : UInt8 :=
  match zgw.get? "zwNetworkData" with
  | some zwpan => lrKeys zwpan
  | none => 0

def importedKeys (zgwBackup : Json) (ctrl : Option ZwController) (homeId : Bytes) (myNodeId : UInt8) : Option UInt8 :=
  (zgwBackup.get? "zgw").bind fun zgw =>
    (imported intOfString ctrl zgw ⟨fun _ => none, homeId, myNodeId⟩).2

def givenLrKeys (zgwBackup : Json) : UInt8 :=
  ((zgwBackup.get? "zgw").map lrKeysOf).getD 0

def endpointsOnce (zgwBackup : Json) : Bool :=
  (((zgwBackup.get? "zgw").bind (·.get? "nodeList")).map fun nodes =>
    nodes.items.all fun node => (nodeEndpoints node).all classesOnce).getD true

end Definitions

variable {intOfString} {v w : Json} {ctrl : Option ZwController}

variable (s : World × Bool)

section NodeList

theorem parseNodeItem_eq (s : World) (json : Json) :
    parseNodeItem intOfString ctrl s json = s.withNodes (nodeItem intOfString ctrl s.nodes json) := by
  cases json <;> rfl

theorem foldl_parseNodeItem (nodes : List Json) (s : World) : nodes.foldl (parseNodeItem intOfString ctrl) s =
      s.withNodes (nodesRun intOfString ctrl nodes s.nodes) := by
  induction nodes generalizing s with
  | nil => rfl
  | cons json nodes ih =>
    rw [List.foldl_cons, ih, parseNodeItem_eq, nodesRun]
    have hkeys : ∀ (o o' : Option UInt8) (k : UInt8), o.getD (o'.getD k) = (o.or o').getD k := by
      intro o o' k
      cases o <;> rfl
    simp only [World.withNodes, World.nodes, hkeys]

theorem nodesRun_reordered {xs ys : List Json} (h : List.Forall₂ Reordered xs ys)
    (honce : ∀ node ∈ xs, (nodeEndpoints node).all classesOnce = true) (n : NodesState) :
    nodesRun intOfString ctrl ys n = nodesRun intOfString ctrl xs n := by
  induction h generalizing n with
  | nil => rfl
  | @cons x y xs ys hxy _ ih =>
    have hnode := zgwParseNode_reordered intOfString hxy (honce x List.mem_cons_self) ctrl
    have hitem : nodeItem intOfString ctrl n y = nodeItem intOfString ctrl n x := by
      cases hxy with
      | refl => rfl
      | array => rfl
      | object => simp only [nodeItem, hnode]
    have ih' := ih fun node hmem => honce node (List.mem_cons_of_mem _ hmem)
    simp only [nodesRun, hitem, ih']

theorem zgwParseZwnode_assignedKeys {zwnode : Json} {node : NodeData} {myNodeId k : UInt8}
    (h : (zgwParseZwnode zwnode node ctrl myNodeId).assignedKeys = some k) :
    ∃ flags, k = nodeFlags2keystoreFlags flags := by
  have himport : ∀ s, (importEndpoints s myNodeId).assignedKeys = some k →
      ∃ flags, k = nodeFlags2keystoreFlags flags := by
    intro s hs
    unfold importEndpoints at hs
    simp only at hs
    split at hs
    · split at hs
      · exact ⟨_, (Option.some.inj hs).symm⟩
      · cases hs
    · split at hs
      · cases hs
      · exact ⟨_, (Option.some.inj hs).symm⟩
  unfold zgwParseZwnode at h
  simp only at h
  split at h
  · split at h
    · exact himport _ h
    · exact himport _ h
  · cases h

theorem zgwParseNode_assignedKeys {json : Json} {homeId : Bytes} {myNodeId k : UInt8}
    (h : (zgwParseNode intOfString json ctrl homeId myNodeId).assignedKeys = some k) :
    ∃ flags, k = nodeFlags2keystoreFlags flags := by
  unfold zgwParseNode at h
  simp only at h
  (repeat' split at h) <;> first | cases h | exact zgwParseZwnode_assignedKeys h

theorem nodesRun_keys {nodes : List Json} {n : NodesState} {k : UInt8}
    (h : (nodesRun intOfString ctrl nodes n).2 = some k) : ∃ flags, k = nodeFlags2keystoreFlags flags := by
  induction nodes generalizing n with
  | nil => cases h
  | cons json nodes ih =>
    rw [nodesRun, Option.or_eq_some_iff] at h
    obtain hrest | ⟨-, hitem⟩ := h
    · exact ih hrest
    · unfold nodeItem at hitem
      split at hitem
      · exact zgwParseNode_assignedKeys hitem
      · cases hitem

theorem lrKeys_and (zwpan : Json) (h : lrKeys zwpan ≠ 0) : 0x18 &&& lrKeys zwpan ≠ 0 := by
  revert h
  unfold lrKeys
  cases zwpan.get? "zwSecurity" with
  | none => exact fun h => absurd rfl h
  | some security =>
    simp only
    cases (security.get? "S2AuthenticatedKeyLR").isSome <;>
      cases (security.get? "S2AccessKeyLR").isSome <;> decide

theorem keystoreFlags_lr {k : UInt8} (hk : ∃ flags, k = nodeFlags2keystoreFlags flags) (zwpan : Json)
    (h : lrKeys zwpan ≠ 0) : k ||| lrKeys zwpan ≠ k := by
  obtain ⟨flags, rfl⟩ := hk
  have hflags : ∀ flags, 0x18 &&& nodeFlags2keystoreFlags flags = 0 := by decide
  intro heq
  have hand : 0x18 &&& (nodeFlags2keystoreFlags flags ||| lrKeys zwpan) = 0 := by
    rw [heq, hflags]
  exact lrKeys_and zwpan h ((Byte.and_or_eq_zero_iff _ _ _).mp hand).2

end NodeList

section Keys

theorem lrKeys_reordered (h : Reordered v w) : lrKeys w = lrKeys v := by
  unfold lrKeys
  obtain ⟨hv, hw⟩ | ⟨x, y, hv, hw, hxy⟩ := h.get?_cases "zwSecurity"
  · rw [hv, hw]
  · rw [hv, hw]
    simp only [hxy.isSome_get?]

theorem zgwParseZwpanData_eq (zwpan : Json) (keys : ZwSecurity) : zgwParseZwpanData zwpan keys =
      ({ (zgwParseZwpanData zwpan { keys with assignedKeys := 0 }).1 with
        assignedKeys := keys.assignedKeys ||| lrKeys zwpan },
        (zgwParseZwpanData zwpan { keys with assignedKeys := 0 }).2) := by
  unfold zgwParseZwpanData lrKeys
  cases zwpan.get? "zwSecurity" with
  | none => simp
  | some security => simp [UInt8.or_assoc]

def keysOf (s : World × Bool) : NodesState × UInt8 :=
  (s.1.nodes, s.1.backup.securityKeys.assignedKeys)

variable (intOfString ctrl)

def keysMember (a : NodesState × UInt8) (m : Member) : NodesState × UInt8 :=
  if m.1 = "nodeList" then
    match m.2 with
    | .array nodes =>
      let r := nodesRun intOfString ctrl nodes a.1
      (r.1, r.2.getD a.2)
    | _ => a
  else if m.1 = "zwNetworkData" then
    match m.2 with
    | .object ms => (a.1, a.2 ||| lrKeys (.object ms))
    | _ => a
  else a

variable {intOfString ctrl}

theorem keysOf_zgwMember (m : Member) :
    keysMember intOfString ctrl (keysOf s) m = keysOf (zgwMember intOfString ctrl s m) := by
  obtain ⟨key, v⟩ := m
  unfold keysMember zgwMember zgwParseNodes
  cases v with
  | array nodes =>
    by_cases hkey : key = "nodeList"
    · simp only [hkey, if_true, foldl_parseNodeItem]
      rfl
    · simp [hkey]
  | object ms =>
    simp only
    split_ifs <;> simp_all [keysOf, World.nodes, zgwParseZwpanData_eq _ s.1.backup.securityKeys]
  | _ => simp

def eraseKeys (s : World × Bool) : World × Bool :=
  ({ s.1 with
    backup := { s.1.backup with securityKeys := { s.1.backup.securityKeys with assignedKeys := 0 } } }, s.2)

theorem ext_keys {s t : World × Bool} (herase : eraseKeys s = eraseKeys t) (hkeys : keysOf s = keysOf t) : s = t := by
  obtain ⟨⟨⟨_, _, _, _, ⟨_, _, _, _, _, _, _, _⟩, _⟩, _, _⟩, _⟩ := s
  obtain ⟨⟨⟨_, _, _, _, ⟨_, _, _, _, _, _, _, _⟩, _⟩, _, _⟩, _⟩ := t
  simp_all [eraseKeys, keysOf]

end Keys

section Erased

def NodesState.hasGateway (ctrl : Option ZwController) (n : NodesState) : Bool :=
  ctrl.isNone || (n.zwNodes n.myNodeId.toUInt16).isSome

variable (intOfString ctrl)

def zgwHandlers : List (String × (Json → World × Bool → World × Bool)) :=
  let object {α : Type} (f : Json → α → α × Bool) (v : Json) (old : α) : α × Bool :=
    match v with
    | .object ms => f (.object ms) old
    | _ => (old, true)
  [("nodeList", fun v s =>
      let r : NodesState × Bool :=
        match v with
        | .array nodes =>
          let n := (nodesRun intOfString ctrl nodes s.1.nodes).1
          (n, n.hasGateway ctrl)
        | _ => (s.1.nodes, true)
      ({ backup := { s.1.backup with zwNodes := r.1.zwNodes }
         homeId := r.1.homeId
         myNodeId := r.1.myNodeId }, s.2 && r.2)),
    ("zipLanData", fun v s =>
      let r := object zgwParseLanData v s.1.backup.zipLanData
      ({ s.1 with backup := { s.1.backup with zipLanData := r.1 } }, s.2 && r.2)),
    ("zwNetworkData", fun v s =>
      let r := object (fun v keys => zgwParseZwpanData v { keys with assignedKeys := 0 }) v s.1.backup.securityKeys
      ({ s.1 with
        backup :=
          { s.1.backup with
            securityKeys := { r.1 with assignedKeys := s.1.backup.securityKeys.assignedKeys } } },
        s.2 && r.2)),
    ("zgwTemporaryAssociationData", fun v s =>
      let r := object zgwParseTemporaryAssociationData v s.1.backup.temporaryAssociationData
      ({ s.1 with backup := { s.1.backup with temporaryAssociationData := r.1 } }, s.2 && r.2))]

theorem zgwHandlers_independent : (zgwHandlers intOfString ctrl).Pairwise Independent := by
  simp only [zgwHandlers, List.pairwise_cons, List.forall_mem_cons, List.not_mem_nil, false_imp_iff,
    implies_true, List.Pairwise.nil, and_true]
  and_intros <;> intro v w s <;> exact Prod.ext rfl (Bool.and_right_comm _ _ _)

theorem eraseKeys_zgwMember (m : Member) : dispatch (zgwHandlers intOfString ctrl) (eraseKeys s) m =
      eraseKeys (zgwMember intOfString ctrl s m) := by
  obtain ⟨key, v⟩ := m
  unfold zgwMember zgwParseNodes
  simp only [dispatch, zgwHandlers]
  cases v with
  | array nodes =>
    by_cases hkey : key = "nodeList"
    · simp only [hkey, if_true, foldl_parseNodeItem]
      rfl
    · simp only [hkey, if_false]
      split_ifs <;> simp [eraseKeys]
  | object ms =>
    simp only [zgwParseZwpanData_eq _ s.1.backup.securityKeys]
    split_ifs <;> simp_all [eraseKeys, World.nodes]
  | _ =>
    simp only
    split_ifs <;> simp [eraseKeys, World.nodes]

variable {intOfString ctrl}

theorem zgwHandlers_congr (key : String) {v w : Json} (h : Reordered v w)
    (honce : key = "nodeList" → ∀ node ∈ v.items, (nodeEndpoints node).all classesOnce = true) :
    dispatch (zgwHandlers intOfString ctrl) s (key, v) = dispatch (zgwHandlers intOfString ctrl) s (key, w) := by
  cases h with
  | refl => rfl
  | array hitems =>
    simp only [dispatch, zgwHandlers]
    by_cases hkey : key = "nodeList"
    · simp only [hkey, if_true, nodesRun_reordered hitems (honce hkey)]
    · simp only [hkey, if_false]
  | object hperm hnodup hrel =>
    have hobject := Reordered.object hperm hnodup hrel
    simp only [dispatch, zgwHandlers, zgwParseLanData_reordered hobject,
      zgwParseZwpanData_reordered hobject, zgwParseTemporaryAssociationData_reordered hobject]

theorem eraseKeys_foldl (ms : List Member) (s : World × Bool) : eraseKeys (ms.foldl (zgwMember intOfString ctrl) s) =
      ms.foldl (dispatch (zgwHandlers intOfString ctrl)) (eraseKeys s) :=
  (List.foldl_hom eraseKeys (eraseKeys_zgwMember intOfString ctrl)).symm

theorem eraseKeys_reordered (h : Reordered v w)
    (honce : ∀ m ∈ v.members, m.1 = "nodeList" → ∀ node ∈ m.2.items,
      (nodeEndpoints node).all classesOnce = true) (s : World × Bool) :
    eraseKeys (w.members.foldl (zgwMember intOfString ctrl) s) =
      eraseKeys (v.members.foldl (zgwMember intOfString ctrl) s) := by
  rw [eraseKeys_foldl, eraseKeys_foldl]
  symm
  refine foldl_reordered_eq _ h ?_ ?_ honce _
  · intro a _ b _ hne s
    exact dispatch_comm (zgwHandlers_independent intOfString ctrl) a b hne s
  · intro s key v w hok hvw
    exact zgwHandlers_congr s key hvw hok

end Erased

section Order

variable (intOfString ctrl)

def nodesFirst (zgw : Json) (a : NodesState × UInt8) : NodesState × UInt8 :=
  ((imported intOfString ctrl zgw a.1).1, (imported intOfString ctrl zgw a.1).2.getD a.2 ||| lrKeysOf zgw)

def networkFirst (zgw : Json) (a : NodesState × UInt8) : NodesState × UInt8 :=
  ((imported intOfString ctrl zgw a.1).1, (imported intOfString ctrl zgw a.1).2.getD (a.2 ||| lrKeysOf zgw))

variable {intOfString ctrl}

theorem keysOf_foldl (ms : List Member) (s : World × Bool) : keysOf (ms.foldl (zgwMember intOfString ctrl) s) =
      ms.foldl (keysMember intOfString ctrl) (keysOf s) :=
  (List.foldl_hom keysOf keysOf_zgwMember).symm

theorem applyMember_nodeList (zgw : Json) (a : NodesState × UInt8) :
    applyMember (keysMember intOfString ctrl) "nodeList" (zgw.get? "nodeList") a =
      ((imported intOfString ctrl zgw a.1).1, (imported intOfString ctrl zgw a.1).2.getD a.2) := by
  unfold imported
  cases zgw.get? "nodeList" with
  | none => rfl
  | some nodes => cases nodes <;> rfl

theorem applyMember_zwNetworkData (zgw : Json) (a : NodesState × UInt8) :
    applyMember (keysMember intOfString ctrl) "zwNetworkData" (zgw.get? "zwNetworkData") a =
      (a.1, a.2 ||| lrKeysOf zgw) := by
  unfold lrKeysOf
  cases zgw.get? "zwNetworkData" with
  | none => simp [applyMember]
  | some zwpan => cases zwpan <;> simp [applyMember, keysMember, lrKeys, Json.get?, Json.members]

theorem keysOf_order (intOfString : Bytes → Int) (ctrl : Option ZwController) {ms : List Member} (hnodup : (ms.map Prod.fst).Nodup) (s : World × Bool) :
    (keysOf (ms.foldl (zgwMember intOfString ctrl) s) = nodesFirst intOfString ctrl (.object ms) (keysOf s) ∧
      keysOf (ms.reverse.foldl (zgwMember intOfString ctrl) s) =
        networkFirst intOfString ctrl (.object ms) (keysOf s)) ∨
    (keysOf (ms.foldl (zgwMember intOfString ctrl) s) = networkFirst intOfString ctrl (.object ms) (keysOf s) ∧
      keysOf (ms.reverse.foldl (zgwMember intOfString ctrl) s) =
        nodesFirst intOfString ctrl (.object ms) (keysOf s)) := by
  have hother : ∀ m ∈ ms, m.1 ≠ "nodeList" → m.1 ≠ "zwNetworkData" →
      ∀ a, keysMember intOfString ctrl a m = a := by
    intro m _ hnodes hnetwork a
    rw [keysMember, if_neg hnodes, if_neg hnetwork]
  have hlookup : ∀ key, ms.lookup key = (Json.object ms).get? key := fun _ => rfl
  have hfold := foldl_of_keys (by decide) hother hnodup (keysOf s)
  simp only [hlookup, applyMember_nodeList, applyMember_zwNetworkData] at hfold
  rw [keysOf_foldl, keysOf_foldl]
  exact hfold

theorem imported_reordered (h : Reordered v w)
    (honce : ∀ nodes, v.get? "nodeList" = some nodes → ∀ node ∈ nodes.items,
      (nodeEndpoints node).all classesOnce = true) (n : NodesState) :
    imported intOfString ctrl w n = imported intOfString ctrl v n := by
  unfold imported
  obtain ⟨hv, hw⟩ | ⟨x, y, hv, hw, hxy⟩ := h.get?_cases "nodeList"
  · rw [hv, hw]
  · have hitems := honce x hv
    rw [hv, hw]
    cases hxy with
    | refl => rfl
    | array hnodes => simp only [nodesRun_reordered hnodes hitems]
    | object => rfl

theorem lrKeysOf_reordered (h : Reordered v w) : lrKeysOf w = lrKeysOf v := by
  unfold lrKeysOf
  obtain ⟨hv, hw⟩ | ⟨x, y, hv, hw, hxy⟩ := h.get?_cases "zwNetworkData"
  · rw [hv, hw]
  · rw [hv, hw]
    exact lrKeys_reordered hxy

theorem networkFirst_eq {a : NodesState × UInt8} (h : lrKeysOf v = 0 ∨ (imported intOfString ctrl v a.1).2 = none) :
    networkFirst intOfString ctrl v a = nodesFirst intOfString ctrl v a := by
  unfold networkFirst nodesFirst
  obtain hlr | hnone := h
  · rw [hlr, UInt8.or_zero, UInt8.or_zero]
  · rw [hnone]
    rfl

theorem networkFirst_ne {a : NodesState × UInt8} (hlr : lrKeysOf v ≠ 0)
    (hkeys : (imported intOfString ctrl v a.1).2 ≠ none) :
    networkFirst intOfString ctrl v a ≠ nodesFirst intOfString ctrl v a := by
  obtain ⟨k, hk⟩ := Option.ne_none_iff_exists'.mp hkeys
  have hflags : ∃ flags, k = nodeFlags2keystoreFlags flags := by
    unfold imported at hk
    split at hk
    · exact nodesRun_keys hk
    · cases hk
  intro heq
  have hsnd : k = k ||| lrKeysOf v := by
    have := congrArg Prod.snd heq
    simpa [networkFirst, nodesFirst, hk] using this
  unfold lrKeysOf at hsnd hlr
  split at hlr
  · rename_i zwpan hzwpan
    rw [hzwpan] at hsnd
    exact keystoreFlags_lr hflags zwpan hlr hsnd.symm
  · exact hlr rfl

/-- `zgw_parse_zgw` does not depend on the order, when the two orders give the same. -/
theorem zgwParseZgw_reordered (h : Reordered v w)
    (honce : ∀ nodes, v.get? "nodeList" = some nodes → ∀ node ∈ nodes.items,
      (nodeEndpoints node).all classesOnce = true) {s : World}
    (hkeys : lrKeysOf v = 0 ∨ (imported intOfString ctrl v s.nodes).2 = none) :
    zgwParseZgw intOfString w ctrl s = zgwParseZgw intOfString v ctrl s := by
  have hfold : w.members.foldl (zgwMember intOfString ctrl) (s, true) =
      v.members.foldl (zgwMember intOfString ctrl) (s, true) := by
    cases h with
    | refl => rfl
    | array => rfl
    | @object xs mid ys hperm hnodup hrel =>
      have h : Reordered (.object xs) (.object ys) := .object hperm hnodup hrel
      have hnodup' := Reordered.nodup_right hperm hnodup hrel
      refine ext_keys (eraseKeys_reordered h ?_ _) ?_
      · rintro ⟨key, nodes⟩ hmem rfl
        exact honce nodes ((lookup_eq_some_iff hnodup).mpr hmem)
      · have hys : keysOf (ys.foldl (zgwMember intOfString ctrl) (s, true)) =
            nodesFirst intOfString ctrl (.object ys) (keysOf (s, true)) := by
          have hkeys' : lrKeysOf (.object ys) = 0 ∨ (imported intOfString ctrl (.object ys) s.nodes).2 = none := by
            rw [lrKeysOf_reordered h, imported_reordered h honce]
            exact hkeys
          obtain ⟨hys, -⟩ | ⟨hys, -⟩ := keysOf_order intOfString ctrl hnodup' (s, true)
          · exact hys
          · rw [hys]
            exact networkFirst_eq hkeys'
        have hxs : keysOf (xs.foldl (zgwMember intOfString ctrl) (s, true)) =
            nodesFirst intOfString ctrl (.object xs) (keysOf (s, true)) := by
          obtain ⟨hxs, -⟩ | ⟨hxs, -⟩ := keysOf_order intOfString ctrl hnodup (s, true)
          · exact hxs
          · rw [hxs]
            exact networkFirst_eq hkeys
        show keysOf (ys.foldl _ _) = keysOf (xs.foldl _ _)
        rw [hys, hxs]
        unfold nodesFirst
        rw [lrKeysOf_reordered h, imported_reordered h honce]
  unfold zgwParseZgw
  rw [hfold]

end Order

end ZipGateway.Restore

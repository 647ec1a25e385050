import ZipGateway.Restore.AssignedKeys

/-!
# A backup in another order

The members of a backup can be given in any order but for two of them: `zwNetworkData` adds the long
range keys to the assigned keys, and the gateway's entry in `nodeList` assigns to them. When the second
comes after the first, the long range keys are lost.
-/

namespace ZipGateway.Restore

open JsonTree

variable {intOfString : Bytes → Int} {ctrl : Option ZwController}

def startWorld (ctrl : Option ZwController) (homeId : Bytes) (myNodeId : UInt8) : World where
  backup :=
    match ctrl with
    | some ctrl => zwControllerAdd ctrl .zero
    | none => .zero
  homeId := homeId
  myNodeId := myNodeId

theorem nodes_startWorld (homeId : Bytes) (myNodeId : UInt8) :
    (startWorld ctrl homeId myNodeId).nodes = ⟨fun _ => none, homeId, myNodeId⟩ := by
  cases ctrl <;> rfl

section Members

def setManifest (manifest : Manifest) (s : World × Bool) : World × Bool :=
  ({ s.1 with backup := { s.1.backup with manifest := manifest } }, s.2)

theorem zgwMember_setManifest (manifest : Manifest) (s : World × Bool) (m : Member) :
    zgwMember intOfString ctrl (setManifest manifest s) m = setManifest manifest (zgwMember intOfString ctrl s m) := by
  unfold zgwMember zgwParseNodes
  cases m.2 with
  | array nodes =>
    simp only [foldl_parseNodeItem]
    split_ifs <;> rfl
  | object ms =>
    simp only
    split_ifs <;> rfl
  | _ => rfl

theorem zgwParseZgw_setManifest (intOfString : Bytes → Int) (ctrl : Option ZwController)
    (manifest : Manifest) (zgw : Json) (s : World × Bool) :
    zgwParseZgw intOfString zgw ctrl (setManifest manifest s).1 =
      setManifest manifest (zgwParseZgw intOfString zgw ctrl s.1) := by
  have hfold : zgw.members.foldl (zgwMember intOfString ctrl) (setManifest manifest (s.1, true)) =
      setManifest manifest (zgw.members.foldl (zgwMember intOfString ctrl) (s.1, true)) :=
    List.foldl_hom (setManifest manifest) (zgwMember_setManifest manifest)
  unfold zgwParseZgw
  have hstart : ((setManifest manifest s).1, true) = setManifest manifest (s.1, true) := rfl
  rw [hstart, hfold]
  rfl

theorem backupMember_comm (x y : Json) (s : World × Bool) :
    backupMember intOfString ctrl (backupMember intOfString ctrl s ("zgw", y)) ("ZGWBackupInfo", x) =
      backupMember intOfString ctrl (backupMember intOfString ctrl s ("ZGWBackupInfo", x)) ("zgw", y) := by
  cases x with
  | object info =>
    cases y with
    | object zgw =>
      have h := zgwParseZgw_setManifest intOfString ctrl (zgwrParseMetadata (.object info)) (.object zgw) s
      simp [backupMember, setManifest] at h ⊢
      rw [h]
      exact ⟨rfl, rfl⟩
    | _ => rfl
  | _ => cases y <;> rfl

variable (intOfString ctrl)

def readBackup (backup : Json) (s : World × Bool) : World × Bool :=
  applyMember (backupMember intOfString ctrl) "zgw" (backup.get? "zgw")
    (applyMember (backupMember intOfString ctrl) "ZGWBackupInfo" (backup.get? "ZGWBackupInfo") s)

variable {intOfString ctrl}

theorem zgwRestoreParseBackup_eq {backup : Json} (hnodup : (backup.members.map Prod.fst).Nodup)
    (homeId : Bytes) (myNodeId : UInt8) :
    zgwRestoreParseBackup intOfString backup ctrl homeId myNodeId =
      readBackup intOfString ctrl backup (startWorld ctrl homeId myNodeId, true) := by
  have hother : ∀ m ∈ backup.members, m.1 ≠ "ZGWBackupInfo" → m.1 ≠ "zgw" →
      ∀ s, backupMember intOfString ctrl s m = s := by
    intro m _ hinfo hzgw s
    unfold backupMember
    split
    · rw [if_neg hinfo, if_neg hzgw]
    · rfl
  have hcomm : ∀ s, applyMember (backupMember intOfString ctrl) "ZGWBackupInfo" (backup.get? "ZGWBackupInfo")
      (applyMember (backupMember intOfString ctrl) "zgw" (backup.get? "zgw") s) =
        readBackup intOfString ctrl backup s := by
    intro s
    unfold readBackup
    cases backup.get? "ZGWBackupInfo" with
    | none => rfl
    | some x =>
      cases backup.get? "zgw" with
      | none => rfl
      | some y => exact backupMember_comm x y s
  have hstart : zgwRestoreParseBackup intOfString backup ctrl homeId myNodeId =
      backup.members.foldl (backupMember intOfString ctrl) (startWorld ctrl homeId myNodeId, true) := rfl
  rw [hstart]
  obtain ⟨h, -⟩ | ⟨h, -⟩ := foldl_of_keys (by decide) hother hnodup (startWorld ctrl homeId myNodeId, true)
  · exact h
  · exact h.trans (hcomm _)

end Members

section Independence

variable {backup backup' : Json} {homeId : Bytes} {myNodeId : UInt8}

theorem applyMember_info_reordered (h : Reordered backup backup') (s : World × Bool) :
    applyMember (backupMember intOfString ctrl) "ZGWBackupInfo" (backup'.get? "ZGWBackupInfo") s =
      applyMember (backupMember intOfString ctrl) "ZGWBackupInfo" (backup.get? "ZGWBackupInfo") s := by
  obtain ⟨hx, hy⟩ | ⟨x, y, hx, hy, hxy⟩ := h.get?_cases "ZGWBackupInfo"
  · rw [hx, hy]
  · rw [hx, hy]
    cases hxy with
    | refl => rfl
    | array => rfl
    | object hperm hnodup hrel =>
      simp only [applyMember, backupMember, if_true, zgwrParseMetadata_reordered (Reordered.object hperm hnodup hrel)]

theorem nodes_applyMember_info (intOfString : Bytes → Int) (ctrl : Option ZwController) (o : Option Json) (s : World × Bool) :
    (applyMember (backupMember intOfString ctrl) "ZGWBackupInfo" o s).1.nodes = s.1.nodes := by
  cases o with
  | none => rfl
  | some x => cases x <;> rfl

theorem applyMember_zgw_reordered (h : Reordered backup backup') (honce : endpointsOnce backup = true)
    {s : World × Bool} (hnodes : s.1.nodes = ⟨fun _ => none, homeId, myNodeId⟩)
    (hkeys : givenLrKeys backup = 0 ∨ importedKeys intOfString backup ctrl homeId myNodeId = none) :
    applyMember (backupMember intOfString ctrl) "zgw" (backup'.get? "zgw") s =
      applyMember (backupMember intOfString ctrl) "zgw" (backup.get? "zgw") s := by
  obtain ⟨hx, hy⟩ | ⟨x, y, hx, hy, hxy⟩ := h.get?_cases "zgw"
  · rw [hx, hy]
  · have honce' : ∀ nodes, x.get? "nodeList" = some nodes → ∀ node ∈ nodes.items,
        (nodeEndpoints node).all classesOnce = true := by
      intro nodes hget
      simpa [endpointsOnce, hx, hget] using honce
    have hkeys' : lrKeysOf x = 0 ∨ (imported intOfString ctrl x s.1.nodes).2 = none := by
      simpa [givenLrKeys, importedKeys, hx, hnodes] using hkeys
    have hzgw := zgwParseZgw_reordered hxy honce' hkeys'
    rw [hx, hy]
    cases hxy with
    | refl => rfl
    | array => rfl
    | object => simp [applyMember, backupMember, hzgw]

theorem zgwRestoreParseBackup_reordered (h : Reordered backup backup')
    (hunique : backup.uniqueKeys = true) (honce : endpointsOnce backup = true)
    (hkeys : givenLrKeys backup = 0 ∨ importedKeys intOfString backup ctrl homeId myNodeId = none) :
    zgwRestoreParseBackup intOfString backup' ctrl homeId myNodeId =
      zgwRestoreParseBackup intOfString backup ctrl homeId myNodeId := by
  have hnodup := Json.nodup_of_uniqueKeys hunique
  have hnodup' := h.nodup hnodup
  have hnodes := (nodes_applyMember_info intOfString ctrl
    (backup.get? "ZGWBackupInfo") (startWorld ctrl homeId myNodeId, true)).trans
      (nodes_startWorld homeId myNodeId)
  rw [zgwRestoreParseBackup_eq hnodup, zgwRestoreParseBackup_eq hnodup']
  unfold readBackup
  rw [applyMember_info_reordered h]
  exact applyMember_zgw_reordered h honce hnodes hkeys

theorem keysOf_zgwRestoreParseBackup (intOfString : Bytes → Int) (ctrl : Option ZwController)
    (homeId : Bytes) (myNodeId : UInt8) (hnodup : (backup.members.map Prod.fst).Nodup) {ms : List Member}
    (hzgw : backup.get? "zgw" = some (.object ms)) :
    ∃ s : World × Bool, s.1.nodes = ⟨fun _ => none, homeId, myNodeId⟩ ∧
      s = ((applyMember (backupMember intOfString ctrl) "ZGWBackupInfo" (backup.get? "ZGWBackupInfo")
        (startWorld ctrl homeId myNodeId, true)).1, true) ∧
      keysOf (zgwRestoreParseBackup intOfString backup ctrl homeId myNodeId) =
        keysOf (ms.foldl (zgwMember intOfString ctrl) s) := by
  refine ⟨_, ?_, rfl, ?_⟩
  · exact (nodes_applyMember_info _ _ _ _).trans (nodes_startWorld homeId myNodeId)
  · rw [zgwRestoreParseBackup_eq hnodup]
    unfold readBackup
    rw [hzgw]
    rfl

def reversedZgw (backup : Json) : Json :=
  match backup.get? "zgw" with
  | some (.object ms) => .object (replaceMember "zgw" (.object ms.reverse) backup.members)
  | _ => backup

theorem zgwRestoreParseBackup_reversed (hunique : backup.uniqueKeys = true) (hlr : givenLrKeys backup ≠ 0)
    (hkeys : importedKeys intOfString backup ctrl homeId myNodeId ≠ none) :
    Reordered backup (reversedZgw backup) ∧
      zgwRestoreParseBackup intOfString (reversedZgw backup) ctrl homeId myNodeId ≠
        zgwRestoreParseBackup intOfString backup ctrl homeId myNodeId := by
  obtain ⟨ms, hzgw⟩ : ∃ ms, backup.get? "zgw" = some (.object ms) := by
    cases hget : backup.get? "zgw" with
    | none => simp [givenLrKeys, hget] at hlr
    | some zgw =>
      cases zgw with
      | object ms => exact ⟨ms, rfl⟩
      | _ =>
        rw [givenLrKeys, hget] at hlr
        exact absurd rfl hlr
  obtain ⟨members, rfl⟩ : ∃ members, backup = .object members := by
    cases backup with
    | object members => exact ⟨members, rfl⟩
    | _ => cases hzgw
  have hnodup := Json.nodup_of_uniqueKeys hunique
  have hnodup_ms : (ms.map Prod.fst).Nodup :=
    Json.nodup_of_uniqueKeys (Json.uniqueKeys_get? hunique hzgw)
  have hreversed : reversedZgw (.object members) =
      .object (replaceMember "zgw" (.object ms.reverse) members) := by
    unfold reversedZgw
    rw [hzgw]
    rfl
  have hzgw' : (Json.object (replaceMember "zgw" (.object ms.reverse) members)).get? "zgw" =
      some (.object ms.reverse) := lookup_replaceMember hzgw
  have hinfo : (Json.object (replaceMember "zgw" (.object ms.reverse) members)).get? "ZGWBackupInfo" =
      (Json.object members).get? "ZGWBackupInfo" := lookup_replaceMember_of_ne (by decide)
  have hreordered : Reordered (.object members)
      (.object (replaceMember "zgw" (.object ms.reverse) members)) :=
    Reordered.replaceMember hnodup hzgw (Reordered.of_perm (List.reverse_perm ms).symm hnodup_ms)
  have hnodup' := hreordered.nodup hnodup
  rw [hreversed]
  refine ⟨hreordered, fun heq => ?_⟩
  obtain ⟨s, hnodes, hs, hkeysOf⟩ :=
    keysOf_zgwRestoreParseBackup intOfString ctrl homeId myNodeId hnodup hzgw
  obtain ⟨s', -, hs', hkeysOf'⟩ :=
    keysOf_zgwRestoreParseBackup intOfString ctrl homeId myNodeId hnodup' hzgw'
  obtain rfl : s' = s := by rw [hs', hs, hinfo]
  have hfolds : keysOf (ms.reverse.foldl (zgwMember intOfString ctrl) s') =
      keysOf (ms.foldl (zgwMember intOfString ctrl) s') := by
    rw [← hkeysOf, ← hkeysOf', heq]
  have hlr' : lrKeysOf (.object ms) ≠ 0 := by
    simpa [givenLrKeys, hzgw] using hlr
  have himported : (imported intOfString ctrl (.object ms) (keysOf s').1).2 ≠ none := by
    have hkeysOf : (keysOf s').1 = s'.1.nodes := rfl
    rw [hkeysOf, hnodes]
    simpa [importedKeys, hzgw] using hkeys
  have hne := networkFirst_ne hlr' himported
  obtain ⟨h, h'⟩ | ⟨h, h'⟩ := keysOf_order intOfString ctrl hnodup_ms s'
  · exact hne (h'.symm.trans (hfolds.trans h))
  · exact hne (h.symm.trans (hfolds.symm.trans h'))

def gatewayEntry : Json :=
  .object
    [("nodeUID", .object
        [("uidType", .string (ascii "ZW Net ID")), ("homeId", .string (ascii "0xC0FFEE01")),
          ("nodeId", .int 1)]),
      ("isZGW", .bool true), ("zgwZWNodeData", .object
        [("grantedKeys", .int 0x87),
          ("endpoints", .array [.object [("endpointId", .int 0)], .object [("endpointId", .int 1)]])])]

def networkEntry (longRange : Bool) : Json :=
  let key (digits : Nat) : Json := .string (List.replicate digits 0x41)
  .object
    [("zwSecurity", .object <|
        [("S0key", key 32), ("S2UnauthenticatedKey", key 32), ("S2AuthenticatedKey", key 32),
          ("S2AccessKey", key 32), ("ECDHPrivateKey", key 64)] ++ if longRange then
            [("S2AccessKeyLR", key 32), ("S2AuthenticatedKeyLR", key 32)] else [])]

def backupOf (members : List Member) : Json :=
  .object [("zgw", .object members)]

theorem reordered_backupOf (a b : Member) (hne : a.1 ≠ b.1) : Reordered (backupOf [a, b]) (backupOf [b, a]) := by
  have hnodup : ([a, b].map Prod.fst).Nodup := by simpa using hne
  exact .object (List.Perm.refl _) (List.nodup_singleton _)
    (.cons (.mk "zgw" (Reordered.of_perm (List.Perm.swap b a []) hnodup)) .nil)

def nodesThenKeys : Json :=
  backupOf [("nodeList", .array [gatewayEntry]), ("zwNetworkData", networkEntry true)]

def keysThenNodes : Json :=
  backupOf [("zwNetworkData", networkEntry true), ("nodeList", .array [gatewayEntry])]

end Independence

end ZipGateway.Restore

import ZipGateway.Restore.Parser

/-!
# Restore and the order of members

Most parsers of the reader are steps of a fold for which the handlers of two keys are independent, so the
order of the members of an object is not seen. The one exception is the field `assigned_keys`.
-/

namespace ZipGateway.Restore

open JsonTree

variable {intOfString : Bytes → Int} {v w : Json}

variable (m : Member)

section Values

theorem jsonGetInt_reordered (h : Reordered v w) : jsonGetInt intOfString w = jsonGetInt intOfString v := by
  cases h <;> rfl

theorem hexCreateFromJson_reordered (h : Reordered v w) : hexCreateFromJson w = hexCreateFromJson v := by
  unfold hexCreateFromJson
  rw [h.str]

theorem stringCreateFromJson_reordered (h : Reordered v w) : stringCreateFromJson w = stringCreateFromJson v := by
  unfold stringCreateFromJson
  rw [h.str]

theorem homeidSetFromJson_reordered (h : Reordered v w) : homeidSetFromJson w = homeidSetFromJson v := by
  cases h <;> rfl

theorem createDskFromJson_reordered (h : Reordered v w) : createDskFromJson w = createDskFromJson v := by
  cases h <;> rfl

theorem uint8ArraySetFromJson_reordered (h : Reordered v w) (key : String) (target : Bytes) (n : Nat) :
    uint8ArraySetFromJson key w target n = uint8ArraySetFromJson key v target n := by
  unfold uint8ArraySetFromJson
  obtain ⟨hv, hw⟩ | ⟨x, y, hv, hw, hxy⟩ := h.get?_cases key
  · rw [hv, hw]
  · rw [hv, hw]
    simp only [hxy.str]

theorem uint8SetFromJson_reordered (h : Reordered v w) (key : String) :
    uint8SetFromJson (w.get? key) = uint8SetFromJson (v.get? key) := by
  obtain ⟨hv, hw⟩ | ⟨x, y, hv, hw, hxy⟩ := h.get?_cases key
  · rw [hv, hw]
  · rw [hv, hw]
    cases hxy <;> rfl

theorem uint16SetFromJson_reordered (h : Reordered v w) (key : String) :
    uint16SetFromJson (w.get? key) = uint16SetFromJson (v.get? key) := by
  obtain ⟨hv, hw⟩ | ⟨x, y, hv, hw, hxy⟩ := h.get?_cases key
  · rw [hv, hw]
  · rw [hv, hw]
    cases hxy <;> rfl

end Values

section Parsers

theorem zgwParseZwpanData_reordered (h : Reordered v w) (keys : ZwSecurity) :
    zgwParseZwpanData w keys = zgwParseZwpanData v keys := by
  unfold zgwParseZwpanData
  obtain ⟨hv, hw⟩ | ⟨x, y, hv, hw, hxy⟩ := h.get?_cases "zwSecurity"
  · rw [hv, hw]
  · rw [hv, hw]
    simp only [uint8ArraySetFromJson_reordered hxy, hxy.isSome_get?]

theorem foldl_dispatch_reordered {σ : Type} {step : σ → Member → σ} (handlers : List (String × (Json → σ → σ)))
    (hkey : ∀ handler ∈ handlers, ∀ v s, step s (handler.1, v) = handler.2 v s) (h : Reordered v w)
    (hother : ∀ m ∈ v.members, m.1 ∉ handlers.map Prod.fst → ∀ s, step s m = s)
    (hpair : handlers.Pairwise Independent)
    (hcongr : ∀ s key v w, Reordered v w → step s (key, v) = step s (key, w))
    (s : σ) : w.members.foldl step s = v.members.foldl step s := by
  symm
  refine foldl_reordered_eq (fun _ => True) h ?_ ?_ (fun _ _ => trivial) s
  · intro a ha b hb hne s
    simp only [eq_dispatch hkey (hother a ha), eq_dispatch hkey (hother b hb)]
    exact dispatch_comm hpair a b hne s
  · intro s key v w _ hvw
    exact hcongr s key v w hvw

theorem step_congr {σ : Type} {step : σ → Member → σ} (harray : ∀ s key xs, step s (key, .array xs) = s)
    (hobject : ∀ s key ms, step s (key, .object ms) = s) (s : σ) (key : String) (v w : Json)
    (h : Reordered v w) : step s (key, v) = step s (key, w) := by
  cases h with
  | refl => rfl
  | array => rw [harray, harray]
  | object => rw [hobject, hobject]

def metadataHandlers : List (String × (Json → Manifest → Manifest)) :=
  [("versionMajor", fun v s =>
      { s with backupVersionMajor := match v with | .int n => UInt8.ofInt n | _ => s.backupVersionMajor }),
    ("versionMinor", fun v s =>
      { s with backupVersionMinor := match v with | .int n => UInt8.ofInt n | _ => s.backupVersionMinor }),
    ("timestamp", fun v s =>
      { s with backupTimestamp := match v with | .int n => UInt32.ofInt n | _ => s.backupTimestamp })]

theorem zgwrParseMetadata_reordered (h : Reordered v w) : zgwrParseMetadata w = zgwrParseMetadata v := by
  refine foldl_dispatch_reordered metadataHandlers ?_ h ?_ ?_ (step_congr (fun _ _ _ => rfl) (fun _ _ _ => rfl)) _
  · simp only [metadataHandlers, List.forall_mem_cons, List.not_mem_nil, false_imp_iff, implies_true, and_true]
    refine ⟨?_, ?_, ?_⟩ <;> rintro (_ | _ | _ | _ | _ | _ | _) s <;> rfl
  · rintro ⟨key, _ | _ | _ | _ | _ | _ | _⟩ - hkey s <;>
      simp_all [metadataHandlers, metadataMember]
  · simp only [metadataHandlers, List.pairwise_cons, List.forall_mem_cons, List.not_mem_nil, false_imp_iff,
      implies_true, List.Pairwise.nil, and_true]
    refine ⟨⟨?_, ?_⟩, ?_⟩ <;> intro v w s <;> rfl

theorem foldl_flagged_reordered {σ : Type} {step : σ × Bool → Member → σ × Bool}
    (handlers : List (String × (Json → σ → σ))) (ok : Member → Bool)
    (hkey : ∀ handler ∈ handlers, ∀ v s, step s (handler.1, v) = (handler.2 v s.1, s.2 && ok (handler.1, v)))
    (hother : ∀ key, key ∉ handlers.map Prod.fst → ∀ v s, step s (key, v) = (s.1, s.2 && ok (key, v)))
    (hpair : handlers.Pairwise Independent)
    (hcongr : ∀ s key v w, Reordered v w → step s (key, v) = step s (key, w)) (h : Reordered v w)
    (s : σ × Bool) : w.members.foldl step s = v.members.foldl step s := by
  have hstep : ∀ s m, step s m = (dispatch handlers s.1 m, s.2 && ok m) := by
    rintro s ⟨key, v⟩
    obtain ⟨habsent, hid⟩ | ⟨handler, hmem, rfl, hrun⟩ := dispatch_cases handlers (key, v)
    · rw [hother key habsent, hid]
    · rw [hkey handler hmem, hrun]
  have hcomm : ∀ a b : Member, a.1 ≠ b.1 → ∀ s, step (step s a) b = step (step s b) a := by
    intro a b hne s
    simp only [hstep, dispatch_comm hpair a b hne, Bool.and_right_comm]
  symm
  refine foldl_reordered_eq (fun _ => True) h (fun a _ b _ => hcomm a b) ?_ (fun _ _ => trivial) s
  intro s key v w _ hvw
  exact hcongr s key v w hvw

def prodIdHandlers : List (String × (Json → ProductId → ProductId)) :=
  let number (v : Json) (old : UInt16) : UInt16 :=
    match v with
    | .int n => (uint16SetFromIntval (clampInt32 n)).getD old
    | _ => old
  [("manufacturerId", fun v s => { s with manufacturerId := number v s.manufacturerId }),
    ("productType", fun v s => { s with productType := number v s.productType }),
    ("productId", fun v s => { s with productId := number v s.productId })]

theorem zgwParseZwnodeProdId_reordered (h : Reordered v w) (prodId : ProductId) :
    zgwParseZwnodeProdId w prodId = zgwParseZwnodeProdId v prodId := by
  unfold zgwParseZwnodeProdId
  rw [h.length_members]
  refine foldl_flagged_reordered prodIdHandlers (fun m => (prodIdMember (⟨0, 0, 0⟩, true) m).2) ?_ ?_ ?_
    (step_congr (fun _ _ _ => rfl) (fun _ _ _ => rfl)) h _
  · simp only [prodIdHandlers, List.forall_mem_cons, List.not_mem_nil, false_imp_iff, implies_true, and_true]
    refine ⟨?_, ?_, ?_⟩ <;> rintro (_ | _ | n | _ | _ | _ | _) ⟨s, ok⟩
    all_goals try exact Prod.ext rfl (Bool.and_true _).symm
    all_goals
      simp only [prodIdMember, findUint16Field, prodIdFields]
      cases uint16SetFromIntval (clampInt32 n) <;> simp
  · rintro key hkey (_ | _ | _ | _ | _ | _ | _) s <;>
      simp_all [prodIdHandlers, prodIdMember, findUint16Field, prodIdFields]
  · simp only [prodIdHandlers, List.pairwise_cons, List.forall_mem_cons, List.not_mem_nil, false_imp_iff,
      implies_true, List.Pairwise.nil, and_true]
    refine ⟨⟨?_, ?_⟩, ?_⟩ <;> intro v w s <;> rfl

def setString {α : Type} (f : Bytes → α → α) (v : Json) (old : α) : α :=
  match v with
  | .string str => f str old
  | _ => old

def setUint16 (v : Json) (old : UInt16) : UInt16 :=
  match v with
  | .int n => (uint16SetFromIntval (clampInt32 n)).getD old
  | _ => old

def lanHandlers : List (String × (Json → ZipLanIpData → ZipLanIpData)) :=
  [("ZipPSK", fun v s =>
      { s with zipPsk := setString (fun str old => overwrite old (hexSetFromString 64 str)) v s.zipPsk }),
    ("ZipLanGw6", fun v s => { s with cfgLanGwIp6Addr := setString uiplibIpaddrconv v s.cfgLanGwIp6Addr }),
    ("ZipLanIp6", fun v s => { s with cfgLanAddr := setString uiplibIpaddrconv v s.cfgLanAddr }),
    ("ZipUnsolicitedDestinationIp6", fun v s =>
      { s with unsolDest1 := setString uiplibIpaddrconv v s.unsolDest1 }),
    ("ZipUnsolicitedDestination2Ip6", fun v s =>
      { s with unsolDest2 := setString uiplibIpaddrconv v s.unsolDest2 }),
    ("macAddress", fun v s =>
      { s with lladdr := setString (fun str old => overwrite old (hexSetFromString 6 str)) v s.lladdr }),
    ("ZipUnsolicitedDestinationPort", fun v s => { s with unsolPort1 := setUint16 v s.unsolPort1 }),
    ("ZipUnsolicitedDestination2Port", fun v s => { s with unsolPort2 := setUint16 v s.unsolPort2 })]

theorem lanMember_eq (key : String) (handler : Json → ZipLanIpData → ZipLanIpData)
    (h : (key, handler) ∈ lanHandlers) (v : Json) (s : ZipLanIpData × Bool) :
    lanMember s (key, v) = (handler v s.1, s.2 && (lanMember (BackupData.zero.zipLanData, true) (key, v)).2) := by
  simp only [lanHandlers, List.mem_cons, List.not_mem_nil, or_false, Prod.mk.injEq] at h
  cases v with
  | string str =>
    rcases h with ⟨rfl, rfl⟩ | ⟨rfl, rfl⟩ | ⟨rfl, rfl⟩ | ⟨rfl, rfl⟩ | ⟨rfl, rfl⟩ | ⟨rfl, rfl⟩ | ⟨rfl, rfl⟩ |
      ⟨rfl, rfl⟩ <;> simp [lanMember, setString, setUint16]
  | int n =>
    rcases h with ⟨rfl, rfl⟩ | ⟨rfl, rfl⟩ | ⟨rfl, rfl⟩ | ⟨rfl, rfl⟩ | ⟨rfl, rfl⟩ | ⟨rfl, rfl⟩ | ⟨rfl, rfl⟩ |
      ⟨rfl, rfl⟩ <;> simp [lanMember, findUint16Field, lanPorts, setString, setUint16]
    all_goals cases uint16SetFromIntval (clampInt32 n) <;> simp
  | _ =>
    rcases h with ⟨rfl, rfl⟩ | ⟨rfl, rfl⟩ | ⟨rfl, rfl⟩ | ⟨rfl, rfl⟩ | ⟨rfl, rfl⟩ | ⟨rfl, rfl⟩ | ⟨rfl, rfl⟩ |
      ⟨rfl, rfl⟩ <;> exact Prod.ext rfl (Bool.and_true _).symm

theorem zgwParseLanData_reordered (h : Reordered v w) (data : ZipLanIpData) :
    zgwParseLanData w data = zgwParseLanData v data := by
  refine foldl_flagged_reordered lanHandlers (fun m => (lanMember (BackupData.zero.zipLanData, true) m).2)
    (fun handler hmem => lanMember_eq handler.1 handler.2 hmem) ?_ ?_
    (step_congr (fun _ _ _ => rfl) (fun _ _ _ => rfl)) h _
  · rintro key hkey (_ | _ | _ | _ | _ | _ | _) s <;>
      simp_all [lanHandlers, lanMember, findUint16Field, lanPorts]
  · simp only [lanHandlers, List.pairwise_cons, List.forall_mem_cons, List.not_mem_nil, false_imp_iff,
      implies_true, List.Pairwise.nil, and_true]
    and_intros <;> intro v w s <;> rfl

theorem zwnodeDataMember_reordered (h : Reordered v w) (nodeId : NodeId) :
    zgwParseZwnodeData w nodeId = zgwParseZwnodeData v nodeId := by
  refine foldl_dispatch_reordered [("nodeId", fun v s => zwnodeDataMember s ("nodeId", v))]
    ?_ h ?_ (List.pairwise_singleton _ _) (step_congr (fun _ _ _ => rfl) (fun _ _ _ => rfl)) _
  · simp
  · rintro ⟨key, _ | _ | _ | _ | _ | _ | _⟩ - hkey s <;> simp_all [zwnodeDataMember]

theorem zgwParseCcVersions_reordered {xs ys : List Json} (h : List.Forall₂ Reordered xs ys)
    (versions : List (UInt16 × UInt8)) : zgwParseCcVersions ys versions = zgwParseCcVersions xs versions := by
  induction h generalizing versions with
  | nil => rfl
  | @cons x _ _ _ hxy _ ih =>
    cases hxy with
    | refl => cases x <;> simp only [zgwParseCcVersions, ih]
    | array => simp only [zgwParseCcVersions, ih]
    | object hperm hnodup hrel =>
      have hobject := Reordered.object hperm hnodup hrel
      simp only [zgwParseCcVersions, uint8SetFromJson_reordered hobject, uint16SetFromJson_reordered hobject, ih]

theorem virtualNodes_reordered {xs ys : List Json} (h : List.Forall₂ Reordered xs ys) (i : Nat)
    (nodes : List NodeId) : virtualNodes i ys nodes = virtualNodes i xs nodes := by
  induction h generalizing i nodes with
  | nil => rfl
  | @cons x _ _ _ hxy _ ih =>
    cases hxy with
    | refl => cases x <;> simp only [virtualNodes, ih]
    | array => simp only [virtualNodes, ih]
    | object => simp only [virtualNodes, ih]

theorem zgwParseTemporaryAssociationData_reordered (h : Reordered v w) (data : TemporaryAssociationData) :
    zgwParseTemporaryAssociationData w data = zgwParseTemporaryAssociationData v data := by
  unfold zgwParseTemporaryAssociationData
  obtain ⟨hv, hw⟩ | ⟨x, y, hv, hw, hxy⟩ := h.get?_cases "virtualNodeList"
  · rw [hv, hw]
  · rw [hv, hw]
    cases hxy with
    | refl => rfl
    | array hitems => simp only [virtualNodes_reordered hitems, hitems.length_eq]
    | object => rfl

theorem zgwParseZwnodeLiveness_reordered (h : Reordered v w) (liveness : Liveness) :
    zgwParseZwnodeLiveness w liveness = zgwParseZwnodeLiveness v liveness := by
  unfold zgwParseZwnodeLiveness
  congr 1
  · obtain ⟨hv, hw⟩ | ⟨x, y, hv, hw, hxy⟩ := h.get?_cases "livenessState"
    · rw [hv, hw]
    · rw [hv, hw]
      cases hxy <;> rfl
  · obtain ⟨hv, hw⟩ | ⟨x, y, hv, hw, hxy⟩ := h.get?_cases "wakeupInterval"
    · rw [hv, hw]
    · rw [hv, hw]
      cases hxy <;> rfl

def probeStateHandlers : List (String × (Json → ProbeState → ProbeState)) :=
  [("state", fun v s =>
      let set {α : Type} (done interview old : α) : α :=
        setString (fun str old =>
          if strcmpEq str (ascii "DONE") then done
          else if strcmpEq str (ascii "RE-INTERVIEW") then interview
          else old) v old
      { s with
        state := set .doNotInterview .interview s.state
        interviewState := set .doNotInterview .interview s.interviewState
        probeFlags := set rdNodeFlagProbeHasCompleted rdNodeProbeNeverStarted s.probeFlags }),
    ("ZWplusRoleType", fun v s =>
      { s with
        nodePropertiesFlags := setString (fun str old =>
          if strcmpEq str (ascii "portableSlave") then old ||| rdNodeFlagPortable else old) v
            s.nodePropertiesFlags }),
    ("versionCap", fun v s =>
      { s with
        nodeVersionCapAndZwaveSw :=
          match v with
          | .string str => (hexSetFromString 1 str).headD s.nodeVersionCapAndZwaveSw
          | .int n => (uint8SetFromIntval (clampInt32 n)).getD s.nodeVersionCapAndZwaveSw
          | _ => s.nodeVersionCapAndZwaveSw }),
    ("ccVersions", fun v s =>
      { s with nodeCcVersions := zgwParseCcVersions v.items s.nodeCcVersions }),
    ("isZwsProbed", fun v s =>
      { s with nodeIsZwsProbed := match v with | .bool b => b | _ => s.nodeIsZwsProbed })]

theorem zgwParseZwnodeProbeState_reordered (h : Reordered v w) (probeState : ProbeState) :
    zgwParseZwnodeProbeState w probeState = zgwParseZwnodeProbeState v probeState := by
  refine foldl_flagged_reordered probeStateHandlers
    (fun m => (probeStateMember (NodeZwData.init.probeState, true) m).2) ?_ ?_ ?_ ?_ h _
  · simp only [probeStateHandlers, List.forall_mem_cons, List.not_mem_nil, false_imp_iff, implies_true, and_true]
    refine ⟨?_, ?_, ?_, ?_, ?_⟩ <;> rintro (_ | _ | n | _ | str | _ | _) ⟨s, ok⟩
    all_goals try exact Prod.ext rfl (Bool.and_true _).symm
    all_goals simp only [probeStateMember, setString]
    all_goals (repeat' split) <;> simp_all
  · rintro key hkey (_ | _ | _ | _ | _ | _ | _) s <;> simp_all [probeStateHandlers, probeStateMember]
  · simp only [probeStateHandlers, List.pairwise_cons, List.forall_mem_cons, List.not_mem_nil,
      false_imp_iff, implies_true, List.Pairwise.nil, and_true]
    and_intros <;> intro v w s <;> rfl
  · intro s key v w hvw
    cases hvw with
    | refl => rfl
    | array hitems => simp only [probeStateMember, zgwParseCcVersions_reordered hitems]
    | object => rfl

end Parsers

section Endpoints

def mdnsPart (part : Option Json) (old : Option Bytes × UInt8) : Option Bytes × UInt8 :=
  match part with
  | none => old
  | some part =>
    if part.str.length ≤ 255 then (stringCreateFromJson part, UInt8.ofNat part.str.length)
    else (none, old.2)

theorem zgwParseEpMdnsData_eq (epPart : Json) (ep : EpData) : zgwParseEpMdnsData epPart ep = { ep with
        endpointName := (mdnsPart (epPart.get? "name") (ep.endpointName, ep.endpointNameLen)).1
        endpointNameLen := (mdnsPart (epPart.get? "name") (ep.endpointName, ep.endpointNameLen)).2
        endpointLocation :=
          (mdnsPart (epPart.get? "location") (ep.endpointLocation, ep.endpointLocLen)).1
        endpointLocLen :=
          (mdnsPart (epPart.get? "location") (ep.endpointLocation, ep.endpointLocLen)).2 } := by
  unfold zgwParseEpMdnsData mdnsPart
  cases epPart.get? "name" with
  | none =>
    cases epPart.get? "location" with
    | none => rfl
    | some part => simp only; split <;> rfl
  | some name =>
    cases epPart.get? "location" with
    | none => simp only; split <;> rfl
    | some part => simp only; split <;> split <;> rfl

theorem mdnsPart_reordered (h : Reordered v w) (key : String) (old : Option Bytes × UInt8) :
    mdnsPart (w.get? key) old = mdnsPart (v.get? key) old := by
  obtain ⟨hv, hw⟩ | ⟨x, y, hv, hw, hxy⟩ := h.get?_cases key
  · rw [hv, hw]
  · rw [hv, hw]
    simp only [mdnsPart, hxy.str, stringCreateFromJson_reordered hxy]

def nifPart (index : Nat) (epPart : Json) (old : Option Bytes × UInt8) : Option Bytes × UInt8 :=
  let nif := ((epPart.get? "nonSecureNIF").map hexCreateFromJson).getD []
  if nif = [] then old
  else
    let secNif := ((epPart.get? "secureNIF").map hexCreateFromJson).getD []
    let nodeInfo := nif ++ (if index = 0 then [commandClassZipNaming, commandClassZip] else []) ++
      (if secNif = [] then [] else securityScheme0Mark ++ secNif)
    (some nodeInfo, UInt8.ofNat nodeInfo.length)

theorem zgwParseEpNifs_eq (epPart : Json) (index : Nat) (ep : EpData) : zgwParseEpNifs epPart index ep = { ep with
        endpointInfo := (nifPart index epPart (ep.endpointInfo, ep.endpointInfoLen)).1
        endpointInfoLen := (nifPart index epPart (ep.endpointInfo, ep.endpointInfoLen)).2 } := by
  unfold zgwParseEpNifs nifPart
  simp only
  split <;> rfl

theorem nifPart_reordered (h : Reordered v w) (index : Nat) (old : Option Bytes × UInt8) :
    nifPart index w old = nifPart index v old := by
  have hnif : ∀ key, (w.get? key).map hexCreateFromJson = (v.get? key).map hexCreateFromJson := by
    intro key
    obtain ⟨hv, hw⟩ | ⟨x, y, hv, hw, hxy⟩ := h.get?_cases key
    · rw [hv, hw]
    · rw [hv, hw, Option.map_some, Option.map_some, hexCreateFromJson_reordered hxy]
  unfold nifPart
  rw [hnif, hnif]

def epHandlers (index : Nat) (nifKey : String) : List (String × (Json → EpData × Bool → EpData × Bool)) :=
  let mdns (key : String) (v : Json) (old : Option Bytes × UInt8) : Option Bytes × UInt8 :=
    match v with
    | .object ms => mdnsPart ((Json.object ms).get? key) old
    | _ => old
  let nif (v : Json) (old : Option Bytes × UInt8) : Option Bytes × UInt8 :=
    match v with
    | .object ms => nifPart index (.object ms) old
    | _ => old
  let aggregation (v : Json) (old : Option Bytes × UInt8) : Option Bytes × UInt8 :=
    setString (fun str old =>
      if 2 ≤ str.length then
        let bytes := hexSetFromString (str.length / 2) str
        let len := UInt8.ofNat bytes.length
        (if len = 0 then none else some bytes, len)
      else old) v old
  [("endpointId", fun v s =>
      ({ s.1 with
        endpointId :=
          match v with
          | .int n => (uint8SetFromIntval (clampInt32 n)).getD s.1.endpointId
          | _ => s.1.endpointId
        endpointIdFromJson :=
          match v with
          | .int _ => true
          | _ => s.1.endpointIdFromJson },
        match v with
        | .int n => (uint8SetFromIntval (clampInt32 n)).isSome
        | _ => s.2)),
    ("installerIcon", fun v s =>
      ({ s.1 with installerIconId := setUint16 v s.1.installerIconId }, s.2)),
    ("userIcon", fun v s => ({ s.1 with userIconId := setUint16 v s.1.userIconId }, s.2)),
    ("epMDNSData", fun v s =>
      ({ s.1 with
        endpointName := (mdns "name" v (s.1.endpointName, s.1.endpointNameLen)).1
        endpointNameLen := (mdns "name" v (s.1.endpointName, s.1.endpointNameLen)).2
        endpointLocation := (mdns "location" v (s.1.endpointLocation, s.1.endpointLocLen)).1
        endpointLocLen := (mdns "location" v (s.1.endpointLocation, s.1.endpointLocLen)).2 }, s.2)),
    (nifKey, fun v s =>
      ({ s.1 with
        endpointInfo := (nif v (s.1.endpointInfo, s.1.endpointInfoLen)).1
        endpointInfoLen := (nif v (s.1.endpointInfo, s.1.endpointInfoLen)).2 }, s.2)),
    ("state", fun v s =>
      ({ s.1 with
        state := setString (fun str old =>
          if 4 ≤ str.length ∧ str.take 4 = ascii "DONE" then .probeDone else old) v s.1.state }, s.2)),
    ("endpointAggregation", fun v s =>
      ({ s.1 with
        endpointAgg := (aggregation v (s.1.endpointAgg, s.1.endpointAggrLen)).1
        endpointAggrLen := (aggregation v (s.1.endpointAgg, s.1.endpointAggrLen)).2 }, s.2))]

theorem epMember_eq {index : Nat} {nifKey : String}
    (hnif : nifKey = "endpointInfoFrames" ∨ nifKey = "supportedCCs") (key : String)
    (handler : Json → EpData × Bool → EpData × Bool) (h : (key, handler) ∈ epHandlers index nifKey)
    (v : Json) (s : EpData × Bool) : epMember index s (key, v) = handler v s := by
  simp only [epHandlers, List.mem_cons, List.not_mem_nil, or_false, Prod.mk.injEq] at h
  obtain ⟨rfl, rfl⟩ | ⟨rfl, rfl⟩ | ⟨rfl, rfl⟩ | ⟨rfl, rfl⟩ | ⟨rfl, rfl⟩ | ⟨rfl, rfl⟩ | ⟨rfl, rfl⟩ := h
  · cases v <;> rfl
  · cases v with
    | int n =>
      simp [epMember, findUint16Field, epIcons, setUint16]
      cases uint16SetFromIntval (clampInt32 n) <;> rfl
    | _ => rfl
  · cases v with
    | int n =>
      simp [epMember, findUint16Field, epIcons, setUint16]
      cases uint16SetFromIntval (clampInt32 n) <;> rfl
    | _ => rfl
  · cases v with
    | object ms => simp [epMember, zgwParseEpMdnsData_eq]
    | _ => rfl
  · obtain rfl | rfl := hnif
    · cases v with
      | object ms => simp [epMember, zgwParseEpNifs_eq]
      | _ => rfl
    · cases v with
      | object ms => simp [epMember, zgwParseEpNifs_eq]
      | _ => rfl
  · cases v with
    | string str =>
      by_cases hdone : 4 ≤ str.length ∧ str.take 4 = ascii "DONE"
      · simp [epMember, setString, hdone]
      · simp [epMember, setString, hdone]
    | _ => rfl
  · cases v with
    | string str =>
      simp [epMember, setString]
      split <;> rfl
    | _ => rfl

def classesOnce (ep : Json) : Bool :=
  (ep.get? "endpointInfoFrames").isNone || (ep.get? "supportedCCs").isNone

theorem epMember_other {index : Nat} {nifKey : String}
    (habsent : m.1 ∉ (epHandlers index nifKey).map Prod.fst) (hframes : m.1 ≠ "endpointInfoFrames")
    (hccs : m.1 ≠ "supportedCCs") (s : EpData × Bool) : epMember index s m = s := by
  obtain ⟨key, v⟩ := m
  simp only [epHandlers, List.map_cons, List.map_nil, List.mem_cons, List.not_mem_nil, or_false, not_or] at habsent
  cases v <;> simp_all [epMember, findUint16Field, epIcons]

theorem epHandlers_independent (index : Nat) (nifKey : String) : (epHandlers index nifKey).Pairwise Independent := by
  simp only [epHandlers, List.pairwise_cons, List.forall_mem_cons, List.not_mem_nil, false_imp_iff,
    implies_true, List.Pairwise.nil, and_true]
  and_intros <;> intro v w s <;> rfl

theorem epMember_congr (index : Nat) (s : EpData × Bool) (key : String) (v w : Json)
    (h : Reordered v w) : epMember index s (key, v) = epMember index s (key, w) := by
  cases h with
  | refl => rfl
  | array => rfl
  | object hperm hnodup hrel =>
    have hobject := Reordered.object hperm hnodup hrel
    simp only [epMember, zgwParseEpMdnsData_eq, zgwParseEpNifs_eq, mdnsPart_reordered hobject,
      nifPart_reordered hobject]

theorem ne_of_get?_none {key : String} (h : v.get? key = none) {m : Member} (hm : m ∈ v.members) : m.1 ≠ key := by
  rintro rfl
  have hnone := List.lookup_eq_none_iff.mp h m hm
  simp at hnone

theorem zgwParseZwnodeEp_reordered (h : Reordered v w) (honce : classesOnce v = true) (index : Nat) :
    zgwParseZwnodeEp w index = zgwParseZwnodeEp v index := by
  have hfold : w.members.foldl (epMember index) (EpData.init, false) =
      v.members.foldl (epMember index) (EpData.init, false) := by
    rw [classesOnce, Bool.or_eq_true, Option.isNone_iff_eq_none, Option.isNone_iff_eq_none] at honce
    obtain hnone | hnone := honce
    · refine foldl_dispatch_reordered (epHandlers index "supportedCCs")
        (fun handler hmem => epMember_eq (.inr rfl) handler.1 handler.2 hmem) h ?_
        (epHandlers_independent index _) (epMember_congr index) _
      intro m hm habsent s
      refine epMember_other m habsent (ne_of_get?_none hnone hm) ?_ s
      intro hkey
      simp [epHandlers, hkey] at habsent
    · refine foldl_dispatch_reordered (epHandlers index "endpointInfoFrames")
        (fun handler hmem => epMember_eq (.inl rfl) handler.1 handler.2 hmem) h ?_
        (epHandlers_independent index _) (epMember_congr index) _
      intro m hm habsent s
      refine epMember_other m habsent ?_ (ne_of_get?_none hnone hm) s
      intro hkey
      simp [epHandlers, hkey] at habsent
  unfold zgwParseZwnodeEp
  rw [hfold]

theorem endpointsLoop_reordered {xs ys : List Json} (h : List.Forall₂ Reordered xs ys)
    (honce : xs.all classesOnce = true) (ii : Nat) (s : EndpointLoop) :
    endpointsLoop ii ys s = endpointsLoop ii xs s := by
  induction h generalizing ii s with
  | nil => rfl
  | @cons x y _ _ hxy _ ih =>
    rw [List.all_cons, Bool.and_eq_true] at honce
    have hep := zgwParseZwnodeEp_reordered hxy honce.1 ii
    cases hxy with
    | refl => cases x <;> simp only [endpointsLoop, ih honce.2]
    | array => simp only [endpointsLoop, ih honce.2]
    | object => simp only [endpointsLoop, hep, ih honce.2]

theorem zgwParseZwnodeEndpoints_reordered {xs ys : List Json} (h : List.Forall₂ Reordered xs ys)
    (honce : xs.all classesOnce = true) (node : NodeZwData) :
    zgwParseZwnodeEndpoints ys node = zgwParseZwnodeEndpoints xs node := by
  unfold zgwParseZwnodeEndpoints
  rw [endpointsLoop_reordered h honce, h.length_eq]

end Endpoints

section Zwnode

def zwnodeHandlers : List (String × (Json → ZwnodeRead → ZwnodeRead)) :=
  let object {α : Type} (f : Json → α → α) (v : Json) (old : α) : α :=
    match v with
    | .object ms => f (.object ms) old
    | _ => old
  [("grantedKeys", fun v s =>
      { s with
        node :=
          { s.node with
            securityFlags :=
              match v with
              | .int n => (uint8SetFromIntval (clampInt32 n)).getD s.node.securityFlags
              | _ => s.node.securityFlags }
        foundKeys :=
          match v with
          | .int n => (uint8SetFromIntval (clampInt32 n)).isSome
          | _ => s.foundKeys }),
    ("nodeProdId", fun v s =>
      let r := object (fun v old => zgwParseZwnodeProdId v old.1) v (s.node.nodeProdId, s.foundProdId)
      { s with
        node := { s.node with nodeProdId := r.1 }
        foundProdId := r.2 }),
    ("probeState", fun v s =>
      let r := object (fun v old => zgwParseZwnodeProbeState v old.1) v (s.node.probeState, true)
      { s with
        node := { s.node with probeState := r.1 }
        keepNode := s.keepNode && r.2 }),
    ("zwNodeData", fun v s =>
      let r := object (fun v old => zgwParseZwnodeData v old.1) v (s.node.zwNodeData.nodeId, s.nodeId)
      { s with
        node := { s.node with zwNodeData := { s.node.zwNodeData with nodeId := r.1 } }
        nodeId := r.2 }),
    ("liveness", fun v s =>
      { s with node := { s.node with liveness := object zgwParseZwnodeLiveness v s.node.liveness } }),
    ("endpoints", fun v s =>
      { s with
        endpointArray :=
          match v with
          | .array items => if 0 < items.length then some items else s.endpointArray
          | _ => s.endpointArray }),
    ("mode", fun v s =>
      let r := setString (fun str old => zgwParseNodeMode str old.1) v (s.node.mode, true)
      { s with
        node := { s.node with mode := r.1 }
        keepNode := s.keepNode && r.2 }),
    ("nodeType", fun v s =>
      let r := setString (fun str old => zgwParseNodeType str old.1) v (s.node.zwNodeData.nodeType.basic, true)
      { s with
        node :=
          { s.node with
            zwNodeData :=
              { s.node.zwNodeData with nodeType := { s.node.zwNodeData.nodeType with basic := r.1 } } }
        keepNode := s.keepNode && r.2 })]

theorem zwnodeMember_eq (key : String) (handler : Json → ZwnodeRead → ZwnodeRead)
    (h : (key, handler) ∈ zwnodeHandlers) (v : Json) (s : ZwnodeRead) :
    zwnodeMember s (key, v) = handler v s := by
  simp only [zwnodeHandlers, List.mem_cons, List.not_mem_nil, or_false, Prod.mk.injEq] at h
  obtain ⟨rfl, rfl⟩ | ⟨rfl, rfl⟩ | ⟨rfl, rfl⟩ | ⟨rfl, rfl⟩ | ⟨rfl, rfl⟩ | ⟨rfl, rfl⟩ | ⟨rfl, rfl⟩ | ⟨rfl, rfl⟩ := h
  all_goals cases v <;> simp [zwnodeMember, setString]
  split <;> rfl

theorem zwnodeMember_other (habsent : m.1 ∉ zwnodeHandlers.map Prod.fst) (s : ZwnodeRead) : zwnodeMember s m = s := by
  obtain ⟨key, v⟩ := m
  simp only [zwnodeHandlers, List.map_cons, List.map_nil, List.mem_cons, List.not_mem_nil, or_false, not_or] at habsent
  cases v <;> simp_all [zwnodeMember]

theorem zwnodeHandlers_independent : zwnodeHandlers.Pairwise Independent := by
  simp only [zwnodeHandlers, List.pairwise_cons, List.forall_mem_cons, List.not_mem_nil, false_imp_iff,
    implies_true, List.Pairwise.nil, and_true]
  and_intros <;> intro v w s <;> first | rfl | simp only [Bool.and_right_comm]

structure SameRead (s t : ZwnodeRead) : Prop where
  eq : t = { s with endpointArray := t.endpointArray }
  array : Option.Rel (List.Forall₂ Reordered) s.endpointArray t.endpointArray
  once : ∀ items, s.endpointArray = some items → items.all classesOnce = true

theorem zwnodeMember_endpointArray (h : m.1 ≠ "endpoints") (s : ZwnodeRead)
    (array : Option (List Json)) : (zwnodeMember s m).endpointArray = s.endpointArray ∧
      zwnodeMember { s with endpointArray := array } m = { zwnodeMember s m with endpointArray := array } := by
  obtain ⟨key, v⟩ := m
  cases v <;> simp only [zwnodeMember]
  all_goals (repeat' split) <;> simp_all

theorem zwnodeMember_congr (s : ZwnodeRead) (w : Json) (h : Reordered m.2 w)
    (hkey : m.1 ≠ "endpoints") : zwnodeMember s (m.1, w) = zwnodeMember s m := by
  obtain ⟨key, v⟩ := m
  cases h with
  | refl => rfl
  | array =>
    have hkey : key ≠ "endpoints" := hkey
    simp [zwnodeMember, hkey]
  | object hperm hnodup hrel =>
    have hobject := Reordered.object hperm hnodup hrel
    simp only [zwnodeMember, zgwParseZwnodeProdId_reordered hobject,
      zgwParseZwnodeProbeState_reordered hobject, zwnodeDataMember_reordered hobject,
      zgwParseZwnodeLiveness_reordered hobject]

theorem SameRead.step {s t : ZwnodeRead} (h : SameRead s t) (key : String) {v w : Json}
    (honce : key = "endpoints" → v.items.all classesOnce = true) (hvw : Reordered v w) :
    SameRead (zwnodeMember s (key, v)) (zwnodeMember t (key, w)) := by
  by_cases hkey : key = "endpoints"
  · subst hkey
    have hitems := honce rfl
    have hread : ∀ (v : Json) (s : ZwnodeRead), zwnodeMember s ("endpoints", v) =
        { s with endpointArray := if 0 < v.items.length then some v.items else s.endpointArray } := by
      intro v s
      cases v with
      | array items =>
        by_cases hlength : 0 < items.length
        · simp [zwnodeMember, Json.items, hlength]
        · simp [zwnodeMember, Json.items, hlength]
      | _ => simp [zwnodeMember, Json.items]
    rw [hread, hread, hvw.items.length_eq]
    by_cases hlength : 0 < w.items.length
    · rw [if_pos hlength, if_pos hlength]
      refine ⟨?_, .some hvw.items, ?_⟩
      · rw [h.eq]
      · rintro items ⟨⟩
        exact hitems
    · rw [if_neg hlength, if_neg hlength]
      refine ⟨?_, h.array, h.once⟩
      rw [h.eq]
  · obtain ⟨hsame, hset⟩ := zwnodeMember_endpointArray (key, v) hkey s t.endpointArray
    have ht : zwnodeMember t (key, w) = { zwnodeMember s (key, v) with endpointArray := t.endpointArray } := by
      rw [zwnodeMember_congr (key, v) t w hvw hkey, h.eq]
      exact hset
    refine ⟨?_, ?_, ?_⟩
    · rw [ht]
    · rw [ht, hsame]
      exact h.array
    · rw [hsame]
      exact h.once

theorem identifyZwnode_endpointArray (s : ZwnodeRead) (uid : NodeUid) (ctrl : Option ZwController)
    (array : Option (List Json)) : (identifyZwnode s uid ctrl).endpointArray = s.endpointArray ∧
      identifyZwnode { s with endpointArray := array } uid ctrl =
        { identifyZwnode s uid ctrl with endpointArray := array } := by
  unfold identifyZwnode
  simp only
  (repeat' split) <;> simp_all

theorem importEndpoints_reordered {s t : ZwnodeRead} (h : SameRead s t) (myNodeId : UInt8) :
    importEndpoints t myNodeId = importEndpoints s myNodeId := by
  have harray := h.array
  have honce := h.once
  rw [h.eq]
  unfold importEndpoints
  simp only
  generalize s.endpointArray = o at harray honce
  generalize t.endpointArray = o' at harray
  cases harray with
  | none => rfl
  | some hitems => simp only [zgwParseZwnodeEndpoints_reordered hitems (honce _ rfl)]

theorem zgwParseZwnode_congr (h : Reordered v w)
    (honce : ∀ m ∈ v.members, m.1 = "endpoints" → m.2.items.all classesOnce = true) (node : NodeData)
    (ctrl : Option ZwController) (myNodeId : UInt8) :
    zgwParseZwnode w node ctrl myNodeId = zgwParseZwnode v node ctrl myNodeId := by
  have hread : SameRead (v.members.foldl zwnodeMember ⟨node.gwData, none, false, false, true, 0⟩)
      (w.members.foldl zwnodeMember ⟨node.gwData, none, false, false, true, 0⟩) := by
    refine foldl_reordered h ?_ ?_ honce ⟨rfl, .none, fun _ hnone => absurd hnone (by simp)⟩
    · intro a ha b hb hne s
      have hkey : ∀ handler ∈ zwnodeHandlers, ∀ v s, zwnodeMember s (handler.1, v) = handler.2 v s :=
        fun handler hmem => zwnodeMember_eq handler.1 handler.2 hmem
      simp only [eq_dispatch hkey (zwnodeMember_other _)]
      exact dispatch_comm zwnodeHandlers_independent a b hne s
    · intro s t key v w hok hst hvw
      exact hst.step key hok hvw
  unfold zgwParseZwnode
  simp only
  generalize v.members.foldl zwnodeMember ⟨node.gwData, none, false, false, true, 0⟩ = s at hread
  generalize w.members.foldl zwnodeMember ⟨node.gwData, none, false, false, true, 0⟩ = t at hread
  obtain ⟨hsame, hset⟩ := identifyZwnode_endpointArray s node.uid ctrl t.endpointArray
  have hidentified : SameRead (identifyZwnode s node.uid ctrl) (identifyZwnode t node.uid ctrl) := by
    rw [hread.eq, hset]
    refine ⟨rfl, ?_, ?_⟩
    · rw [hsame]
      exact hread.array
    · rw [hsame]
      exact hread.once
  rw [importEndpoints_reordered hidentified, hidentified.eq]

theorem zgwParseZwnode_reordered (h : Reordered v w)
    (honce : (((v.get? "endpoints").map Json.items).getD []).all classesOnce = true) (node : NodeData)
    (ctrl : Option ZwController) (myNodeId : UInt8) :
    zgwParseZwnode w node ctrl myNodeId = zgwParseZwnode v node ctrl myNodeId := by
  cases h with
  | refl => rfl
  | array => rfl
  | @object xs mid ys hperm hnodup hrel =>
    refine zgwParseZwnode_congr (.object hperm hnodup hrel) ?_ node ctrl myNodeId
    rintro ⟨key, value⟩ hmem rfl
    have hlookup : Json.get? "endpoints" (.object xs) = some value := (lookup_eq_some_iff hnodup).mpr hmem
    rw [hlookup] at honce
    exact honce

end Zwnode

section Nodes

theorem zgwParseNodeUid_reordered (h : Reordered v w) (node : NodeUid) (homeId : Bytes) :
    zgwParseNodeUid intOfString w node homeId = zgwParseNodeUid intOfString v node homeId := by
  unfold zgwParseNodeUid
  obtain ⟨hv, hw⟩ | ⟨x, y, hv, hw, hxy⟩ := h.get?_cases "uidType"
  · rw [hv, hw]
  · rw [hv, hw]
    simp only [hxy.str]
    congr 1
    · obtain ⟨hv, hw⟩ | ⟨d, e, hv, hw, hde⟩ := h.get?_cases "DSK"
      · rw [hv, hw]
      · rw [hv, hw]
        simp only [createDskFromJson_reordered hde]
    · obtain ⟨hv, hw⟩ | ⟨d, e, hv, hw, hde⟩ := h.get?_cases "homeId"
      · rw [hv, hw]
      · obtain ⟨hv', hw'⟩ | ⟨f, g, hv', hw', hfg⟩ := h.get?_cases "nodeId"
        · rw [hv, hw, hv', hw']
        · rw [hv, hw, hv', hw']
          simp only [homeidSetFromJson_reordered hde, jsonGetInt_reordered hfg]

theorem zgwParseNodeIpdata_reordered (h : Reordered v w) (node : NodeData) :
    zgwParseNodeIpdata w node = zgwParseNodeIpdata v node := by
  unfold zgwParseNodeIpdata
  obtain ⟨hv, hw⟩ | ⟨x, y, hv, hw, hxy⟩ := h.get?_cases "mDNSNodeName"
  · rw [hv, hw]
  · rw [hv, hw]
    simp only [stringCreateFromJson_reordered hxy, hxy.str]

def nodeEndpoints (node : Json) : List Json :=
  (((node.get? "zgwZWNodeData").bind (·.get? "endpoints")).map Json.items).getD []

theorem zgwParseNode_reordered (intOfString : Bytes → Int) (h : Reordered v w)
    (honce : (nodeEndpoints v).all classesOnce = true)
    (ctrl : Option ZwController) (homeId : Bytes) (myNodeId : UInt8) :
    zgwParseNode intOfString w ctrl homeId myNodeId = zgwParseNode intOfString v ctrl homeId myNodeId := by
  unfold zgwParseNode
  have hzgw : (w.get? "isZGW").map Json.getBoolean = (v.get? "isZGW").map Json.getBoolean := by
    obtain ⟨hv, hw⟩ | ⟨x, y, hv, hw, hxy⟩ := h.get?_cases "isZGW"
    · rw [hv, hw]
    · rw [hv, hw, Option.map_some, Option.map_some, hxy.getBoolean]
  obtain ⟨hv, hw⟩ | ⟨x, y, hv, hw, hxy⟩ := h.get?_cases "nodeUID"
  · rw [hv, hw]
  · rw [hv, hw]
    simp only [zgwParseNodeUid_reordered hxy, hzgw]
    obtain ⟨hv, hw⟩ | ⟨x, y, hv, hw, hxy⟩ := h.get?_cases "zgwZWNodeData"
    · rw [hv, hw]
    · have hitems : (((x.get? "endpoints").map Json.items).getD []).all classesOnce = true := by
        rw [nodeEndpoints, hv] at honce
        exact honce
      rw [hv, hw]
      simp only [zgwParseZwnode_reordered hxy hitems]
      obtain ⟨hv, hw⟩ | ⟨x, y, hv, hw, hxy⟩ := h.get?_cases "ipData"
      · rw [hv, hw]
      · rw [hv, hw]
        simp only [zgwParseNodeIpdata_reordered hxy]

end Nodes

end ZipGateway.Restore

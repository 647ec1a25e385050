import ZipGateway.Restore.Convert

/-!
# The JSON reader of the restore tool

`zgw_restore_parse_backup` and the parsers it calls. A parser that walks over the members of an object
is a fold in file order, one that asks for a member by its key is not. Each parser gives the structure
it fills in, as it is left, and its result. The name servers, the provisioning list and the controller
section are not imported by the source either. The tree and `zgwZWNodeData` are read as objects whatever
they are; a value that is no object has no members here.
-/

namespace ZipGateway.Restore

open JsonTree

variable (intOfString : Bytes → Int)

section Network

def zgwParseZwpanData (zwpan : Json) (keys : ZwSecurity) : ZwSecurity × Bool :=
  match zwpan.get? "zwSecurity" with
  | none => (keys, true)
  | some security =>
    let s0 := uint8ArraySetFromJson "S0key" security keys.securityNetkey 16
    let unauth := uint8ArraySetFromJson "S2UnauthenticatedKey" security keys.security2Key0 16
    let auth := uint8ArraySetFromJson "S2AuthenticatedKey" security keys.security2Key1 16
    let access := uint8ArraySetFromJson "S2AccessKey" security keys.security2Key2 16
    let ecdh := uint8ArraySetFromJson "ECDHPrivateKey" security keys.ecdhPrivKey 32
    let accessLr :=
      if (security.get? "S2AccessKeyLR").isSome then
        uint8ArraySetFromJson "S2AccessKeyLR" security keys.security2LrKey1 16
      else (keys.security2LrKey1, true)
    let authLr :=
      if (security.get? "S2AuthenticatedKeyLR").isSome then
        uint8ArraySetFromJson "S2AuthenticatedKeyLR" security keys.security2LrKey0 16
      else (keys.security2LrKey0, true)
    ({ securityNetkey := s0.1
       security2Key0 := unauth.1
       security2Key1 := auth.1
       security2Key2 := access.1
       ecdhPrivKey := ecdh.1
       security2LrKey1 := accessLr.1
       security2LrKey0 := authLr.1
       assignedKeys := keys.assignedKeys |||
         (if (security.get? "S2AccessKeyLR").isSome then keyClassS2AccessLr else 0) |||
         (if (security.get? "S2AuthenticatedKeyLR").isSome then keyClassS2AuthenticatedLr else 0) },
      s0.2 && unauth.2 && auth.2 && access.2 && ecdh.2 && accessLr.2 && authLr.2)

def lanPorts : List (String × (UInt16 → ZipLanIpData → ZipLanIpData)) :=
  [("ZipUnsolicitedDestinationPort", fun n lan => { lan with unsolPort1 := n }),
    ("ZipUnsolicitedDestination2Port", fun n lan => { lan with unsolPort2 := n })]

def lanMember (s : ZipLanIpData × Bool) (m : Member) : ZipLanIpData × Bool :=
  match m.2 with
  | .string str =>
    if m.1 = "ZipPSK" then
      let bytes := hexSetFromString 64 str
      ({ s.1 with zipPsk := overwrite s.1.zipPsk bytes }, s.2 && decide (16 ≤ bytes.length))
    else if m.1 = "ZipLanGw6" then
      ({ s.1 with cfgLanGwIp6Addr := uiplibIpaddrconv str s.1.cfgLanGwIp6Addr }, s.2)
    else if m.1 = "ZipLanIp6" then
      ({ s.1 with cfgLanAddr := uiplibIpaddrconv str s.1.cfgLanAddr }, s.2)
    else if m.1 = "ZipUnsolicitedDestinationIp6" then
      ({ s.1 with unsolDest1 := uiplibIpaddrconv str s.1.unsolDest1 }, s.2)
    else if m.1 = "ZipUnsolicitedDestination2Ip6" then
      ({ s.1 with unsolDest2 := uiplibIpaddrconv str s.1.unsolDest2 }, s.2)
    else if m.1 = "macAddress" then
      let bytes := hexSetFromString 6 str
      ({ s.1 with lladdr := overwrite s.1.lladdr bytes }, s.2 && decide (6 ≤ bytes.length))
    else s
  | .int n =>
    match findUint16Field (clampInt32 n) m.1 s.1 lanPorts with
    | some lan => (lan, s.2)
    | none => s
  | _ => s

def zgwParseLanData (lan : Json) (data : ZipLanIpData) : ZipLanIpData × Bool :=
  lan.members.foldl lanMember (data, true)

def virtualNodes : Nat → List Json → List NodeId → List NodeId × Bool
  | _, [], nodes => (nodes, true)
  | i, .int n :: items, nodes =>
    let nodes :=
      match nodeIdSetFromIntval (clampInt32 n) with
      | some node => nodes.set i node
      | none => nodes
    virtualNodes (i + 1) items nodes
  | i, _ :: items, nodes =>
    let r := virtualNodes (i + 1) items nodes
    (r.1, false)

def zgwParseTemporaryAssociationData (tempAssoc : Json) (data : TemporaryAssociationData) :
    TemporaryAssociationData × Bool :=
  match tempAssoc.get? "virtualNodeList" with
  | some (.array items) =>
    if 1 ≤ items.length ∧ items.length ≤ 4 then
      let r := virtualNodes 0 items data.virtualNodes
      (⟨UInt8.ofNat items.length, r.1⟩, r.2)
    else (data, false)
  | _ => (data, false)

end Network

section Node

def zgwParseNodeMode (str : Bytes) (mode : NodeMode) : NodeMode × Bool :=
  if str.length = 0 then (mode, false)
  else if strncmpEq str.length str (ascii "MODE_ALWAYSLISTENING") then (.alwaysListening, true)
  else if strncmpEq str.length str (ascii "MODE_FREQUENTLYLISTENING") then (.frequentlyListening, true)
  else if strncmpEq str.length str (ascii "MODE_NONLISTENING") then (.nonListening, true)
  else if strncmpEq str.length str (ascii "MODE_MAILBOX") then (.mailbox, true)
  else (mode, false)

def zgwParseNodeType (str : Bytes) (basic : UInt8) : UInt8 × Bool :=
  if str.length = 0 then (basic, false)
  else if strncmpEq str.length str (ascii "BASIC_TYPE_CONTROLLER") then (0x01, true)
  else if strncmpEq str.length str (ascii "BASIC_TYPE_STATIC_CONTROLLER") then (0x02, true)
  else if strncmpEq str.length str (ascii "BASIC_TYPE_SLAVE") then (0x03, true)
  else if strncmpEq str.length str (ascii "BASIC_TYPE_ROUTING_SLAVE") then (0x04, true)
  else (basic, false)

def zgwParseNodeUid (uid : Json) (node : NodeUid) (homeId : Bytes) : NodeUid × Bytes × Bool :=
  match uid.get? "uidType" with
  | none => (node, homeId, false)
  | some uidType =>
    let str := uidType.str
    if 3 ≤ str.length ∧ str.take 3 = ascii "DSK" then
      match uid.get? "DSK" with
      | none => (node, homeId, true)
      | some dsk =>
        match createDskFromJson dsk with
        | some bytes => (.dsk (UInt8.ofNat bytes.length) (some bytes), homeId, true)
        | none => (node, homeId, false)
    else if 6 ≤ str.length ∧ str.take 6 = (ascii "ZW Net ID").take 6 then
      match uid.get? "homeId", uid.get? "nodeId" with
      | some home, some id =>
        match nodeIdSetFromIntval (jsonGetInt intOfString id), homeidSetFromJson home with
        | some nodeId, some bytes =>
          if homeId = zeros 4 then (.netId bytes nodeId, bytes, true)
          else (.netId bytes nodeId, homeId, decide (homeId = bytes))
        | _, _ => (node, homeId, false)
      | _, _ => (node, homeId, false)
    else (node, homeId, false)

def zgwParseNodeIpdata (ipdata : Json) (node : NodeData) : NodeData :=
  match ipdata.get? "mDNSNodeName" with
  | none => node
  | some part =>
    { node with
      mDnsNodeName := stringCreateFromJson part
      mDnsNodeNameLen :=
        if part.str.length ≤ 255 then UInt8.ofNat part.str.length else node.mDnsNodeNameLen }

def prodIdFields : List (String × (UInt16 → ProductId → ProductId)) :=
  [("manufacturerId", fun n p => { p with manufacturerId := n }),
    ("productType", fun n p => { p with productType := n }),
    ("productId", fun n p => { p with productId := n })]

def prodIdMember (s : ProductId × Bool) (m : Member) : ProductId × Bool :=
  match m.2 with
  | .int n =>
    match findUint16Field (clampInt32 n) m.1 s.1 prodIdFields with
    | some prodId => (prodId, s.2)
    | none => (s.1, false)
  | _ => s

def zgwParseZwnodeProdId (node : Json) (prodId : ProductId) : ProductId × Bool :=
  node.members.foldl prodIdMember (prodId, decide (node.members.length = 3))

def zgwParseCcVersions : List Json → List (UInt16 × UInt8) → List (UInt16 × UInt8)
  | [], versions => versions
  | ccVers :: items, versions =>
    match ccVers with
    | .object _ =>
      match uint8SetFromJson (ccVers.get? "version"), uint16SetFromJson (ccVers.get? "commandClassId") with
      | some version, some cc => zgwParseCcVersions items (ccVersionSet cc version versions).1
      | _, _ => zgwParseCcVersions items versions
    | _ => zgwParseCcVersions items versions

def probeStateMember (s : ProbeState × Bool) (m : Member) : ProbeState × Bool :=
  match m.2 with
  | .string str =>
    if m.1 = "state" then
      if strcmpEq str (ascii "DONE") then
        ({ s.1 with
          state := .doNotInterview
          interviewState := .doNotInterview
          probeFlags := rdNodeFlagProbeHasCompleted }, s.2)
      else if strcmpEq str (ascii "RE-INTERVIEW") then
        ({ s.1 with
          state := .interview
          interviewState := .interview
          probeFlags := rdNodeProbeNeverStarted }, s.2)
      else (s.1, false)
    else if m.1 = "ZWplusRoleType" then
      if strcmpEq str (ascii "portableSlave") then
        ({ s.1 with nodePropertiesFlags := s.1.nodePropertiesFlags ||| rdNodeFlagPortable }, s.2)
      else s
    else if m.1 = "versionCap" then
      ({ s.1 with
        nodeVersionCapAndZwaveSw := (hexSetFromString 1 str).headD s.1.nodeVersionCapAndZwaveSw }, s.2)
    else s
  | .int n =>
    if m.1 = "versionCap" then
      ({ s.1 with
        nodeVersionCapAndZwaveSw :=
          (uint8SetFromIntval (clampInt32 n)).getD s.1.nodeVersionCapAndZwaveSw }, s.2)
    else s
  | .array items =>
    if m.1 = "ccVersions" then
      ({ s.1 with nodeCcVersions := zgwParseCcVersions items s.1.nodeCcVersions }, s.2)
    else s
  | .bool b => if m.1 = "isZwsProbed" then ({ s.1 with nodeIsZwsProbed := b }, s.2) else s
  | _ => s

def zgwParseZwnodeProbeState (node : Json) (probeState : ProbeState) : ProbeState × Bool :=
  node.members.foldl probeStateMember (probeState, true)

def zwnodeDataMember (s : NodeId × NodeId) (m : Member) : NodeId × NodeId :=
  match m.2 with
  | .int n =>
    if m.1 = "nodeId" then
      match nodeIdSetFromIntval (clampInt32 n) with
      | some nodeId => (nodeId, nodeId)
      | none => (s.1, 0)
    else s
  | _ => s

def zgwParseZwnodeData (obj : Json) (nodeId : NodeId) : NodeId × NodeId :=
  obj.members.foldl zwnodeDataMember (nodeId, 0)

def zgwParseZwnodeLiveness (obj : Json) (liveness : Liveness) : Liveness where
  livenessState :=
    match obj.get? "livenessState" with
    | some (.int n) => if n = 15 then .failing else .ok
    | some (.string str) =>
      if strcmpEq str (ascii "OK") then .ok
      else if strcmpEq str (ascii "FAILING") then .failing
      else liveness.livenessState
    | _ => liveness.livenessState
  wakeUpInterval :=
    match obj.get? "wakeupInterval" with
    | some (.int n) => (uint32SetFromIntval n).getD liveness.wakeUpInterval
    | _ => liveness.wakeUpInterval

end Node

section Endpoint

/-- `zgw_parse_ep_mDNS_data`; its result is not looked at. -/
def zgwParseEpMdnsData (epPart : Json) (ep : EpData) : EpData :=
  let ep :=
    match epPart.get? "name" with
    | none => ep
    | some part =>
      if part.str.length ≤ 255 then
        { ep with
          endpointName := stringCreateFromJson part
          endpointNameLen := UInt8.ofNat part.str.length }
      else { ep with endpointName := none }
  match epPart.get? "location" with
  | none => ep
  | some part =>
    if part.str.length ≤ 255 then
      { ep with
        endpointLocation := stringCreateFromJson part
        endpointLocLen := UInt8.ofNat part.str.length }
    else { ep with endpointLocation := none }

/-- `zgw_parse_ep_nifs`; its result is not looked at. -/
def zgwParseEpNifs (epPart : Json) (index : Nat) (ep : EpData) : EpData :=
  let nif := ((epPart.get? "nonSecureNIF").map hexCreateFromJson).getD []
  if nif = [] then ep
  else
    let secNif := ((epPart.get? "secureNIF").map hexCreateFromJson).getD []
    let nodeInfo := nif ++ (if index = 0 then [commandClassZipNaming, commandClassZip] else []) ++
      (if secNif = [] then [] else securityScheme0Mark ++ secNif)
    { ep with
      endpointInfo := some nodeInfo
      endpointInfoLen := UInt8.ofNat nodeInfo.length }

def epIcons : List (String × (UInt16 → EpData → EpData)) :=
  [("installerIcon", fun n ep => { ep with installerIconId := n }),
    ("userIcon", fun n ep => { ep with userIconId := n })]

def epMember (index : Nat) (s : EpData × Bool) (m : Member) : EpData × Bool :=
  match m.2 with
  | .int n =>
    if m.1 = "endpointId" then
      let id := uint8SetFromIntval (clampInt32 n)
      ({ s.1 with
        endpointId := id.getD s.1.endpointId
        endpointIdFromJson := true }, id.isSome)
    else
      match findUint16Field (clampInt32 n) m.1 s.1 epIcons with
      | some ep => (ep, s.2)
      | none => s
  | .object members =>
    if m.1 = "epMDNSData" then (zgwParseEpMdnsData (.object members) s.1, s.2)
    else if m.1 = "endpointInfoFrames" then (zgwParseEpNifs (.object members) index s.1, s.2)
    else if m.1 = "supportedCCs" then (zgwParseEpNifs (.object members) index s.1, s.2)
    else s
  | .string str =>
    if m.1 = "state" then
      if 4 ≤ str.length ∧ str.take 4 = ascii "DONE" then ({ s.1 with state := .probeDone }, s.2) else s
    else if m.1 = "endpointAggregation" then
      if 2 ≤ str.length then
        let bytes := hexSetFromString (str.length / 2) str
        let len := UInt8.ofNat bytes.length
        ({ s.1 with
          endpointAgg := if len = 0 then none else some bytes
          endpointAggrLen := len }, s.2)
      else s
    else s
  | _ => s

def zgwParseZwnodeEp (ep : Json) (index : Nat) : Option EpData :=
  let r := ep.members.foldl (epMember index) (.init, false)
  if r.2 then
    if r.1.endpointId.toNat = index then some r.1 else none
  else some { r.1 with endpointId := UInt8.ofNat index }

/-- What `zgw_parse_zwnode_endpoints` carries from endpoint to endpoint: the node, the index of the
first aggregated endpoint, and `keep_ep`, which once false stays false. -/
structure EndpointLoop where
  node : NodeZwData
  aggrIndex : Nat
  keepEp : Bool

def checkEndpoint (ii : Nat) (ep : EpData) (s : EndpointLoop) : EndpointLoop :=
  if s.aggrIndex ≤ ii then
    if ep.endpointAggrLen = 0 then { s with keepEp := false }
    else { s with node := { s.node with nAggEndpoints := s.node.nAggEndpoints + 1 } }
  else if 0 < ep.endpointAggrLen then
    { s with
      node := { s.node with nAggEndpoints := s.node.nAggEndpoints + 1 }
      aggrIndex := ii }
  else if ep.endpointInfoLen = 0 ∧ s.node.probeState.interviewState = .doNotInterview then
    if s.node.probeState.nodePropertiesFlags &&& rdNodeFlagAddedByMe ≠ 0 then
      { s with
        node := { s.node with probeState := { s.node.probeState with interviewState := .interview } } }
    else { s with keepEp := false }
  else s

def endpointsLoop : Nat → List Json → EndpointLoop → EndpointLoop
  | _, [], s => s
  | ii, item :: items, s =>
    match item with
    | .object members =>
      match zgwParseZwnodeEp (.object members) ii with
      | none => endpointsLoop (ii + 1) items s
      | some ep =>
        let s := checkEndpoint ii ep s
        endpointsLoop (ii + 1) items <|
          if s.keepEp then
            { s with
              node :=
                { s.node with
                  endpoints := s.node.endpoints ++ [ep]
                  nEndpoints := s.node.nEndpoints + 1 } }
          else s
    | _ => endpointsLoop (ii + 1) items s

def zgwParseZwnodeEndpoints (epArray : List Json) (node : NodeZwData) : NodeZwData × Bool :=
  let s := endpointsLoop 0 epArray ⟨node, zwMaxNodes, true⟩
  (s.node, decide (s.node.nEndpoints.toNat = epArray.length))

def resetEndpoints : List EpData → List EpData
  | [] => []
  | [ep] => [{ ep with state := .probeInfo }]
  | ep :: next :: eps => { ep with state := .probeInfo } :: next :: resetEndpoints eps

end Endpoint

section Zwnode

structure ZwnodeRead where
  node : NodeZwData
  endpointArray : Option (List Json)
  foundProdId : Bool
  foundKeys : Bool
  keepNode : Bool
  nodeId : NodeId

def zwnodeMember (s : ZwnodeRead) (m : Member) : ZwnodeRead :=
  match m.2 with
  | .int n =>
    if m.1 = "grantedKeys" then
      let keys := uint8SetFromIntval (clampInt32 n)
      { s with
        node := { s.node with securityFlags := keys.getD s.node.securityFlags }
        foundKeys := keys.isSome }
    else s
  | .object members =>
    if m.1 = "nodeProdId" then
      let r := zgwParseZwnodeProdId (.object members) s.node.nodeProdId
      { s with
        node := { s.node with nodeProdId := r.1 }
        foundProdId := r.2 }
    else if m.1 = "probeState" then
      let r := zgwParseZwnodeProbeState (.object members) s.node.probeState
      { s with
        node := { s.node with probeState := r.1 }
        keepNode := s.keepNode && r.2 }
    else if m.1 = "zwNodeData" then
      let r := zgwParseZwnodeData (.object members) s.node.zwNodeData.nodeId
      { s with
        node := { s.node with zwNodeData := { s.node.zwNodeData with nodeId := r.1 } }
        nodeId := r.2 }
    else if m.1 = "liveness" then
      { s with
        node := { s.node with liveness := zgwParseZwnodeLiveness (.object members) s.node.liveness } }
    else s
  | .array items =>
    if 0 < items.length ∧ m.1 = "endpoints" then { s with endpointArray := some items } else s
  | .string str =>
    if m.1 = "mode" then
      let r := zgwParseNodeMode str s.node.mode
      { s with
        node := { s.node with mode := r.1 }
        keepNode := s.keepNode && r.2 }
    else if m.1 = "nodeType" then
      let r := zgwParseNodeType str s.node.zwNodeData.nodeType.basic
      { s with
        node :=
          { s.node with
            zwNodeData :=
              { s.node.zwNodeData with nodeType := { s.node.zwNodeData.nodeType with basic := r.1 } } }
        keepNode := s.keepNode && r.2 }
    else s
  | _ => s

structure ZwnodeResult where
  node : NodeZwData
  assignedKeys : Option UInt8
  keepNode : Bool

def identifyZwnode (s : ZwnodeRead) (uid : NodeUid) (ctrl : Option ZwController) : ZwnodeRead :=
  let uidId : Option NodeId :=
    match uid with
    | .netId _ nodeId => some nodeId
    | .dsk _ _ => none
  let nodeId := if s.nodeId = 0 then uidId.getD 0 else s.nodeId
  if nodeId = 0 then { s with nodeId := nodeId, keepNode := false }
  else
    let keepNode := s.keepNode && (uidId.all fun id => id = nodeId)
    match ctrl with
    | none => { s with nodeId := nodeId, keepNode := keepNode }
    | some ctrl =>
      match ctrl.includedNodes (nodeId.toNat - 1) with
      | none => { s with nodeId := 0, keepNode := false }
      | some zwNodeData =>
        { s with
          node := { s.node with zwNodeData := zwNodeData }
          nodeId := nodeId
          keepNode := keepNode }

def importEndpoints (s : ZwnodeRead) (myNodeId : UInt8) : ZwnodeResult :=
  match s.endpointArray with
  | some epArray =>
    let r := zgwParseZwnodeEndpoints epArray { s.node with nAggEndpoints := 0 }
    if r.2 ∧ s.nodeId.toNat = myNodeId.toNat then
      ⟨r.1, some (nodeFlags2keystoreFlags r.1.securityFlags), decide (r.1.nEndpoints ≤ 1)⟩
    else ⟨r.1, none, r.2⟩
  | none =>
    if s.nodeId.toNat ≠ myNodeId.toNat then ⟨s.node, none, false⟩
    else ⟨s.node, some (nodeFlags2keystoreFlags s.node.securityFlags), true⟩

def finishGateway (node : NodeZwData) : NodeZwData × Bool :=
  let node :=
    if node.nEndpoints = 0 then
      { node with
        endpoints := node.endpoints ++ [{ EpData.init with state := .probeDone }]
        nEndpoints := 1 }
    else node
  match node.endpoints with
  | ep :: eps =>
    if ep.endpointId = 0 then
      ({ node with
        endpoints := { ep with
          userIconId := iconTypeGenericGateway
          installerIconId := iconTypeGenericGateway } :: eps }, true)
    else (node, false)
  | [] => (node, false)

def finishNetworkNode (node : NodeZwData) (foundKeys foundProdId : Bool) : NodeZwData × Bool :=
  let probeState :=
    if foundKeys then
      { node.probeState with
        nodePropertiesFlags := node.probeState.nodePropertiesFlags ||| rdNodeFlagAddedByMe }
    else { node.probeState with interviewState := .interview }
  match probeState.interviewState with
  | .interview =>
    ({ node with
      probeState := { probeState with probeFlags := rdNodeProbeNeverStarted }
      endpoints := resetEndpoints node.endpoints }, true)
  | .doNotInterview =>
    ({ node with probeState := { probeState with probeFlags := rdNodeFlagProbeHasCompleted } },
      node.nEndpoints ≠ 0 && foundProdId &&
        !(probeState.nodeIsZwsProbed && probeState.nodeVersionCapAndZwaveSw &&& 0x03 ≠ 0x03))
  | .unknown => ({ node with probeState := probeState }, false)

def zgwParseZwnode (zwnode : Json) (node : NodeData) (ctrl : Option ZwController) (myNodeId : UInt8) :
    ZwnodeResult :=
  let read := zwnode.members.foldl zwnodeMember ⟨node.gwData, none, false, false, true, 0⟩
  let s := identifyZwnode read node.uid ctrl
  if s.keepNode then
    let r := importEndpoints s myNodeId
    if r.keepNode then
      let f :=
        if s.nodeId.toNat = myNodeId.toNat then finishGateway r.node
        else finishNetworkNode r.node s.foundKeys s.foundProdId
      ⟨f.1, r.assignedKeys, f.2⟩
    else r
  else ⟨s.node, none, false⟩

end Zwnode

section Backup

structure NodeResult where
  node : Option NodeData
  assignedKeys : Option UInt8
  homeId : Bytes
  myNodeId : UInt8

def zgwParseNode (json : Json) (ctrl : Option ZwController) (homeId : Bytes) (myNodeId : UInt8) :
    NodeResult :=
  match json.get? "nodeUID" with
  | none => ⟨none, none, homeId, myNodeId⟩
  | some uidJson =>
    match zgwParseNodeUid intOfString uidJson NodeData.init.uid homeId with
    | (_, homeId, false) => ⟨none, none, homeId, myNodeId⟩
    | (uid, homeId, true) =>
      let myNodeId :=
        if ctrl.isNone ∧ ((json.get? "isZGW").map Json.getBoolean).getD false = true then
          UInt8.ofNat uid.nodeId.toNat
        else myNodeId
      let node : NodeData := { NodeData.init with uid := uid }
      let node : NodeData :=
        if ctrl.isNone then
          { node with
            gwData :=
              { node.gwData with zwNodeData := { node.gwData.zwNodeData with nodeId := uid.nodeId } } }
        else node
      match json.get? "zgwZWNodeData" with
      | none => ⟨none, none, homeId, myNodeId⟩
      | some zwnode =>
        let r := zgwParseZwnode zwnode node ctrl myNodeId
        if r.keepNode then
          let node := { node with gwData := r.node }
          let node :=
            match json.get? "ipData" with
            | none => node
            | some ipdata => zgwParseNodeIpdata ipdata node
          ⟨some node, r.assignedKeys, homeId, myNodeId⟩
        else ⟨none, r.assignedKeys, homeId, myNodeId⟩

def parseNodeItem (ctrl : Option ZwController) (w : World) (json : Json) : World :=
  match json with
  | .object _ =>
    let r := zgwParseNode intOfString json ctrl w.homeId w.myNodeId
    let zwNodes :=
      match r.node with
      | some node => (zgwNodeDataPointerAdd node.gwData.zwNodeData.nodeId node w.backup.zwNodes).1
      | none => w.backup.zwNodes
    { backup :=
        { w.backup with
          zwNodes := zwNodes
          securityKeys :=
            { w.backup.securityKeys with
              assignedKeys := r.assignedKeys.getD w.backup.securityKeys.assignedKeys } }
      homeId := r.homeId
      myNodeId := r.myNodeId }
  | _ => w

/-- The gateway's own node is among the imported ones; without a controller this is not asked. -/
def hasGateway (ctrl : Option ZwController) (w : World) : Bool :=
  ctrl.isNone || (w.backup.zwNodes w.myNodeId.toUInt16).isSome

def zgwParseNodes (nodes : List Json) (ctrl : Option ZwController) (w : World) : World × Bool :=
  let w := nodes.foldl (parseNodeItem intOfString ctrl) w
  (w, hasGateway ctrl w)

def zgwMember (ctrl : Option ZwController) (s : World × Bool) (m : Member) : World × Bool :=
  match m.2 with
  | .array nodes =>
    if m.1 = "nodeList" then
      let r := zgwParseNodes intOfString nodes ctrl s.1
      (r.1, s.2 && r.2)
    else s
  | .object members =>
    if m.1 = "zipLanData" then
      let r := zgwParseLanData (.object members) s.1.backup.zipLanData
      ({ s.1 with backup := { s.1.backup with zipLanData := r.1 } }, s.2 && r.2)
    else if m.1 = "zwNetworkData" then
      let r := zgwParseZwpanData (.object members) s.1.backup.securityKeys
      ({ s.1 with backup := { s.1.backup with securityKeys := r.1 } }, s.2 && r.2)
    else if m.1 = "zgwTemporaryAssociationData" then
      let r := zgwParseTemporaryAssociationData (.object members) s.1.backup.temporaryAssociationData
      ({ s.1 with backup := { s.1.backup with temporaryAssociationData := r.1 } }, s.2 && r.2)
    else s
  | _ => s

def zgwParseZgw (zgw : Json) (ctrl : Option ZwController) (w : World) : World × Bool :=
  let s := zgw.members.foldl (zgwMember intOfString ctrl) (w, true)
  (s.1, s.2 && hasGateway ctrl s.1)

def metadataMember (manifest : Manifest) (m : Member) : Manifest :=
  match m.2 with
  | .int n =>
    if m.1 = "versionMajor" then { manifest with backupVersionMajor := UInt8.ofInt n }
    else if m.1 = "versionMinor" then { manifest with backupVersionMinor := UInt8.ofInt n }
    else if m.1 = "timestamp" then { manifest with backupTimestamp := UInt32.ofInt n }
    else manifest
  | _ => manifest

def zgwrParseMetadata (obj : Json) : Manifest :=
  obj.members.foldl metadataMember .zero

def backupMember (ctrl : Option ZwController) (s : World × Bool) (m : Member) : World × Bool :=
  match m.2 with
  | .object members =>
    if m.1 = "ZGWBackupInfo" then
      ({ s.1 with backup := { s.1.backup with manifest := zgwrParseMetadata (.object members) } }, s.2)
    else if m.1 = "zgw" then
      let r := zgwParseZgw intOfString (.object members) ctrl s.1
      (r.1, s.2 && r.2)
    else s
  | _ => s

def zgwRestoreParseBackup (zgwBackup : Json) (ctrl : Option ZwController) (homeId : Bytes)
    (myNodeId : UInt8) : World × Bool :=
  let backup :=
    match ctrl with
    | some ctrl => zwControllerAdd ctrl .zero
    | none => .zero
  zgwBackup.members.foldl (backupMember intOfString ctrl) (⟨backup, homeId, myNodeId⟩, true)

end Backup

end ZipGateway.Restore

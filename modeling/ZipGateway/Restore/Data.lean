import ZipGateway.Nodemask

/-!
# The backup data of the restore tool

The structures of `zgw_data.h` that the JSON reader fills in, with the defaults of `zgw_data.c`. A home
id is its four bytes in memory. Memory for a node is always to be had.
-/

namespace ZipGateway.Restore

def zwMaxNodes : Nat := 4000

def keyClassS0 : UInt8 := 0x80
def keyClassS2Unauthenticated : UInt8 := 0x01
def keyClassS2Authenticated : UInt8 := 0x02
def keyClassS2Access : UInt8 := 0x04
def keyClassS2AuthenticatedLr : UInt8 := 0x08
def keyClassS2AccessLr : UInt8 := 0x10

def nodeFlagSecurity0 : UInt8 := 0x01
def nodeFlagSecurity2Unauthenticated : UInt8 := 0x10
def nodeFlagSecurity2Authenticated : UInt8 := 0x20
def nodeFlagSecurity2Access : UInt8 := 0x40

def rdNodeFlagPortable : UInt16 := 0x01
def rdNodeFlagAddedByMe : UInt16 := 0x04

def rdNodeProbeNeverStarted : UInt16 := 0x00
def rdNodeFlagProbeHasCompleted : UInt16 := 0x03

def iconTypeUnassigned : UInt16 := 0x0000
def iconTypeGenericGateway : UInt16 := 0x0500

def commandClassZip : UInt8 := 0x23
def commandClassZipNaming : UInt8 := 0x68

def securityScheme0Mark : Bytes := [0xF1, 0x00]

def defaultWakeUpInterval : UInt32 := 70 * 60

def controlledCcV : List (UInt16 × UInt8) :=
  [(0x86, 0), (0x5E, 0), (0x72, 0), (0x84, 0), (0x60, 0), (0x85, 0), (0x8E, 0), (0xFFFF, 0xFF)]

inductive NodeInterview where
  | interview
  | doNotInterview
  | unknown
deriving DecidableEq, Repr

/-- The states of `rd_ep_state_t` that the reader sets. -/
inductive EpState where
  | probeInfo
  | probeDone
deriving DecidableEq, Repr

inductive NodeLiveness where
  | ok
  | failing
deriving DecidableEq, Repr

inductive NodeMode where
  | probing
  | nonListening
  | alwaysListening
  | frequentlyListening
  | mailbox
deriving DecidableEq, Repr

structure NodeType where
  basic : UInt8
  generic : UInt8
  specific : UInt8
deriving DecidableEq

structure ZwNodeData where
  nodeId : NodeId
  capability : UInt8
  security : UInt8
  nodeType : NodeType
deriving DecidableEq

structure EpData where
  endpointName : Option Bytes
  endpointNameLen : UInt8
  endpointLocation : Option Bytes
  endpointLocLen : UInt8
  endpointInfoLen : UInt8
  endpointAggrLen : UInt8
  endpointId : UInt8
  endpointIdFromJson : Bool
  state : EpState
  installerIconId : UInt16
  userIconId : UInt16
  endpointInfo : Option Bytes
  endpointAgg : Option Bytes
deriving DecidableEq

def EpData.init : EpData where
  endpointName := none
  endpointNameLen := 0
  endpointLocation := none
  endpointLocLen := 0
  endpointInfoLen := 0
  endpointAggrLen := 0
  endpointId := 0
  endpointIdFromJson := false
  state := .probeInfo
  installerIconId := iconTypeUnassigned
  userIconId := iconTypeUnassigned
  endpointInfo := none
  endpointAgg := none

structure Liveness where
  livenessState : NodeLiveness
  wakeUpInterval : UInt32
deriving DecidableEq

structure ProbeState where
  state : NodeInterview
  interviewState : NodeInterview
  nodeVersionCapAndZwaveSw : UInt8
  nodeIsZwsProbed : Bool
  probeFlags : UInt16
  nodePropertiesFlags : UInt16
  nodeCcVersions : List (UInt16 × UInt8)
deriving DecidableEq

structure ProductId where
  manufacturerId : UInt16
  productType : UInt16
  productId : UInt16
deriving DecidableEq

structure NodeZwData where
  liveness : Liveness
  zwNodeData : ZwNodeData
  probeState : ProbeState
  nodeProdId : ProductId
  securityFlags : UInt8
  nEndpoints : UInt8
  nAggEndpoints : UInt8
  mode : NodeMode
  endpoints : List EpData
deriving DecidableEq

/-- `zgw_node_zw_data_set_default`, on memory that is zero. -/
def NodeZwData.init : NodeZwData where
  liveness := ⟨.ok, defaultWakeUpInterval⟩
  zwNodeData := ⟨0, 0, 0, ⟨0, 0, 0⟩⟩
  probeState :=
    { state := .interview
      interviewState := .interview
      nodeVersionCapAndZwaveSw := 0
      nodeIsZwsProbed := false
      probeFlags := rdNodeProbeNeverStarted
      nodePropertiesFlags := 0
      nodeCcVersions := controlledCcV }
  nodeProdId := ⟨0, 0, 0⟩
  securityFlags := 0
  nEndpoints := 0
  nAggEndpoints := 0
  mode := .probing
  endpoints := []

inductive NodeUid where
  | dsk (dskLen : UInt8) (dsk : Option Bytes)
  | netId (homeId : Bytes) (nodeId : NodeId)
deriving DecidableEq

/-- `net_uid.node_id`; in a DSK uid it lies between the fields, in memory that is zero. -/
def NodeUid.nodeId : NodeUid → NodeId
  | .dsk _ _ => 0
  | .netId _ nodeId => nodeId

structure NodeData where
  uid : NodeUid
  gwData : NodeZwData
  mDnsNodeNameLen : UInt8
  mDnsNodeName : Option Bytes
deriving DecidableEq

def NodeData.init : NodeData :=
  ⟨.dsk 0 none, .init, 0, none⟩

def zeros (n : Nat) : Bytes := List.replicate n 0

structure ZipLanIpData where
  cfgLanGwIp6Addr : Bytes
  cfgLanAddr : Bytes
  lladdr : Bytes
  unsolDest1 : Bytes
  unsolPort1 : UInt16
  unsolDest2 : Bytes
  unsolPort2 : UInt16
  zipPsk : Bytes

structure ZwSecurity where
  securityNetkey : Bytes
  assignedKeys : UInt8
  security2Key0 : Bytes
  security2Key1 : Bytes
  security2Key2 : Bytes
  security2LrKey0 : Bytes
  security2LrKey1 : Bytes
  ecdhPrivKey : Bytes

structure TemporaryAssociationData where
  virtualNodesCount : UInt8
  virtualNodes : List NodeId

structure Manifest where
  backupVersionMajor : UInt8
  backupVersionMinor : UInt8
  backupTimestamp : UInt32

def Manifest.zero : Manifest := ⟨0, 0, 0⟩

structure ZwController where
  sucId : UInt8
  ccList : Option Bytes
  includedNodes : Nat → Option ZwNodeData

structure BackupData where
  manifest : Manifest
  controller : ZwController
  zwNodes : NodeId → Option NodeData
  zipLanData : ZipLanIpData
  securityKeys : ZwSecurity
  temporaryAssociationData : TemporaryAssociationData

/-- `zgw_data_reset`. -/
def BackupData.zero : BackupData where
  manifest := .zero
  controller := ⟨0, none, fun _ => none⟩
  zwNodes := fun _ => none
  zipLanData := ⟨zeros 16, zeros 16, zeros 6, zeros 16, 0, zeros 16, 0, zeros 64⟩
  securityKeys := ⟨zeros 16, 0, zeros 16, zeros 16, zeros 16, zeros 16, zeros 16, zeros 32⟩
  temporaryAssociationData := ⟨0, [0, 0, 0, 0]⟩

/-- What the reader works on: `backup_rep`, `homeID` and `MyNodeID`. -/
structure World where
  backup : BackupData
  homeId : Bytes
  myNodeId : UInt8

def nodeFlags2keystoreFlags (gwFlags : UInt8) : UInt8 :=
  (if gwFlags &&& nodeFlagSecurity0 ≠ 0 then keyClassS0 else 0) |||
  (if gwFlags &&& nodeFlagSecurity2Access ≠ 0 then keyClassS2Access else 0) |||
  (if gwFlags &&& nodeFlagSecurity2Authenticated ≠ 0 then keyClassS2Authenticated else 0) |||
  (if gwFlags &&& nodeFlagSecurity2Unauthenticated ≠ 0 then keyClassS2Unauthenticated else 0)

def ccVersionSet (cc : UInt16) (nodeVersion : UInt8) : List (UInt16 × UInt8) → List (UInt16 × UInt8) × UInt8
  | [] => ([], 0)
  | (commandClass, version) :: versions =>
    if commandClass = cc then
      if version = 0 then ((commandClass, nodeVersion) :: versions, nodeVersion)
      else ((commandClass, version) :: versions, nodeVersion)
    else
      let r := ccVersionSet cc nodeVersion versions
      ((commandClass, version) :: r.1, r.2)

def zgwNodeDataPointerAdd (nodeId : NodeId) (nodeData : NodeData)
    (zwNodes : NodeId → Option NodeData) : (NodeId → Option NodeData) × Bool :=
  if nodeId.toNat ≤ zwMaxNodes then
    if zwNodes nodeId = none then (Function.update zwNodes nodeId (some nodeData), true)
    else (zwNodes, false)
  else (zwNodes, false)

def zwControllerAdd (ctrl : ZwController) (backup : BackupData) : BackupData :=
  { backup with controller := ⟨ctrl.sucId, ctrl.ccList, fun _ => none⟩ }

end ZipGateway.Restore

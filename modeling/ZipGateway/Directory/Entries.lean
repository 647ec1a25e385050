import ZipGateway.Nodemask

/-!
# Entries of the resource directory

What `RD_internal.h` says about a node and about an endpoint of it.
-/

namespace ZipGateway.Directory

inductive NodeState where
  | created
  | probeNodeInfo
  | probeProductId
  | enumerateEndpoints
  | findEndpoints
  | checkWuCcVersion
  | getWuCap
  | setWakeUpInterval
  | assignReturnRoute
  | probeWakeUpInterval
  | probeEndpoints
  | mdnsProbe
  | mdnsEpProbe
  | done
  | probeFail
  | failing
deriving DecidableEq, Repr

/-- `rd_ep_state_t`, in the order of the source, which has the probe of the versions last. -/
inductive EpState where
  | probeAggregatedEndpoints
  | probeInfo
  | probeSec2C2Info
  | probeSec2C1Info
  | probeSec2C0Info
  | probeSec0Info
  | probeZwavePlus
  | mdnsProbe
  | mdnsProbeInProgress
  | probeDone
  | probeFail
  | probeVersion
deriving DecidableEq, Repr

def NodeState.all : List NodeState :=
  [.created, .probeNodeInfo, .probeProductId, .enumerateEndpoints, .findEndpoints, .checkWuCcVersion,
    .getWuCap, .setWakeUpInterval, .assignReturnRoute, .probeWakeUpInterval, .probeEndpoints,
    .mdnsProbe, .mdnsEpProbe, .done, .probeFail, .failing]

def EpState.all : List EpState :=
  [.probeAggregatedEndpoints, .probeInfo, .probeSec2C2Info, .probeSec2C1Info, .probeSec2C0Info,
    .probeSec0Info, .probeZwavePlus, .mdnsProbe, .mdnsProbeInProgress, .probeDone, .probeFail,
    .probeVersion]

def NodeState.code (s : NodeState) : UInt32 :=
  UInt32.ofNat (NodeState.all.idxOf s)

def EpState.code (s : EpState) : UInt32 :=
  UInt32.ofNat (EpState.all.idxOf s)

/-- The state with a number; no others are ever stored. -/
def NodeState.ofCode (x : UInt32) : NodeState :=
  NodeState.all.getD x.toNat .created

def EpState.ofCode (x : UInt32) : EpState :=
  EpState.all.getD x.toNat .probeAggregatedEndpoints

@[simp]
theorem NodeState.ofCode_code (s : NodeState) : NodeState.ofCode s.code = s := by
  cases s <;> rfl

@[simp]
theorem EpState.ofCode_code (s : EpState) : EpState.ofCode s.code = s := by
  cases s <;> rfl

abbrev Blob := { bytes : Bytes // bytes.length < 256 }

def Blob.ofBytes (bytes : Bytes) : Blob :=
  ⟨bytes.take (bytes.length % 256), by
    rw [List.length_take]
    omega⟩

def Blob.empty : Blob :=
  ⟨[], by decide⟩

@[simp]
theorem Blob.ofBytes_val (b : Blob) : Blob.ofBytes b.val = b := by
  apply Subtype.ext
  simp [Blob.ofBytes, Nat.mod_eq_of_lt b.property]

/-- `rd_ep_database_entry_t`, less the links. -/
structure EpEntry where
  endpointId : UInt8
  state : EpState
  installerIconId : UInt16
  userIconId : UInt16
  name : Blob
  location : Blob
  agg : Blob
  info : Blob
deriving DecidableEq

/-- `rd_node_database_entry_t`, less the list of endpoints, the reference count and what belongs to the
probe that is going on. -/
structure NodeHeader where
  nodeid : NodeId
  wakeUpInterval : UInt32
  lastAwake : UInt32
  lastUpdate : UInt32
  securityFlags : UInt8
  mode : UInt32
  state : NodeState
  manufacturerId : UInt16
  productType : UInt16
  productId : UInt16
  nodeType : UInt8
  nEndpoints : UInt8
  nAggEndpoints : UInt8
  name : Blob
  dsk : Blob
  versionCapAndZwaveSw : UInt8
  probeFlags : UInt16
  propertiesFlags : UInt16
  ccVersions : Blob
  isZwsProbed : UInt8
deriving DecidableEq

structure NodeEntry extends NodeHeader where
  endpoints : List EpEntry
deriving DecidableEq

end ZipGateway.Directory

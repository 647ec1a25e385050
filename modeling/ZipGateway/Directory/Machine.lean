import ZipGateway.Directory.Names

/-!
# The resource directory as a machine

The callbacks of the requests, of the timers and of the mDNS server, the functions other modules call,
and the steps. An input is an event while no call is left to be carried out, or it carries out the
topmost call.
-/

namespace ZipGateway.Directory

/-! ### The members of an aggregated endpoint

The bits of the masks are counted in one loop, that many bytes are allocated, and the members are written in
another. The frame is the memory behind a pointer. -/

def bit8CountLoop : Nat → UInt8 → Nat → Nat
  | 0, _, c => c
  | fuel + 1, n, c => if n = 0 then c else bit8CountLoop fuel (n &&& (n - 1)) (c + 1)

def bit8Count (n : UInt8) : UInt8 :=
  UInt8.ofNat (bit8CountLoop 8 n 0)

def countArrayBits (a : Mem) (length : UInt8) : UInt8 :=
  (List.range length.toNat).foldl (fun c i => c + bit8Count (a i)) 0

/-- `endpoint_agg` and `endpoint_aggr_len`, with the offsets that were written. -/
structure Members where
  agg : Mem
  aggrLen : UInt8
  writes : List Nat

namespace Members

def add (m : Members) (x : Nat) : Members :=
  { agg := m.agg.write m.aggrLen.toNat [UInt8.ofNat x]
    aggrLen := m.aggrLen + 1
    writes := m.writes ++ [m.aggrLen.toNat] }

def maskLoop (n : Nat) : Nat → UInt8 → Nat → Members → Members
  | 0, _, _, m => m
  | fuel + 1, c, j, m =>
    if c = 0 then m
    else maskLoop n fuel (c >>> 1) (j + 1) (if c &&& 1 ≠ 0 then m.add (n + j + 1) else m)

def masksLoop (masks : Mem) : Nat → Nat → Members → Members
  | 0, _, m => m
  | k + 1, i, m => masksLoop masks k (i + 1) (maskLoop (8 * i) 8 (masks i) 0 m)

end Members

structure AggregatedGet extends Members where
  allocated : Nat
  reads : List Nat

def storeMembers (allocates : Bool) (fresh frame : Mem) : AggregatedGet :=
  let masks : Mem := fun i => frame (4 + i)
  { Members.masksLoop masks (frame 3).toNat 0 ⟨fresh, 0, []⟩ with
    allocated := if allocates then (countArrayBits masks (frame 3)).toNat else 0
    reads := 3 :: List.range' 4 (frame 3).toNat }

namespace State

variable (env : Env) (d : State)

/-! ### Endpoints -/

def addEndpoint (a : Addr) (epid : UInt8) : Option State :=
  if env.allocatesEndpoint then
    some
      { d.modifyNode a fun n =>
          { n with
            endpoints := n.endpoints ++
              [{ endpointId := epid, state := .probeInfo, installerIconId := 0, userIconId := 0,
                 name := .empty, location := .empty, agg := .empty, info := .empty,
                 addr := d.fresh }]
            nEndpoints := n.nEndpoints + 1 } with
        fresh := d.fresh + 1 }
  else none

/-- `rd_add_endpoint` for one id after the other, until it fails. -/
def addEndpoints (a : Addr) : State → List UInt8 → State × Bool
  | d, [] => (d, true)
  | d, epid :: epids =>
    match d.addEndpoint env a epid with
    | some d => addEndpoints a d epids
    | none => (d, false)

/-- The ids in a find report; a first id of zero says that there are none. -/
def individualIds (cmd : Bytes) : List UInt8 :=
  if cmd.getD 5 0 = 0 then [] else (cmd.drop 5).map (· &&& 0x7F)

def aggregatedIds (last : UInt8) (count : UInt8) : List UInt8 :=
  (List.range count.toNat).map fun i => last + UInt8.ofNat (i + 1)

def findReportIds (n : Node) (cmd : Bytes) : List UInt8 :=
  individualIds cmd ++ aggregatedIds ((individualIds cmd).getLast?.getD env.staleEpid) n.nAggEndpoints

def epFindCallback (n : Node) (frame : Option Bytes) : State × Bool :=
  let d := { d with findReportTimer := none }
  match frame with
  | some cmd =>
    if n.state = .findEndpoints then
      match addEndpoints env n.addr d (findReportIds env n cmd) with
      | (d, false) => (d.goto n.addr .probeFail, false)
      | (d, true) =>
        if cmd.getD 2 0 ≠ 0 then ({ d with findReportTimer := some n.addr }, true)
        else (d.goto n.addr .checkWuCcVersion, false)
    else (d.goto n.addr .checkWuCcVersion, false)
  | none => (d.goto n.addr .checkWuCcVersion, false)

def dropEndpoints (a : Addr) (nAgg : UInt8) : State :=
  d.modifyNode a fun n =>
    { n with endpoints := n.endpoints.take 1, nAggEndpoints := nAgg, nEndpoints := 1 }

def reportedAgg (cmd : Bytes) : UInt8 :=
  if 5 ≤ cmd.length then cmd.getD 4 0 &&& 0x7F else 0

def reportedCount (cmd : Bytes) : Nat :=
  (cmd.getD 3 0 &&& 0x7F).toNat + (reportedAgg cmd).toNat

def epGetCallback (n : Node) (frame : Option Bytes) : State :=
  match frame with
  | some cmd =>
    if n.state = .enumerateEndpoints then
      let d := { d with identicalEndpoints := cmd.getD 2 0 &&& 0x40 ≠ 0 }
      let d := if n.nEndpoints.toNat ≠ reportedCount cmd + 1 then
        d.dropEndpoints n.addr (reportedAgg cmd) else d
      d.goto n.addr .findEndpoints
    else d.goto n.addr .findEndpoints
  | none => d.goto n.addr .findEndpoints

/-! ### Callbacks of requests -/

def word (cmd : Bytes) (i : Nat) : UInt16 :=
  (cmd.getD i 0).toUInt16 * 256 + (cmd.getD (i + 1) 0).toUInt16

def seconds (cmd : Bytes) (i : Nat) : UInt32 :=
  (cmd.getD i 0).toUInt32 * 65536 + (cmd.getD (i + 1) 0).toUInt32 * 256 + (cmd.getD (i + 2) 0).toUInt32

def probeVendorCallback (n : Node) (frame : Option Bytes) : State :=
  let d := match frame with
    | some cmd => d.modifyNode n.addr fun n =>
      { n with manufacturerId := word cmd 2, productId := word cmd 6, productType := word cmd 4 }
    | none => d
  d.goto n.addr .enumerateEndpoints

/-- The interval `rd_cap_wake_up_callback` chooses from a report. -/
def chosenInterval (old : UInt32) (cmd : Bytes) : UInt32 :=
  let min := seconds cmd 2
  let max := seconds cmd 5
  let step := seconds cmd 11
  if min < defaultWakeUpInterval ∧ defaultWakeUpInterval < max then
    let below := defaultWakeUpInterval - defaultWakeUpInterval % step
    if below < min then defaultWakeUpInterval + defaultWakeUpInterval % step else below
  else if defaultWakeUpInterval < min then min
  else if max < defaultWakeUpInterval then max
  else old

def capWakeUpCallback (n : Node) (frame : Option Bytes) : State :=
  match frame with
  | some cmd =>
    (d.modifyNode n.addr fun n =>
      { n with wakeUpInterval := chosenInterval n.wakeUpInterval cmd }).goto n.addr .setWakeUpInterval
  | none => d.goto n.addr .assignReturnRoute

def probeWakeupCallback (n : Node) (frame : Option Bytes) : State :=
  let d : State := match frame with
    | some cmd =>
      if n.state = NodeState.probeWakeUpInterval then
        d.modifyNode n.addr fun n => { n with wakeUpInterval := seconds cmd 2 }
      else d
    | none => d
  d.goto n.addr .probeEndpoints

def aggregatedMembersCallback (p : Endpoint) (frame : Option Bytes) : State :=
  if p.state ≠ .probeAggregatedEndpoints then d
  else
    let d := match frame with
      | some cmd =>
        let stored := storeMembers true (fun _ => 0) (Mem.ofBytes cmd)
        d.modifyEp p.addr fun p => { p with agg := .ofBytes (stored.agg.slice 0 stored.aggrLen.toNat) }
      | none => d
    d.epGoto p.addr .probeDone

def capabilityCallback (p : Endpoint) (frame : Option Bytes) : State :=
  match frame with
  | some cmd =>
    if p.endpointId = cmd.getD 2 0 &&& 0x7F then
      if env.allocates then
        (d.modifyEp p.addr fun p => { p with info := .ofBytes (cmd.drop 3) }).epGoto p.addr .probeSec2C2Info
      else (d.modifyEp p.addr fun p => { p with info := .empty }).epGoto p.addr .probeFail
    else d.epGoto p.addr .probeFail
  | none => d.epGoto p.addr .probeFail

def zwavePlusInfoCallback (n : Node) (p : Endpoint) (frame : Option Bytes) : State :=
  let d := match frame with
    | some cmd =>
      if 9 ≤ cmd.length then
        let d := d.modifyEp p.addr fun p =>
          { p with installerIconId := word cmd 5, userIconId := word cmd 7 }
        if cmd.getD 3 0 = 0x04 then
          d.modifyNode n.addr fun n =>
            { n with propertiesFlags := n.propertiesFlags ||| rdNodeFlagPortable }
        else d
      else d
    | none => d
  d.epGoto p.addr .mdnsProbe

def securityFlag : EpState → UInt8
  | .probeSec2C2Info => nodeFlagSecurity2Access
  | .probeSec2C1Info => nodeFlagSecurity2Authenticated
  | .probeSec2C0Info => nodeFlagSecurity2Unauthenticated
  | .probeSec0Info => nodeFlagSecurity0
  | _ => 0

def secureCommandsCallback (n : Node) (p : Endpoint) (frame : Option Bytes) : State :=
  let headerLen := if p.state = .probeSec0Info then 3 else 2
  let flag := securityFlag p.state
  let d := if p.endpointId = 0 ∧ n.propertiesFlags &&& rdNodeFlagAddedByMe = 0 ∧
      n.propertiesFlags &&& rdNodeFlagJustAdded ≠ 0 then
    d.modifyNode n.addr fun n => { n with securityFlags := n.securityFlags &&& ~~~flag } else d
  let d := match frame with
    | some cmd =>
      let d := if headerLen < cmd.length ∧ env.allocates then
        d.modifyEp p.addr fun p =>
          { p with info := .ofBytes (p.info.val ++ [0xF1, 0x00] ++ cmd.drop headerLen) } else d
      if p.endpointId = 0 then
        d.modifyNode n.addr fun n => { n with securityFlags := n.securityFlags ||| flag }
      else d
    | none => d
  if p.endpointId > 0 ∨ p.state = .probeSec0Info then d.epGoto p.addr .probeVersion
  else d.epGoto p.addr p.state.next

def ccVersionCallback (n : Node) (p : Endpoint) (s : Pcvs) (frame : Option Bytes) : State :=
  match frame with
  | some cmd =>
    if cmd.getD 2 0 = d.requestedCommandClass ∧ 1 ≤ cmd.getD 3 0 then
      (d.modifyNode n.addr fun n =>
        { n with
          toNodeHeader :=
            n.toNodeHeader.setCcVersion d.requestedCommandClass.toUInt16 (cmd.getD 3 0) }).pcvGoto
        n p ⟨s.probeCcIdx + 1, .lastReport⟩ .versionCcReportRecv
    else
      (d.modifyNode n.addr fun n => { n with probeFlags := rdNodeFlagProbeFailed }).pcvGoto
        n p ⟨s.probeCcIdx + 1, .lastReport⟩ .versionCcCallbackFail
  | none =>
    (d.modifyNode n.addr fun n => { n with probeFlags := rdNodeFlagProbeFailed }).pcvGoto
      n p ⟨s.probeCcIdx + 1, .lastReport⟩ .versionCcCallbackFail

def versionCapabilitiesCallback (n : Node) (p : Endpoint) (s : Pcvs) (frame : Option Bytes) : State :=
  match frame with
  | some cmd =>
    (d.modifyNode n.addr fun n => { n with versionCapAndZwaveSw := cmd.getD 2 0 }).pcvGoto
      n p { s with state := .sendVersionZwsGet } .versionCapReportRecv
  | none =>
    (d.modifyNode n.addr fun n => { n with probeFlags := rdNodeFlagProbeFailed }).pcvGoto
      n p { s with state := .versionProbeDone } .versionCapCallbackFail

def versionZwaveSoftwareCallback (n : Node) (p : Endpoint) (s : Pcvs) (frame : Option Bytes) :
    State :=
  match frame with
  | some _ =>
    (d.modifyNode n.addr fun n => { n with isZwsProbed := 1 }).pcvGoto
      n p { s with state := .versionProbeDone } .versionZwsReportRecv
  | none => d.pcvGoto n p { s with state := .versionProbeDone } .versionZwsCallbackFail

def nodeCallback (kind : RequestKind) (n : Node) (frame : Option Bytes) : State × Bool :=
  match kind with
  | .vendor => (d.probeVendorCallback n frame, false)
  | .epGet => (d.epGetCallback n frame, false)
  | .epFind => d.epFindCallback env n frame
  | .capWakeUp => (d.capWakeUpCallback n frame, false)
  | .wakeUp => (d.probeWakeupCallback n frame, false)
  | _ => (d, false)

def epCallback (kind : RequestKind) (n : Node) (p : Endpoint) (frame : Option Bytes) : State :=
  match kind with
  | .aggregatedMembers => d.aggregatedMembersCallback p frame
  | .capability => d.capabilityCallback env p frame
  | .secureCommands => d.secureCommandsCallback env n p frame
  | .zwavePlusInfo => d.zwavePlusInfoCallback n p frame
  | .ccVersion => d.ccVersionCallback n p (n.pcvs.getD ⟨0, .idle⟩) frame
  | .versionCapabilities => d.versionCapabilitiesCallback n p (n.pcvs.getD ⟨0, .idle⟩) frame
  | .versionZwaveSoftware => d.versionZwaveSoftwareCallback n p (n.pcvs.getD ⟨0, .idle⟩) frame
  | _ => d

def requestCallback (r : Request) (frame : Option Bytes) : State × Bool :=
  if r.kind.forNode then
    match d.node? r.user with
    | some n => d.nodeCallback env r.kind n frame
    | none => (d, false)
  else
    match d.ep? r.user with
    | some (n, p) => (d.epCallback env r.kind n p frame, false)
    | none => (d, false)

def requestTimeout (k : Nat) : State :=
  match d.requests[k]? with
  | some r => ({ d with requests := d.requests.eraseIdx k }.requestCallback env r none).1
  | none => d

/-- `ZW_SendRequest_Callback`. -/
def requestTransmitted (k : Nat) (ok : Bool) : State :=
  match d.requests[k]? with
  | some r =>
    if ok ∧ !r.waiting then { d with requests := d.requests.set k { r with waiting := true } }
    else d.requestTimeout env k
  | none => d

/-- `SendRequest_ApplicationCommandHandler` for the request that the frame answers. -/
def requestResponse (k : Nat) (frame : Bytes) : State :=
  match d.requests[k]? with
  | some r =>
    if r.waiting then
      match { d with requests := d.requests.eraseIdx k }.requestCallback env r (some frame) with
      | (d, true) => { d with requests := d.requests ++ [r] }
      | (d, false) => d
    else d
  | none => d

/-- `ZW_Abort_SendRequest`, with eight bits of the id; the loop ends with the first request it takes out. -/
def abortSendRequest (node : NodeId) : State :=
  match d.requests.findIdx? fun r => r.waiting ∧ r.node = node.toUInt8.toUInt16 with
  | some k => d.requestTimeout env k
  | none => d

/-! ### Registration and removal -/

/-- `update_protocol_info`. -/
def protocolMode : UInt32 :=
  if env.listening then modeAlwayslistening
  else if env.frequentlyListening then modeFrequentlylistening
  else modeNonlistening

def newNode (node : NodeId) (flags : UInt16) : Node where
  nodeid := node
  wakeUpInterval := defaultWakeUpInterval
  lastAwake := 0
  lastUpdate := 0
  securityFlags := 0
  mode := protocolMode env
  state :=
    if protocolMode env = modeNonlistening ∧ flags &&& rdNodeFlagJustAdded = 0 then .probeFail
    else .created
  manufacturerId := 0
  productType := 0
  productId := 0
  nodeType := env.basicType
  nEndpoints := 0
  nAggEndpoints := 0
  name := .empty
  dsk := .empty
  versionCapAndZwaveSw := 0
  probeFlags := rdNodeProbeNeverStarted
  propertiesFlags := flags
  ccVersions := .ofBytes controlledCcVBytes
  isZwsProbed := 0
  addr := d.fresh
  endpoints := []
  pcvs := none

def install (n : Node) (node : NodeId) : State :=
  { d with
    heap := d.heap ++ [n]
    ndb := Function.update d.ndb node (some n.addr)
    fresh := d.fresh + 1 }

def registerFresh (node : NodeId) (flags : UInt16) : State :=
  if env.allocates then
    let n := d.newNode env node flags
    let d := d.install n node
    match d.addEndpoint env n.addr 0 with
    | some d => d.call (.nodeProbeUpdate n.addr)
    | none => d.goto n.addr .probeFail
  else { d with ndb := Function.update d.ndb node none }

def restart (a : Addr) (state : NodeState) (s : EpState) : State :=
  d.modifyNode a fun n =>
    { n with state := state, endpoints := n.endpoints.map fun p => { p with state := s } }

def registerNewNode (node : NodeId) (flags : UInt16) : State :=
  if env.isVirtual node then d
  else
    match d.nodeGetRaw node with
    | some n =>
      if n.state = .failing ∨ n.state = .probeFail ∨ n.state = .done then
        (d.restart n.addr .created .probeInfo).call (.nodeProbeUpdate n.addr)
      else d
    | none => d.registerFresh env node flags

def removeNode (node : NodeId) : State :=
  (d.call (.eraseNode node)).abortSendRequest env node

/-- `rd_remove_node` after that. -/
def eraseNode (node : NodeId) : State :=
  if node = 0 then d
  else
    match d.nodeGetRaw node with
    | none => d
    | some n =>
      let d := if d.currentProbeEntry = some n.addr then { d with currentProbeEntry := none } else d
      if n.nodeid = 0 then
        d.modifyNode n.addr fun n => { n with mode := n.mode ||| modeFlagsDeleted }
      else
        { d with
          heap := d.heap.filter fun m => m.addr ≠ n.addr
          ndb := Function.update d.ndb node none
          db := d.db.nvmFree n.nodeid }

def placed (a : Addr) (n : NodeEntry) : Node :=
  { n with
    addr := a
    endpoints := n.endpoints.zipIdx.map fun (p, i) => { p with addr := a + 1 + i }
    pcvs := none }

def resumeImported (n : Node) : State :=
  let mailbox := n.modeValue = modeMailbox
  let d :=
    if n.state = .created then
      let d := d.restart n.addr .created .probeInfo
      if n.modeValue = modeNonlistening ∨ mailbox then
        d.modifyNode n.addr fun n =>
          { n with state := .probeFail, wakeUpInterval := 0, probeFlags := rdNodeProbeNeverStarted }
      else d
    else if n.state = .done then
      (d.restart n.addr .mdnsProbe .mdnsProbe).modifyNode n.addr fun n => { n with lastAwake := env.now }
    else d
  d.modifyNode n.addr fun n =>
    if mailbox ∧ n.wakeUpInterval = 0 then { n with lastAwake := env.now } else n

/-- One round of the loop of `rd_init` for a node of the network; the pointer to an entry that was there
is overwritten. -/
def importNode (node : NodeId) : State :=
  match d.db.read node with
  | none => { d with ndb := Function.update d.ndb node none }.registerNewNode env node 0
  | some e =>
    let n := placed d.fresh e
    { d.install n node with fresh := d.fresh + 1 + n.endpoints.length }.resumeImported env n

/-! ### Events -/

def nifRequestNotify (status : Bool) (node : NodeId) (nif : Bytes) : State :=
  match d.nifRequestEp.bind d.ep? with
  | none => d
  | some (n, p) =>
    if p.state ≠ .probeInfo then d
    else
      let d := { d with nifRequestEp := none, nifRequestTimer := none }
      if status ∧ n.nodeid = node then
        let d := d.modifyNode n.addr fun n => { n with nodeType := nif.getD 0 0 }
        if env.allocates then
          let info : Blob := .ofBytes (nif.drop 1 ++ [0x68, 0x23])
          let d := d.modifyEp p.addr fun p => { p with info := info }
          let d := d.modifyNode n.addr fun n =>
            if p.endpointId = 0 ∧ n.propertiesFlags &&& rdNodeFlagAddedByMe = 0 ∧
                n.propertiesFlags &&& rdNodeFlagJustAdded ≠ 0 then
              let lacks := fun cls =>
                epClassSupport n.toNodeHeader { p.toEpEntry with info := info } cls &&& supportedNonSec = 0
              let flags := if lacks 0x9F then n.securityFlags &&& ~~~nodeFlagsSecurity2
                else n.securityFlags
              { n with securityFlags := if lacks 0x98 then flags &&& ~~~nodeFlagSecurity0 else flags }
            else n
          let d := d.modifyNode n.addr fun n =>
            if p.endpointId = 0 then
              { n with
                ccVersions := ccVersionsSetDefault n.ccVersions
                versionCapAndZwaveSw := 0
                probeFlags := rdNodeProbeNeverStarted
                isZwsProbed := 0 }
            else n
          d.epGoto p.addr p.state.next
        else (d.modifyEp p.addr fun p => { p with info := .empty }).epGoto p.addr .probeFail
      else d.epGoto p.addr .probeFail

def nodeInfoRequestTimeout : State :=
  match d.nifRequestTimer with
  | none => d
  | some e =>
    let d := { d with nifRequestTimer := none }
    if d.currentProbeEntry.isNone then d
    else
      match d.ep? e with
      | none => d
      | some (_, p) => { d with nifRequestEp := none }.epGoto p.addr .probeFail

def findReportTimedOut : State :=
  match d.findReportTimer with
  | none => d
  | some a =>
    let d := { d with findReportTimer := none }
    match d.node? a with
    | none => d
    | some n => d.goto n.addr .checkWuCcVersion

def assignReturnRouteCallback : State :=
  match d.returnRoutes with
  | 0 => d
  | k + 1 =>
    let d := { d with returnRoutes := k }
    match d.currentProbeEntry.bind d.node? with
    | some n => d.goto n.addr .probeWakeUpInterval
    | none => d

def setWuIntervalCallback (k : Nat) : State :=
  match d.wuIntervalSets[k]? with
  | none => d
  | some a =>
    let d := { d with wuIntervalSets := d.wuIntervalSets.eraseIdx k }
    match d.node? a with
    | none => d
    | some n => d.goto n.addr .assignReturnRoute

def endpointNameProbeDone (ok : Bool) (e : Addr) : State :=
  match d.currentProbeEntry, d.ep? e with
  | some _, some (n, p) =>
    if p.state ≠ .mdnsProbeInProgress then d
    else if ok then d.epGoto p.addr .probeDone
    else
      let name := addOrIncrementTrailingDigit (getEpName env.homeId n.nodeid p.toEpEntry)
      let d := d.modifyEp p.addr fun p => { p with name := .ofBytes name, state := .mdnsProbe }
      { d with epProbeUpdateTimer := some p.addr }
  | _, _ => d

/-- `rd_node_name_probe_done`; with `tie` the name is probed once more. -/
def nodeNameProbeDone (ok tie : Bool) (a : Addr) : State :=
  match d.node? a with
  | none => d
  | some n =>
    if n.state ≠ .mdnsProbe then d
    else if ok then d.goto n.addr .mdnsEpProbe
    else if tie then { d with nodeProbeUpdateTimer := some n.addr }
    else
      let name := if n.name.val = [] then
          Provisioning.ascii "zw" ++ hex 8 (htonl env.homeId).toNat ++ hex 4 n.nodeid.toNat ++
            Provisioning.ascii "-1"
        else addOrIncrementTrailingDigit n.name.val
      { d.modifyNode n.addr fun n => { n with name := .ofBytes name } with
        nodeProbeUpdateTimer := some n.addr }

/-- `PROBE_DONE_EVENT` of the mDNS server. -/
def nameProbeDone (ok tie : Bool) : State :=
  match d.nameProbe with
  | none => d
  | some (.ep e) => { d with nameProbe := none }.endpointNameProbeDone env ok e
  | some (.node a) => { d with nameProbe := none }.nodeNameProbeDone env ok tie a

def setFailing (a : Addr) (failing : Bool) : State :=
  match d.node? a with
  | none => d
  | some n =>
    let s : NodeState := if failing then .failing else .done
    if n.state ≠ s ∧ (n.state = .failing ∨ n.state = .done) then
      (d.modifyNode a fun n =>
        { n with
          state := s
          mode := (n.mode &&& ~~~modeFlagsFailed) ||| if failing then modeFlagsFailed else 0 }).persist a
    else d

def nodeIsUnreachable (node : NodeId) : State :=
  match d.nodeGetRaw node with
  | none => d
  | some n => if n.modeValue ≠ modeMailbox then d.setFailing n.addr true else d

def nodeIsAlive (node : NodeId) : State :=
  match d.nodeGetRaw node with
  | none => d
  | some n => (d.modifyNode n.addr fun n => { n with lastAwake := env.now }).setFailing n.addr false

def checkForDeadNode (node : NodeId) : State :=
  match d.nodeGetRaw node with
  | none => d
  | some n =>
    if n.nodeid = env.myNodeId then d
    else if n.modeValue ≠ modeMailbox then d
    else if n.wakeUpInterval = 0 ∨ n.failed then d
    else if n.lastAwake + 3 * n.wakeUpInterval < env.now ∧ env.mbEnabled then d.setFailing n.addr true
    else d

def checkForDeadNodesWorker : State :=
  (List.range' 1 zwMaxNodes).foldl (fun d i => d.checkForDeadNode env (UInt16.ofNat i)) d

def init (lock clear : Bool) (nodelist : NodeId → Bool) : State :=
  let ids := (List.range' 1 zwLrMaxNodeIdInNvm).map UInt16.ofNat
  { d with
    db := if clear then { d.db with nodes := [], endpoints := [], ipAssociation := [] } else d.db
    nifRequestEp := none
    currentProbeEntry := none
    probeLock := lock
    calls := .registerNewNode env.myNodeId 0 :: ((ids.filter fun i => i ≠ env.myNodeId ∨ !nodelist i).map fun i =>
        if nodelist i then Call.importNode i else .removeNode i) ++ [.probeResume] }

def fullNetworkDiscovery (nodelist : NodeId → Bool) : State :=
  let ids := (List.range' 1 zwLrMaxNodeIdInNvm).map UInt16.ofNat
  { d with calls := ids.map fun i => if nodelist i then .registerNewNode i 0 else .removeNode i }

def probeNewNodes (nodelist : NodeId → Bool) : State :=
  let ids := (List.range' 1 zwLrMaxNodeIdInNvm).map UInt16.ofNat
  { d with
    calls := (ids.filter fun i => nodelist i && (d.nodeGetRaw i).isNone && !env.isVirtual i).map
      fun i => .registerNewNode i 0 }

def exit : State :=
  { d with
    nifRequestTimer := none
    heap := d.heap.map fun n =>
      if d.ndb n.nodeid = some n.addr then { n with mode := n.mode ||| modeFlagsDeleted } else n }

def destroy : State :=
  { d with
    heap := d.heap.filter fun n => d.ndb n.nodeid ≠ some n.addr
    ndb := fun _ => none }

end State

inductive Event where
  | registerNewNode (node : NodeId) (flags : UInt16)
  | removeNode (node : NodeId)
  | init (lock clear : Bool) (nodelist : NodeId → Bool)
  | fullNetworkDiscovery (nodelist : NodeId → Bool)
  | probeNewNodes (nodelist : NodeId → Bool)
  | exit
  | destroy
  | mdnsRestart
  | probeLock (enable : Bool)
  | probeCancel
  | nodeProbeUpdate (node : NodeId)
  | nif (status : Bool) (node : NodeId) (nif : Bytes)
  | nifTimeout
  | findReportTimeout
  | epProbeUpdateTimeout
  | nodeProbeUpdateTimeout
  | transmitted (k : Nat) (ok : Bool)
  | requestTimeout (k : Nat)
  | response (k : Nat) (frame : Bytes)
  | assignReturnRoute
  | wuIntervalSet (k : Nat)
  | nameProbeDone (ok tie : Bool)
  | deadNodesWorker
  | unreachable (node : NodeId)
  | alive (node : NodeId)
  | setFailing (node : NodeId) (failing : Bool)
  | markDeleted (node : NodeId)
  | setCacheEntryFlag (node : NodeId) (value mask : UInt8)
  | updateEpName (e : Addr) (name : Blob)
  | updateEpLocation (e : Addr) (location : Blob)
  | updateEpNameAndLocation (e : Addr) (name : Blob) (location : Option Blob)

namespace State

variable (env : Env) (d : State)

def event : Event → State
  | .registerNewNode node flags => d.call (.registerNewNode node flags)
  | .removeNode node => d.call (.removeNode node)
  | .init lock clear nodelist => d.init env lock clear nodelist
  | .fullNetworkDiscovery nodelist => d.fullNetworkDiscovery nodelist
  | .probeNewNodes nodelist => d.probeNewNodes env nodelist
  | .exit => d.exit
  | .destroy => d.destroy
  | .mdnsRestart => { d with nameProbe := none }
  | .probeLock enable =>
    if enable then { d with probeLock := true } else { d with probeLock := false }.call .probeResume
  | .probeCancel => { d with probeLock := false, currentProbeEntry := none }
  | .nodeProbeUpdate node =>
    match d.nodeGetRaw node with
    | some n => d.call (.nodeProbeUpdate n.addr)
    | none => d
  | .nif status node nif => d.nifRequestNotify env status node nif
  | .nifTimeout => d.nodeInfoRequestTimeout
  | .findReportTimeout => d.findReportTimedOut
  | .epProbeUpdateTimeout =>
    match d.epProbeUpdateTimer with
    | some e => { d with epProbeUpdateTimer := none }.call (.epProbeUpdate e)
    | none => d
  | .nodeProbeUpdateTimeout =>
    match d.nodeProbeUpdateTimer with
    | some a => { d with nodeProbeUpdateTimer := none }.call (.nodeProbeUpdate a)
    | none => d
  | .transmitted k ok => d.requestTransmitted env k ok
  | .requestTimeout k => d.requestTimeout env k
  | .response k frame => d.requestResponse env k frame
  | .assignReturnRoute => d.assignReturnRouteCallback
  | .wuIntervalSet k => d.setWuIntervalCallback k
  | .nameProbeDone ok tie => d.nameProbeDone env ok tie
  | .deadNodesWorker => d.checkForDeadNodesWorker env
  | .unreachable node => d.nodeIsUnreachable node
  | .alive node => d.nodeIsAlive env node
  | .setFailing node failing =>
    match d.nodeGetRaw node with
    | some n => d.setFailing n.addr failing
    | none => d
  | .markDeleted node =>
    match d.nodeGetRaw node with
    | some n => d.modifyNode n.addr fun n => { n with mode := n.mode ||| modeFlagsDeleted }
    | none => d
  | .setCacheEntryFlag node value mask =>
    match d.nodeGetRaw node with
    | some n =>
      (d.modifyNode n.addr fun n =>
        { n with securityFlags := (n.securityFlags &&& ~~~mask) ||| value }).persist n.addr
    | none => d
  | .updateEpName e name => d.updateEpName env e name
  | .updateEpLocation e location => d.updateEpLocation env e location
  | .updateEpNameAndLocation e name location => d.updateEpNameAndLocation env e name location

def execute : Call → State
  | .nodeProbeUpdate a => d.nodeProbeUpdate env a
  | .epProbeUpdate e => d.epProbeUpdate env e
  | .probeResume => d.probeResume
  | .pcvPostEvent e ev => d.pcvPostEvent env e ev
  | .registerNewNode node flags => d.registerNewNode env node flags
  | .removeNode node => d.removeNode env node
  | .eraseNode node => d.eraseNode node
  | .importNode node => d.importNode env node

end State

inductive Input where
  | event (e : Event)
  | proceed

def step (d : State) : Env × Input → State
  | (env, .event e) => if d.calls.isEmpty then d.event env e else d
  | (env, .proceed) =>
    match d.calls with
    | [] => d
    | c :: rest => { d with calls := rest }.execute env c

def run (d : State) (inputs : List (Env × Input)) : State :=
  inputs.foldl step d

/-! ### A small network -/

/-- The gateway is node 1 and everything it asks for is granted; new nodes are listening. -/
def smallHome : Env where
  booting := false
  mdnsRunning := true
  isVirtual := fun _ => false
  myNodeId := 1
  mbEnabled := true
  sucNodeId := 1
  now := 0
  accepts := true
  allocates := true
  allocatesEndpoint := true
  staleEpid := 0
  basicType := 4
  listening := true
  frequentlyListening := false
  productId := 0
  manufacturerId := 0
  productType := 0
  homeId := 0
  ipNif := []
  ipSecureClasses := []

def settled (ev : Event) : List (Env × Input) :=
  (smallHome, .event ev) :: List.replicate 40 (smallHome, .proceed)

def interviewed (node : NodeId) : List (Env × Input) :=
  settled (.registerNewNode node 0) ++ settled (.nif true node [4, 0x10, 0x01, 0x25]) ++
    settled (.nameProbeDone true false) ++ settled (.nameProbeDone true false)

end ZipGateway.Directory

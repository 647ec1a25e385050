import ZipGateway.Directory.State

/-!
# The interview

`rd_node_probe_update` takes a node from state to state, `rd_ep_probe_update` does so with an endpoint,
and `RD_probe_cc_version.c` asks for the versions of the command classes. Each of them is called again
for the next state, and ends when a request is out.
-/

namespace ZipGateway.Directory

/-- `n->state++`. -/
def NodeState.next : NodeState → NodeState
  | .created => .probeNodeInfo
  | .probeNodeInfo => .probeProductId
  | .probeProductId => .enumerateEndpoints
  | .enumerateEndpoints => .findEndpoints
  | .findEndpoints => .checkWuCcVersion
  | .checkWuCcVersion => .getWuCap
  | .getWuCap => .setWakeUpInterval
  | .setWakeUpInterval => .assignReturnRoute
  | .assignReturnRoute => .probeWakeUpInterval
  | .probeWakeUpInterval => .probeEndpoints
  | .probeEndpoints => .mdnsProbe
  | .mdnsProbe => .mdnsEpProbe
  | .mdnsEpProbe => .done
  | .done => .probeFail
  | .probeFail => .failing
  | .failing => .failing

/-- `ep->state++`. -/
def EpState.next : EpState → EpState
  | .probeAggregatedEndpoints => .probeInfo
  | .probeInfo => .probeSec2C2Info
  | .probeSec2C2Info => .probeSec2C1Info
  | .probeSec2C1Info => .probeSec2C0Info
  | .probeSec2C0Info => .probeSec0Info
  | .probeSec0Info => .probeZwavePlus
  | .probeZwavePlus => .mdnsProbe
  | .mdnsProbe => .mdnsProbeInProgress
  | .mdnsProbeInProgress => .probeDone
  | .probeDone => .probeFail
  | .probeFail => .probeVersion
  | .probeVersion => .probeVersion

namespace State

variable (env : Env) (d : State)

def nodeRequest (n : Node) (kind : RequestKind) : State :=
  match d.sendRequest env n.nodeid kind n.addr with
  | (true, d) => d
  | (false, d) => d.goto n.addr .probeFail

def epRequest (n : Node) (p : Endpoint) (kind : RequestKind) : State :=
  match d.sendRequest env n.nodeid kind p.addr with
  | (true, d) => d
  | (false, d) => d.epGoto p.addr .probeFail

def copyFrom (src p : Endpoint) : Endpoint :=
  if p.endpointId > 1 then
    { p with
      location := .empty
      name := .empty
      info := src.info
      agg := src.agg
      state := src.state
      installerIconId := src.installerIconId
      userIconId := src.userIconId }
  else p

def copyEndpoints (src : Endpoint) (a : Addr) : State :=
  d.modifyNode a fun n => { n with endpoints := n.endpoints.map (copyFrom src) }

def probeEndpoints (n : Node) : List Endpoint → State
  | [] => d.goto n.addr n.state.next
  | p :: ps =>
    if p.state = .probeFail then d.goto n.addr .probeFail
    else if p.state ≠ .probeDone then d.call (.epProbeUpdate p.addr)
    else if d.identicalEndpoints ∧ n.nodeid ≠ env.myNodeId ∧ p.endpointId > 0 then
      { d.copyEndpoints p n.addr with identicalEndpoints := false }.goto n.addr n.state.next
    else probeEndpoints n ps

def probeComplete (a : Addr) : State :=
  { d.persist a with currentProbeEntry := none }.call .probeResume

def checkWuCcVersion (n : Node) : State :=
  if d.supportsCmdClassFlags n.nodeid 0x84 &&& supported = 0 ∨ !env.mbEnabled then
    d.goto n.addr .probeEndpoints
  else
    let d := d.modifyNode n.addr fun n => { n with mode := modeMailbox }
    if n.propertiesFlags &&& rdNodeFlagJustAdded ≠ 0 ∧ env.sucNodeId = env.myNodeId then
      -- The mode has no flags any more when the version is looked up.
      let version := ccVersionGetFrom 0x84 n.ccVersions.val
      if 2 ≤ version then d.goto n.addr .getWuCap
      else if version = 1 then
        let d := if n.propertiesFlags &&& rdNodeFlagPortable ≠ 0 then
          d.modifyNode n.addr fun n => { n with wakeUpInterval := 0 } else d
        d.goto n.addr .setWakeUpInterval
      else d.goto n.addr .probeFail
    else d.goto n.addr .probeWakeUpInterval

def nodeProbeState (n : Node) : State :=
  match n.state with
  | .created =>
    if d.currentProbeEntry.isSome ∧ d.currentProbeEntry ≠ some n.addr then d
    else
      { d.modifyNode n.addr fun n => { n with probeFlags := rdNodeFlagProbeStarted } with
        currentProbeEntry := some n.addr }.goto n.addr n.state.next
  | .probeNodeInfo =>
    match n.endpoints with
    | [] => { d with currentProbeEntry := none }.call .probeResume
    | p :: _ =>
      if p.state = .probeFail then d.goto n.addr .probeFail
      else if p.state ≠ .probeDone then d.call (.epProbeUpdate p.addr)
      else if n.securityFlags &&& nodeFlagInfoOnly ≠ 0 then d.goto n.addr .done
      else d.goto n.addr n.state.next
  | .probeProductId =>
    if n.nodeid = env.myNodeId then
      (d.modifyNode n.addr fun n =>
        { n with
          productId := env.productId
          manufacturerId := env.manufacturerId
          productType := env.productType }).goto n.addr n.state.next
    else if d.supportsCmdClassFlags n.nodeid 0x72 &&& supported = 0 then d.goto n.addr n.state.next
    else d.nodeRequest env n .vendor
  | .enumerateEndpoints =>
    if n.nodeid = env.myNodeId ∨ d.supportsCmdClassFlags n.nodeid 0x60 &&& supported = 0 then
      d.goto n.addr n.state.next
    else d.nodeRequest env n .epGet
  | .findEndpoints =>
    if n.nodeid = env.myNodeId ∨ d.supportsCmdClassFlags n.nodeid 0x60 &&& supported = 0 then
      d.goto n.addr n.state.next
    else d.nodeRequest env n .epFind
  | .probeEndpoints => d.probeEndpoints env n n.endpoints
  | .checkWuCcVersion => d.checkWuCcVersion env n
  | .getWuCap => d.nodeRequest env n .capWakeUp
  | .setWakeUpInterval =>
    if env.accepts then { d with wuIntervalSets := d.wuIntervalSets ++ [n.addr] }
    else d.goto n.addr .probeFail
  | .assignReturnRoute =>
    if env.accepts then { d with returnRoutes := d.returnRoutes + 1 } else d.goto n.addr .probeFail
  | .probeWakeUpInterval => d.nodeRequest env n .wakeUp
  | .mdnsProbe =>
    match d.startNameProbe (.node n.addr) with
    | (true, d) => d
    | (false, d) => d.goto n.addr n.state.next
  | .mdnsEpProbe =>
    match n.endpoints.find? fun p => p.state = .mdnsProbe with
    | some p => d.call (.epProbeUpdate p.addr)
    | none => d.goto n.addr n.state.next
  | .done =>
    (d.modifyNode n.addr fun n =>
      { n with
        lastUpdate := env.now
        lastAwake := env.now
        propertiesFlags := n.propertiesFlags &&& ~~~rdNodeFlagJustAdded
        probeFlags := rdNodeFlagProbeHasCompleted }).probeComplete n.addr
  | .probeFail => d.probeComplete n.addr
  | .failing => d

def nodeProbeUpdate (a : Addr) : State :=
  if d.probeLock then d
  else if env.booting then d
  else if !env.mdnsRunning then d
  else
    match d.node? a with
    | none => d
    | some n =>
      if n.nodeid = 0 then d
      else if env.isVirtual n.nodeid then d.call (.removeNode n.nodeid)
      else d.nodeProbeState env n

/-! ### Versions -/

def handles : PcvState → PcvEvent → Bool
  | .idle, ev => ev = .initial
  | .sendVersionCcGet, ev => ev = .start ∨ ev = .notLast
  | .lastReport, ev =>
    ev = .versionCcReportRecv ∨ ev = .ccProbed ∨ ev = .ccNotSupport ∨ ev = .versionCcCallbackFail
  | .checkIfV3, ev => ev = .versionCcDone
  | .sendVersionCapGet, ev => ev = .isV3
  | .sendVersionZwsGet, ev => ev = .versionCapReportRecv ∨ ev = .capProbed
  | .versionProbeDone, ev =>
    ev = .zwsNotSupport ∨ ev = .versionZwsReportRecv ∨ ev = .notV3 ∨ ev = .versionZwsCallbackFail ∨
      ev = .versionCapCallbackFail ∨ ev = .zwsProbed

def pcvGoto (n : Node) (p : Endpoint) (s : Pcvs) (ev : PcvEvent) : State :=
  (d.modifyNode n.addr fun n => { n with pcvs := some s }).call (.pcvPostEvent p.addr ev)

/-- A request of the version probe; when it is refused the probe stays where it is. -/
def pcvRequest (n : Node) (p : Endpoint) (kind : RequestKind) : State :=
  match d.sendRequest env n.nodeid kind p.addr with
  | (true, d) => d
  | (false, d) => d.modifyNode n.addr fun n => { n with probeFlags := rdNodeFlagProbeFailed }

def pcvState (n : Node) (p : Endpoint) (s : Pcvs) : State :=
  let cls := controlledCcV.getD s.probeCcIdx 0xFFFF
  match s.state with
  | .idle => d.pcvGoto n p ⟨0, .sendVersionCcGet⟩ .start
  | .sendVersionCcGet =>
    if epClassSupport n.toNodeHeader p.toEpEntry cls &&& supported ≠ 0 then
      if n.ccVersion cls = 0 then
        { d with requestedCommandClass := cls.toUInt8 }.pcvRequest env n p .ccVersion
      else d.pcvGoto n p ⟨s.probeCcIdx + 1, .lastReport⟩ .ccProbed
    else d.pcvGoto n p ⟨s.probeCcIdx + 1, .lastReport⟩ .ccNotSupport
  | .lastReport =>
    if cls ≠ 0xFFFF then d.pcvGoto n p { s with state := .sendVersionCcGet } .notLast
    else d.pcvGoto n p { s with state := .checkIfV3 } .versionCcDone
  | .checkIfV3 =>
    if n.ccVersion 0x86 = 3 then d.pcvGoto n p { s with state := .sendVersionCapGet } .isV3
    else d.pcvGoto n p { s with state := .versionProbeDone } .notV3
  | .sendVersionCapGet =>
    if n.versionCapAndZwaveSw = 0 then d.pcvRequest env n p .versionCapabilities
    else d.pcvGoto n p { s with state := .sendVersionZwsGet } .capProbed
  | .sendVersionZwsGet =>
    if n.versionCapAndZwaveSw &&& 0x01 ≠ 0 ∧ n.versionCapAndZwaveSw &&& 0x02 ≠ 0 ∧
        n.versionCapAndZwaveSw &&& 0x04 ≠ 0 then
      if n.isZwsProbed = 0 then d.pcvRequest env n p .versionZwaveSoftware
      else d.pcvGoto n p { s with state := .versionProbeDone } .zwsProbed
    else d.pcvGoto n p { s with state := .versionProbeDone } .zwsNotSupport
  | .versionProbeDone =>
    let d := if n.probeFlags = rdNodeFlagProbeFailed then d
      else d.modifyNode n.addr fun n => { n with probeFlags := rdNodeFlagProbeHasCompleted }
    d.epGoto p.addr .probeZwavePlus

def pcvPostEvent (e : Addr) (ev : PcvEvent) : State :=
  match d.ep? e with
  | none => d
  | some (n, p) =>
    match n.pcvs with
    | none => d
    | some s => if handles s.state ev then d.pcvState env n p s else d

def probeCcVersion (n : Node) (p : Endpoint) : State :=
  if n.nodeid = env.myNodeId then d.epGoto p.addr .probeZwavePlus
  else
    (d.modifyNode n.addr fun n =>
      { n with
        probeFlags := rdNodeFlagProbeStarted
        pcvs := some { (n.pcvs.getD ⟨0, .idle⟩) with state := .idle } }).call
      (.pcvPostEvent p.addr .initial)

/-! ### Endpoints -/

def shouldProbeLevel (n : Node) (p : Endpoint) (level : UInt8) : Bool :=
  ¬(p.endpointId = 0 ∧ n.securityFlags &&& level = 0 ∧ n.propertiesFlags &&& rdNodeFlagAddedByMe ≠ 0)

def probeInfo (n : Node) (p : Endpoint) : State :=
  if p.endpointId > 0 then
    let idx := (n.endpoints.takeWhile fun q => q.addr ≠ p.addr).length + 1
    if (n.nEndpoints.toNat : Int) - n.nAggEndpoints.toNat < idx then
      d.epGoto p.addr .probeAggregatedEndpoints
    else d.epRequest env n p .capability
  else if n.nodeid = env.myNodeId then
    if env.allocates then
      (d.modifyEp p.addr fun p =>
        { p with
          info := .ofBytes (env.ipNif.drop 4 ++ [0xF1, 0x00] ++ env.ipSecureClasses)
          userIconId := 0x0500
          installerIconId := 0x0500 }).epGoto p.addr .mdnsProbe
    else
      -- The old information is freed before, and the icons are set.
      (d.modifyEp p.addr fun p =>
        { p with info := .empty, userIconId := 0x0500, installerIconId := 0x0500 }).epGoto
        p.addr .probeFail
  else if d.nifRequestEp.isSome then d
  else if env.accepts then
    { d with nifRequestEp := some p.addr, nifRequestTimer := some p.addr }
  else d.epGoto p.addr .probeFail

def probeSec2C2Info (n : Node) (p : Endpoint) : State :=
  if n.securityFlags &&& nodeFlagKnownBad ≠ 0 then d.epGoto p.addr .probeVersion
  else if !d.supportsCmdClass n.nodeid 0x9F then d.epGoto p.addr .probeSec0Info
  else if !shouldProbeLevel n p nodeFlagSecurity2Access then d.epGoto p.addr p.state.next
  else if p.endpointId > 0 then
    if d.cacheEntryFlag env n.nodeid &&& nodeFlagsSecurity2 ≠ 0 ∧
        d.cacheEntryFlag env env.myNodeId &&& nodeFlagsSecurity2 ≠ 0 then
      d.epRequest env n p .secureCommands
    else d.epGoto p.addr .probeSec0Info
  else if d.cacheEntryFlag env env.myNodeId &&& nodeFlagSecurity2Access ≠ 0 then
    d.epRequest env n p .secureCommands
  else d.epGoto p.addr p.state.next

/-- `EP_STATE_PROBE_SEC2_C1_INFO` and `EP_STATE_PROBE_SEC2_C0_INFO`, for their levels. -/
def probeSec2Level (level : UInt8) (n : Node) (p : Endpoint) : State :=
  if !shouldProbeLevel n p level then d.epGoto p.addr p.state.next
  else if p.endpointId > 0 ∧ d.cacheEntryFlag env n.nodeid &&& level = 0 then
    d.epGoto p.addr p.state.next
  else if d.cacheEntryFlag env env.myNodeId &&& level ≠ 0 then d.epRequest env n p .secureCommands
  else d.epGoto p.addr p.state.next

def probeSec0Info (n : Node) (p : Endpoint) : State :=
  if !d.supportsCmdClass n.nodeid 0x98 ∨ isLrNode n.nodeid then d.epGoto p.addr .probeVersion
  else if p.endpointId > 0 ∧ d.cacheEntryFlag env n.nodeid &&& nodeFlagSecurity0 = 0 then
    d.epGoto p.addr .probeVersion
  else if d.cacheEntryFlag env env.myNodeId &&& nodeFlagSecurity0 ≠ 0 then
    d.epRequest env n p .secureCommands
  else d.epGoto p.addr .probeVersion

def probeZwavePlus (n : Node) (p : Endpoint) : State :=
  let d := d.modifyEp p.addr fun p => { p with installerIconId := 0, userIconId := 0 }
  if epClassSupport n.toNodeHeader p.toEpEntry 0x5E &&& supported ≠ 0 then
    d.epRequest env n p .zwavePlusInfo
  else d.epGoto p.addr p.state.next

def epProbeState (n : Node) (p : Endpoint) : State :=
  match p.state with
  | .probeAggregatedEndpoints => d.epRequest env n p .aggregatedMembers
  | .probeInfo => d.probeInfo env n p
  | .probeSec2C2Info => d.probeSec2C2Info env n p
  | .probeSec2C1Info => d.probeSec2Level env nodeFlagSecurity2Authenticated n p
  | .probeSec2C0Info => d.probeSec2Level env nodeFlagSecurity2Unauthenticated n p
  | .probeSec0Info => d.probeSec0Info env n p
  | .probeVersion => d.probeCcVersion env n p
  | .probeZwavePlus => d.probeZwavePlus env n p
  | .mdnsProbe =>
    match (d.setEpState p.addr .mdnsProbeInProgress).startNameProbe (.ep p.addr) with
    | (true, d) => d
    | (false, d) => d.epGoto p.addr .probeDone
  | .mdnsProbeInProgress => d
  | .probeFail => d.call (.nodeProbeUpdate n.addr)
  | .probeDone => d.call (.nodeProbeUpdate n.addr)

def epProbeUpdate (e : Addr) : State :=
  if d.currentProbeEntry.isNone then d
  else
    match d.ep? e with
    | none => d
    | some (n, p) =>
      if env.isVirtual n.nodeid then d.call (.removeNode n.nodeid)
      else d.epProbeState env n p

def probeResume : State :=
  match d.currentProbeEntry with
  | some a => d.call (.nodeProbeUpdate a)
  | none =>
    match (List.range' 1 zwMaxNodes).findSome? fun i => (d.nodeGetRaw (UInt16.ofNat i)).filter fun n =>
        n.state ≠ .done ∧ n.state ≠ .probeFail ∧ n.state ≠ .failing with
    | some n => { d with currentProbeEntry := some n.addr }.call (.nodeProbeUpdate n.addr)
    | none => d

end State

end ZipGateway.Directory

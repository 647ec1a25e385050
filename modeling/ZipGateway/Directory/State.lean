import ZipGateway.Directory.DataStore

/-!
# The state of the resource directory

`ResourceDirectory.c` keeps an entry for every node of the network and interviews the nodes one after
the other. Entries and endpoints are allocated, and pointers to them are kept in static variables, in
timers, in requests that wait for a reply, and by the mDNS server. An address stands for such a pointer;
the heap has what is allocated and `ndb` says which entry is in the database. Reading through a pointer
to something that was freed is undefined, and nothing happens here.

Functions of the source that call each other until the interview waits for something are taken apart: a
call is put on `calls`, and one step of the machine carries out the topmost.
-/

namespace ZipGateway.Directory

abbrev Addr := Nat

def zwMaxNodes : Nat := 4000
def zwLrMaxNodeIdInNvm : Nat := 1279

def modeNonlistening : UInt32 := 1
def modeAlwayslistening : UInt32 := 2
def modeFrequentlylistening : UInt32 := 3
def modeMailbox : UInt32 := 4
def modeFlagsDeleted : UInt32 := 0x0100
def modeFlagsFailed : UInt32 := 0x0200

def rdNodeFlagPortable : UInt16 := 0x01
def rdNodeFlagJustAdded : UInt16 := 0x02
def rdNodeFlagAddedByMe : UInt16 := 0x04

def rdNodeProbeNeverStarted : UInt16 := 0x00
def rdNodeFlagProbeStarted : UInt16 := 0x01
def rdNodeFlagProbeFailed : UInt16 := 0x02
def rdNodeFlagProbeHasCompleted : UInt16 := 0x03

def defaultWakeUpInterval : UInt32 := 70 * 60

inductive PcvState where
  | idle
  | sendVersionCcGet
  | lastReport
  | checkIfV3
  | sendVersionCapGet
  | sendVersionZwsGet
  | versionProbeDone
deriving DecidableEq, Repr

inductive PcvEvent where
  | initial
  | start
  | ccProbed
  | ccNotSupport
  | versionCcReportRecv
  | versionCcCallbackFail
  | notLast
  | versionCcDone
  | isV3
  | notV3
  | versionCapReportRecv
  | versionCapCallbackFail
  | capProbed
  | versionZwsReportRecv
  | versionZwsCallbackFail
  | zwsProbed
  | zwsNotSupport
deriving DecidableEq, Repr

/-- `ProbeCCVersionState_t`, with `rd_ep_probe_cc_version_callback`. -/
structure Pcvs where
  probeCcIdx : Nat
  state : PcvState
deriving DecidableEq, Repr

structure Endpoint extends EpEntry where
  addr : Addr
deriving DecidableEq

structure Node extends NodeHeader where
  addr : Addr
  endpoints : List Endpoint
  pcvs : Option Pcvs
deriving DecidableEq

def Node.entry (n : Node) : NodeEntry :=
  { n with endpoints := n.endpoints.map Endpoint.toEpEntry }

def NodeHeader.failed (n : NodeHeader) : Bool :=
  n.mode &&& modeFlagsFailed != 0

def NodeHeader.modeValue (n : NodeHeader) : UInt32 :=
  n.mode &&& 0xFF

/-- The requests of the interview, by their callbacks: five for a node, the others for an endpoint. -/
inductive RequestKind where
  | vendor
  | epGet
  | epFind
  | capWakeUp
  | wakeUp
  | aggregatedMembers
  | capability
  | secureCommands
  | zwavePlusInfo
  | ccVersion
  | versionCapabilities
  | versionZwaveSoftware
deriving DecidableEq, Repr

def RequestKind.forNode : RequestKind → Bool
  | .vendor | .epGet | .epFind | .capWakeUp | .wakeUp => true
  | _ => false

structure Request where
  node : NodeId
  kind : RequestKind
  user : Addr
  waiting : Bool
deriving DecidableEq, Repr

inductive Ref where
  | node (a : Addr)
  | ep (e : Addr)
deriving DecidableEq, Repr

def Request.ref (r : Request) : Ref :=
  if r.kind.forNode then .node r.user else .ep r.user

/-- A call still to be carried out: `erase` is `rd_remove_node` after the abort of the requests, `importNode`
one round in `rd_init`. -/
inductive Call where
  | nodeProbeUpdate (a : Addr)
  | epProbeUpdate (e : Addr)
  | probeResume
  | pcvPostEvent (e : Addr) (ev : PcvEvent)
  | registerNewNode (node : NodeId) (flags : UInt16)
  | removeNode (node : NodeId)
  | eraseNode (node : NodeId)
  | importNode (node : NodeId)
deriving DecidableEq, Repr

def Call.refs : Call → List Ref
  | .nodeProbeUpdate a => [.node a]
  | .epProbeUpdate e => [.ep e]
  | .pcvPostEvent e _ => [.ep e]
  | _ => []

structure State where
  heap : List Node
  ndb : NodeId → Option Addr
  fresh : Addr
  db : Database
  currentProbeEntry : Option Addr
  nifRequestEp : Option Addr
  probeLock : Bool
  nifRequestTimer : Option Addr
  findReportTimer : Option Addr
  epProbeUpdateTimer : Option Addr
  nodeProbeUpdateTimer : Option Addr
  requests : List Request
  wuIntervalSets : List Addr
  returnRoutes : Nat
  nameProbe : Option Ref
  identicalEndpoints : Bool
  requestedCommandClass : UInt8
  calls : List Call

/-- What the directory asks of its surroundings in one step; `staleEpid` is what an uninitialised variable
holds. -/
structure Env where
  booting : Bool
  mdnsRunning : Bool
  isVirtual : NodeId → Bool
  myNodeId : NodeId
  mbEnabled : Bool
  sucNodeId : NodeId
  now : UInt32
  accepts : Bool
  allocates : Bool
  allocatesEndpoint : Bool
  staleEpid : UInt8
  basicType : UInt8
  listening : Bool
  frequentlyListening : Bool
  productId : UInt16
  manufacturerId : UInt16
  productType : UInt16
  homeId : UInt32
  ipNif : Bytes
  ipSecureClasses : Bytes

namespace State

def empty (db : Database) : State where
  heap := []
  ndb := fun _ => none
  fresh := 0
  db := db
  currentProbeEntry := none
  nifRequestEp := none
  probeLock := false
  nifRequestTimer := none
  findReportTimer := none
  epProbeUpdateTimer := none
  nodeProbeUpdateTimer := none
  requests := []
  wuIntervalSets := []
  returnRoutes := 0
  nameProbe := none
  identicalEndpoints := false
  requestedCommandClass := 0
  calls := []

/-! ### Reading and writing through pointers -/

def node? (d : State) (a : Addr) : Option Node :=
  d.heap.find? fun n => n.addr = a

def ep? (d : State) (e : Addr) : Option (Node × Endpoint) :=
  d.heap.findSome? fun n => (n.endpoints.find? fun p => p.addr = e).map fun p => (n, p)

def nodeGetRaw (d : State) (node : NodeId) : Option Node :=
  (d.ndb node).bind d.node?

def modifyNode (d : State) (a : Addr) (f : Node → Node) : State :=
  { d with heap := d.heap.map fun n => if n.addr = a then f n else n }

def modifyEp (d : State) (e : Addr) (f : Endpoint → Endpoint) : State :=
  { d with
    heap := d.heap.map fun n =>
      { n with endpoints := n.endpoints.map fun p => if p.addr = e then f p else p } }

def setState (d : State) (a : Addr) (s : NodeState) : State :=
  d.modifyNode a fun n => { n with state := s }

def setEpState (d : State) (e : Addr) (s : EpState) : State :=
  d.modifyEp e fun p => { p with state := s }

def call (d : State) (c : Call) : State :=
  { d with calls := c :: d.calls }

def goto (d : State) (a : Addr) (s : NodeState) : State :=
  (d.setState a s).call (.nodeProbeUpdate a)

def epGoto (d : State) (e : Addr) (s : EpState) : State :=
  (d.setEpState e s).call (.epProbeUpdate e)

/-- `rd_data_store_update`, and `rd_data_store_nvm_write`. -/
def persist (d : State) (a : Addr) : State :=
  match d.node? a with
  | some n => { d with db := d.db.nvmWrite n.entry }
  | none => d

def sendRequest (d : State) (env : Env) (node : NodeId) (kind : RequestKind) (user : Addr) : Bool × State :=
  if env.accepts then (true, { d with requests := d.requests ++ [⟨node, kind, user, false⟩] })
  else (false, d)

def startNameProbe (d : State) (r : Ref) : Bool × State :=
  match d.nameProbe with
  | some _ => (false, d)
  | none => (true, { d with nameProbe := some r })

/-! ### Command classes and flags -/

def supportBit (secure controlled : Bool) : UInt8 :=
  match secure, controlled with
  | false, false => 0x1
  | false, true => 0x2
  | true, false => 0x4
  | true, true => 0x8

def classSupportFrom (cls : UInt16) (secure controlled : Bool) : Bytes → UInt8
  | [] => 0
  | b :: b' :: rest =>
    if b &&& 0xF0 = 0xF0 then
      let c := b.toUInt16 * 256 + b'.toUInt16
      if c = 0xF100 then classSupportFrom cls true false rest
      else if c = cls then
        supportBit secure controlled ||| classSupportFrom cls secure controlled rest
      else classSupportFrom cls secure controlled rest
    else if b = 0xEF then classSupportFrom cls secure true (b' :: rest)
    else if b.toUInt16 = cls then
      supportBit secure controlled ||| classSupportFrom cls secure controlled (b' :: rest)
    else classSupportFrom cls secure controlled (b' :: rest)
  | [b] =>
    if b.toUInt16 = cls ∧ b ≠ 0xEF then supportBit secure controlled else 0

def supported : UInt8 := 0x5
def supportedNonSec : UInt8 := 0x1

def epClassSupport (n : NodeHeader) (p : EpEntry) (cls : UInt16) : UInt8 :=
  if n.mode &&& modeFlagsDeleted ≠ 0 then 0
  else classSupportFrom cls false false (p.info.val.drop 2)

def supportsCmdClassFlags (d : State) (node : NodeId) (cls : UInt16) : UInt8 :=
  match d.nodeGetRaw node with
  | none => 0
  | some n =>
    match n.endpoints with
    | [] => 0
    | p :: _ => epClassSupport n.toNodeHeader p.toEpEntry cls

def supportsCmdClass (d : State) (node : NodeId) (cls : UInt16) : Bool :=
  d.supportsCmdClassFlags node cls &&& supportedNonSec ≠ 0

def cacheEntryFlag (d : State) (env : Env) (node : NodeId) : UInt8 :=
  let node := if env.isVirtual node then env.myNodeId else node
  match d.nodeGetRaw node with
  | none => 0
  | some n => n.securityFlags

end State

def nodeFlagSecurity0 : UInt8 := 0x01
def nodeFlagKnownBad : UInt8 := 0x02
def nodeFlagInfoOnly : UInt8 := 0x08
def nodeFlagSecurity2Unauthenticated : UInt8 := 0x10
def nodeFlagSecurity2Authenticated : UInt8 := 0x20
def nodeFlagSecurity2Access : UInt8 := 0x40
def nodeFlagsSecurity2 : UInt8 := 0x70

def controlledCcV : List UInt16 :=
  [0x86, 0x5E, 0x72, 0x84, 0x60, 0x85, 0x8E, 0xFFFF]

/-- The bytes of `controlled_cc_v`: class, version, and a byte that fills up. -/
def controlledCcVBytes : Bytes :=
  controlledCcV.flatMap fun cc : UInt16 =>
    [cc.toUInt8, (cc >>> 8).toUInt8, if cc = 0xFFFF then 0xFF else 0, 0]

def ccVersionsSetDefault (v : Blob) : Blob :=
  .ofBytes (controlledCcVBytes.take v.val.length)

def ccVersionGetFrom (cls : UInt16) : Bytes → UInt8
  | lo :: hi :: v :: _ :: rest =>
    if hi.toUInt16 * 256 + lo.toUInt16 = cls then v else ccVersionGetFrom cls rest
  | _ => 0

def ccVersionSetIn (cls : UInt16) (version : UInt8) : Bytes → Bytes
  | lo :: hi :: v :: fill :: rest =>
    if hi.toUInt16 * 256 + lo.toUInt16 = cls then lo :: hi :: version :: fill :: rest
    else lo :: hi :: v :: fill :: ccVersionSetIn cls version rest
  | bytes => bytes

def NodeHeader.ccVersion (n : NodeHeader) (cls : UInt16) : UInt8 :=
  if n.mode &&& modeFlagsDeleted ≠ 0 then 0 else ccVersionGetFrom cls n.ccVersions.val

def NodeHeader.setCcVersion (n : NodeHeader) (cls : UInt16) (version : UInt8) : NodeHeader :=
  if n.mode &&& modeFlagsDeleted ≠ 0 then n
  else { n with ccVersions := .ofBytes (ccVersionSetIn cls version n.ccVersions.val) }

end ZipGateway.Directory

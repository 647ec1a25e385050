import ZipGateway.Bridge.TempAssoc

/-!
# IP associations

`Bridge_ip_assoc.c` serves the IP Association command class. An association is a block of a pool of
200 and is linked in `ip_association_table`. It is set up in steps, each with a callback: a virtual
node is added where one is needed, the association is sent to the source node, and return routes are
assigned. A removal goes the same way back, one association after the other.

Callbacks are pending until the environment delivers them, in any order. The log has the answers of
the environment, the acknowledgements and completions, and what else leaves the module.
-/

namespace ZipGateway.IpAssoc

abbrev Block := Fin 200

def associationSet : UInt8 := 0x01
def associationGet : UInt8 := 0x02
def associationRemove : UInt8 := 0x04
def transmitCompleteError : UInt8 := 0xFF

def commandClassAssociation : UInt8 := 0x85
def commandClassMultiChannel : UInt8 := 0x60
def commandClassMultiChannelAssociation : UInt8 := 0x8E
def multiChannelCmdEncap : UInt8 := 0x0D
def associationMarker : UInt8 := 0x00

def zwavePort : UInt16 := 4123
def dtlsPort : UInt16 := 41230
def ipAssocSetFixedSize : Nat := 20
def ipAssocGetFrameSize : Nat := 4

inductive AssocType where
  | unset
  | permanent
  | localAssoc
  | proxy
deriving DecidableEq, Repr

structure Assoc where
  virtualId : NodeId
  type : AssocType
  resourceIp : IpAddr
  resourceEndpoint : UInt8
  resourcePort : UInt16
  virtualEndpoint : UInt8
  grouping : UInt8
  hanNodeid : NodeId
  hanEndpoint : UInt8
  wasDtls : UInt8
  markRemoval : UInt8
deriving DecidableEq, Repr

def Assoc.zero : Assoc :=
  ⟨0, .unset, 0, 0, 0, 0, 0, 0, 0, 0, 0⟩

/-- A Z/IP packet in the backup buffer, with `len` as it is handed to `handle_ip_association` and `payloadLen`
as `zip_payload_len`. -/
structure Frame where
  payload : Mem
  len : UInt8
  payloadLen : Nat
  destNode : NodeId
  destEndpoint : UInt8
  srcIp : IpAddr
  srcPort : UInt16
  srcEndpoint : UInt8
  wasDtls : UInt8
  sendNack : Bool
  firstQueue : Bool

namespace Frame

def command (f : Frame) : UInt8 := f.payload 1
def grouping (f : Frame) : UInt8 := f.payload 2
def index (f : Frame) : UInt8 := f.payload 3
def endpoint (f : Frame) : UInt8 := f.payload 19

def resourceIp (f : Frame) : IpAddr :=
  (f.payload.slice 3 16).foldl (fun ip b => ip <<< 8 ||| b.toBitVec.zeroExtend 128) 0

def zero : Frame :=
  ⟨fun _ => 0, 0, 0, 0, 0, 0, 0, 0, 0, false, false⟩

end Frame

structure Directory where
  nodeExists : NodeId → Bool
  hasEndpoint : NodeId → UInt8 → Bool
  epSupports : NodeId → UInt8 → UInt8 → Bool
  supports : NodeId → UInt8 → Bool

/-- The directory at every step, and what becomes of the calls into the serial API, one after the
other: whether `ZW_SetSlaveLearnMode`, `ZW_SendDataAppl` and `ZW_AssignReturnRoute` take the request,
and whether `ZW_SendDataZIP` is ever going to call back. -/
structure Env where
  nodeOfIp : IpAddr → NodeId
  directory : Nat → Directory
  learnMode : Nat → Bool
  sendAppl : Nat → Bool
  assignRoute : Nat → Bool
  sendZip : Nat → Bool

inductive Pending where
  | virtualAdd
  | association (i : Block)
  | returnRoute
  | removal (i : Block)
  | virtualRemove
  | report
deriving DecidableEq, Repr

inductive Post where
  | componentDone
  | virtNodeRemoveDone
deriving DecidableEq, Repr

/-- The log; `ack` is a Z/IP acknowledgement, `unregistered` a call of `rd_remove_node` with whether there was
the node. -/
inductive Out where
  | handled (f : Frame)
  | nodeRemoved (node : NodeId) (matching : Nat)
  | callback (p : Pending) (status : UInt8)
  | routeAssigned (i : Option Block) (status : UInt8)
  | learnMode (add : Bool) (node : NodeId) (accepted : Bool)
  | sent (dest : NodeId) (frame : Bytes) (accepted : Bool)
  | route (src dest : NodeId) (accepted : Bool)
  | reported (grouping index actualNodes : UInt8) (dest : Option (IpAddr × UInt8)) (calledBack : Bool)
  | unregistered (type : AssocType) (node : NodeId) (existed : Bool)
  | ack (ok : Bool)
  | completed (status : UInt8)
  | posted (p : Post)

/-- The pool, the table and the static variables; `createCb` is the type of `ip_assoc_create_complete_cb`,
`virtualAdd` is `ip_assoc_virtual_add_callback_state` while it points into the backup buffer. -/
structure State where
  mem : Block → Assoc
  allocated : Block → Bool
  table : List Block
  returnRouteFor : Option Block
  marked : Nat
  createCb : Option AssocType
  virtualAdd : Option (AssocType × UInt8)
  backup : Frame
  pending : List Pending
  nLearn : Nat
  nSend : Nat
  nRoute : Nat
  nZip : Nat
  clock : Nat
  out : List Out

/-- What a removal looks for; no address, and the address zero, fit everything. -/
structure Selector where
  node : NodeId
  endpoint : UInt8
  grouping : UInt8
  ip : Option IpAddr

def Selector.picks (q : Selector) (a : Assoc) : Bool :=
  a.hanNodeid = q.node ∧ (q.endpoint = 0 ∨ a.hanEndpoint = q.endpoint) ∧ (q.grouping = 0 ∨ a.grouping = q.grouping) ∧
    (q.ip = none ∨ q.ip = some 0 ∨ q.ip = some a.resourceIp)

def Frame.selector (f : Frame) : Selector :=
  ⟨f.destNode, f.destEndpoint, f.grouping, some f.resourceIp⟩

namespace State

def init : State where
  mem := fun _ => Assoc.zero
  allocated := fun _ => false
  table := []
  returnRouteFor := none
  marked := 0
  createCb := none
  virtualAdd := none
  backup := Frame.zero
  pending := []
  nLearn := 0
  nSend := 0
  nRoute := 0
  nZip := 0
  clock := 0
  out := []

def put (s : State) (o : Out) : State :=
  { s with out := o :: s.out }

def await (s : State) (p : Pending) : State :=
  { s with pending := p :: s.pending }

def withMem (s : State) (i : Block) (a : Assoc) : State :=
  { s with mem := Function.update s.mem i a }

def withTable (s : State) (table : List Block) : State :=
  { s with table := table }

def withCreateCb (s : State) (cb : Option AssocType) : State :=
  { s with createCb := cb }

def withVirtualAdd (s : State) (v : Option (AssocType × UInt8)) : State :=
  { s with virtualAdd := v }

def withReturnRouteFor (s : State) (i : Option Block) : State :=
  { s with returnRouteFor := i }

def withMarked (s : State) (n : Nat) : State :=
  { s with marked := n }

def directory (s : State) (env : Env) : Directory :=
  env.directory s.clock

def sendZipAck (s : State) (status : UInt8) : State :=
  if status = transmitCompleteOk then s.put (.ack true)
  else if s.backup.sendNack then s.put (.ack false)
  else s

def reportSendCompleted (s : State) (status : UInt8) : State :=
  s.put (.completed status)

def setSlaveLearnMode (env : Env) (s : State) (add : Bool) (node : NodeId) (p : Pending) : Bool × State :=
  let ok := env.learnMode s.nLearn
  let s := { s with nLearn := s.nLearn + 1 }.put (.learnMode add node ok)
  (ok, if ok then s.await p else s)

def sendDataAppl (env : Env) (s : State) (dest : NodeId) (frame : Bytes) (p : Pending) : Bool × State :=
  let ok := env.sendAppl s.nSend
  let s := { s with nSend := s.nSend + 1 }.put (.sent dest frame ok)
  (ok, if ok then s.await p else s)

def assignReturnRoute (env : Env) (s : State) (src dest : NodeId) : Bool × State :=
  let ok := env.assignRoute s.nRoute
  let s := { s with nRoute := s.nRoute + 1 }.put (.route src dest ok)
  (ok, if ok then s.await .returnRoute else s)

section Requests

variable (env : Env) (s : State) (p : Pending)

theorem setSlaveLearnMode_cases (add : Bool) (node : NodeId) :
    let u := { s with nLearn := s.nLearn + 1 }
    s.setSlaveLearnMode env add node p = (true, (u.put (.learnMode add node true)).await p) ∨
      s.setSlaveLearnMode env add node p = (false, u.put (.learnMode add node false)) := by
  unfold setSlaveLearnMode
  cases env.learnMode s.nLearn
  · exact .inr rfl
  · exact .inl rfl

theorem sendDataAppl_cases (dest : NodeId) (frame : Bytes) :
    let u := { s with nSend := s.nSend + 1 }
    s.sendDataAppl env dest frame p = (true, (u.put (.sent dest frame true)).await p) ∨
      s.sendDataAppl env dest frame p = (false, u.put (.sent dest frame false)) := by
  unfold sendDataAppl
  cases env.sendAppl s.nSend
  · exact .inr rfl
  · exact .inl rfl

end Requests

def rdRemoveNode (env : Env) (s : State) (type : AssocType) (node : NodeId) : State :=
  s.put (.unregistered type node (node ≠ 0 ∧ (s.directory env).nodeExists node))

def membAlloc (s : State) : Option Block × State :=
  match (List.finRange 200).find? fun i => !s.allocated i with
  | some i => (some i, { s with allocated := Function.update s.allocated i true })
  | none => (none, s)

def membFree (s : State) (i : Block) : State :=
  { s with allocated := Function.update s.allocated i false }

/-! ### Removal -/

def findAndMarkForRemoval (s : State) (q : Selector) : State :=
  { s with
    mem := fun i =>
      if i ∈ s.table ∧ q.picks (s.mem i) then { s.mem i with markRemoval := 1 } else s.mem i
    marked := s.table.countP fun i => q.picks (s.mem i) }

def removalFrame (env : Env) (s : State) (a : Assoc) : Bytes :=
  let node := if a.type = .localAssoc then env.nodeOfIp a.resourceIp else a.virtualId
  if (s.directory env).supports a.hanNodeid commandClassMultiChannelAssociation then
    [commandClassMultiChannelAssociation, associationRemove, a.grouping, associationMarker,
      node.toUInt8, if a.type = .localAssoc then a.resourceEndpoint else a.virtualEndpoint]
  else
    [commandClassAssociation, associationRemove, a.grouping, node.toUInt8]

section Chain

variable (env : Env) (next : State → State)

def removeWith (s : State) (i : Block) : State :=
  let a := s.mem i
  let s := (s.rdRemoveNode env a.type a.virtualId).withTable (s.table.erase i)
  let s :=
    if a.type = .permanent then
      match s.setSlaveLearnMode env false a.virtualId .virtualRemove with
      | (true, s) => s
      | (false, s) => next s
    else
      next s
  s.membFree i

/-- `ip_assoc_abort`. -/
def abortWith (s : State) (a : Option Block) (status : UInt8) : State :=
  match a with
  | some i => (s.removeWith env next i).reportSendCompleted status
  | none => s.reportSendCompleted status

/-- `ip_assoc_setup_and_send_assoc_remove_cmd`. -/
def sendAssocRemoveWith (s : State) (i : Block) : State :=
  let a := s.mem i
  if (s.directory env).nodeExists a.hanNodeid then
    match s.sendDataAppl env a.hanNodeid (s.removalFrame env a) (.removal i) with
    | (true, s) => s
    | (false, s) =>
      (s.sendZipAck transmitCompleteError).abortWith env next (some i) transmitCompleteError
  else
    s.removeWith env next i

def firstMarked (s : State) : Option Block :=
  s.table.find? fun i => (s.mem i).markRemoval = 1

/-- `ip_assoc_remove_all_marked_for_removal`. -/
def removeAllMarkedWith (s : State) : State :=
  match s.firstMarked with
  | some i => s.sendAssocRemoveWith env next i
  | none => (s.sendZipAck transmitCompleteOk).abortWith env next none transmitCompleteOk

end Chain

def finishRemoval (s : State) : State :=
  ((s.sendZipAck transmitCompleteOk).reportSendCompleted transmitCompleteOk).put (.posted .virtNodeRemoveDone)

def continueRemoval (env : Env) : Nat → State → State
  | 0, s => s
  | n + 1, s =>
    let s := s.withMarked (s.marked - 1)
    if s.marked ≠ 0 then s.removeAllMarkedWith env (continueRemoval env n) else s.finishRemoval

def continueWithNext (env : Env) (s : State) : State :=
  s.continueRemoval env (s.marked + 1)

def remove (env : Env) (s : State) (i : Block) : State :=
  s.removeWith env (continueWithNext env) i

def abort (env : Env) (s : State) (a : Option Block) (status : UInt8) : State :=
  s.abortWith env (continueWithNext env) a status

def removeAllMarked (env : Env) (s : State) : State :=
  s.removeAllMarkedWith env (continueWithNext env)

/-! ### Set-up -/

def addToAssociationTable (s : State) (i : Block) : State :=
  if s.table.any fun j => s.mem j = s.mem i then s.membFree i
  else s.withTable (s.table.erase i ++ [i])

def localFields (a : Assoc) (f : Frame) : Assoc :=
  { a with
    type := .localAssoc, resourceIp := f.resourceIp, resourcePort := uipHtons dtlsPort
    resourceEndpoint := f.endpoint, grouping := f.grouping, hanNodeid := f.destNode
    hanEndpoint := f.destEndpoint }

def createLocal (s : State) (f : Frame) : Option Block × State :=
  match s.membAlloc with
  | (none, s) => (none, s)
  | (some i, s) => (some i, (s.withMem i (localFields (s.mem i) f)).addToAssociationTable i)

def sendIpAssociationCmd (env : Env) (s : State) (i : Block) (frame : Bytes) : State :=
  match s.sendDataAppl env (s.mem i).hanNodeid frame (.association i) with
  | (true, s) => s
  | (false, s) => (s.sendZipAck transmitCompleteError).abort env (some i) transmitCompleteError

def encapsulate (endpoint : UInt8) (frame : Bytes) : Bytes :=
  if endpoint ≠ 0 then [commandClassMultiChannel, multiChannelCmdEncap, 0, endpoint] ++ frame
  else frame

def permanentFrame (a : Assoc) : Bytes :=
  encapsulate a.hanEndpoint (if a.virtualEndpoint ≠ 0 then
      [commandClassMultiChannelAssociation, associationSet, a.grouping, a.virtualId.toUInt8,
        associationMarker, a.virtualId.toUInt8, a.virtualEndpoint]
    else
      [commandClassAssociation, associationSet, a.grouping, a.virtualId.toUInt8])

def proxyFrame (a : Assoc) : Bytes :=
  [commandClassAssociation, associationSet, a.grouping, a.virtualId.toUInt8]

def createCallback (env : Env) (s : State) (frame : Assoc → Bytes) : Option Block → State
  | some i => s.sendIpAssociationCmd env i (frame (s.mem i))
  | none => (s.sendZipAck transmitCompleteError).abort env none transmitCompleteError

def callCreateCompleteCb (env : Env) (s : State) (a : Option Block) : State :=
  let cb := s.createCb
  let s := s.withCreateCb none
  let s :=
    match cb with
    | some .permanent => s.createCallback env permanentFrame a
    | some .proxy => s.createCallback env proxyFrame a
    | some .unset | some .localAssoc | none => s
  s.put (.posted .componentDone)

def findExisting (s : State) (type : AssocType) (wasDtls : UInt8) : Option Block :=
  s.table.find? fun i =>
    (s.mem i).type = type ∧ s.backup.destNode = (s.mem i).hanNodeid ∧
      (s.mem i).resourceIp = s.backup.srcIp ∧ (s.mem i).resourcePort = s.backup.srcPort ∧
      (s.mem i).resourceEndpoint = s.backup.srcEndpoint ∧ (s.mem i).wasDtls = wasDtls

def ipAssocCreate (env : Env) (s : State) (type : AssocType) (f : Frame) : Bool × State :=
  if s.createCb.isSome then
    (false, s)
  else
    let s := s.withCreateCb (some type)
    match s.findExisting type f.wasDtls with
    | some i =>
      let s := s.withMem i { s.mem i with hanEndpoint := s.backup.destEndpoint }
      (true, s.callCreateCompleteCb env (some i))
    | none =>
      let s := s.withVirtualAdd (some (type, f.wasDtls))
      match s.setSlaveLearnMode env true 0 .virtualAdd with
      | (true, s) => (true, s)
      | (false, s) => (false, (s.withVirtualAdd none).callCreateCompleteCb env none)

def virtualSource (type : AssocType) (wasDtls : UInt8) (newId : NodeId) (f : Frame) : Assoc :=
  { Assoc.zero with
    type := type, wasDtls := wasDtls, virtualId := newId, hanNodeid := f.destNode
    hanEndpoint := f.destEndpoint }

def virtualFields (type : AssocType) (wasDtls : UInt8) (newId : NodeId) (f : Frame) : Assoc :=
  { virtualSource type wasDtls newId f with
    grouping := f.grouping, resourceIp := f.resourceIp, resourceEndpoint := f.endpoint
    resourcePort := uipHtons (if type = .proxy then zwavePort else dtlsPort) }

def setupAndSave (env : Env) (s : State) (i : Block) (type : AssocType) (wasDtls : UInt8) (newId : NodeId) : State :=
  if s.backup.payloadLen < ipAssocSetFixedSize then
    ((s.withMem i (virtualSource type wasDtls newId s.backup)).membFree i)
      |>.callCreateCompleteCb env none
  else
    ((s.withMem i (virtualFields type wasDtls newId s.backup)).addToAssociationTable i)
      |>.callCreateCompleteCb env (some i)

def virtualAddCallback (env : Env) (s : State) (status : AssignStatus) (newId : NodeId) : State :=
  let v := s.virtualAdd
  let s := s.withVirtualAdd none
  if status = .nodeidDone then
    match v with
    | none => s
    | some (type, wasDtls) =>
      match s.membAlloc with
      | (some i, s) => s.setupAndSave env i type wasDtls newId
      | (none, s) => s.callCreateCompleteCb env none
  else
    s.callCreateCompleteCb env none

def assignReturnRouteCallback (env : Env) (s : State) (status : UInt8) : State :=
  let a := s.returnRouteFor
  let s := ((s.withReturnRouteFor none).put (.routeAssigned a status)).sendZipAck status
  if status ≠ transmitCompleteOk then s.abort env a transmitCompleteFail
  else s.reportSendCompleted transmitCompleteOk

def sendIpAssociationCmdCallback (env : Env) (s : State) (i : Block) (status : UInt8) : State :=
  if status = transmitCompleteOk then
    let a := s.mem i
    let dest := if a.type = .localAssoc then env.nodeOfIp a.resourceIp else a.virtualId
    match (s.withReturnRouteFor (some i)).assignReturnRoute env a.hanNodeid dest with
    | (true, s) => s
    | (false, s) =>
      ((s.withReturnRouteFor none).sendZipAck transmitCompleteFail).abort env (some i)
        transmitCompleteFail
  else
    (s.sendZipAck transmitCompleteFail).abort env (some i) transmitCompleteFail

def removeCallback (env : Env) (s : State) (i : Block) (status : UInt8) : State :=
  if status = transmitCompleteOk ∨ status = transmitCompleteNoAck then
    s.remove env i
  else
    (s.sendZipAck transmitCompleteFail).reportSendCompleted transmitCompleteOk

/-! ### Commands -/

def refuse (s : State) : State :=
  (s.sendZipAck transmitCompleteError).reportSendCompleted transmitCompleteError

def localSupported (d : Directory) (f : Frame) : Bool :=
  if f.destEndpoint = 0 then
    d.epSupports f.destNode 0 (if f.endpoint = 0 then commandClassAssociation else commandClassMultiChannelAssociation)
  else
    d.supports f.destNode commandClassMultiChannel ∧ d.epSupports f.destNode f.destEndpoint
        (if f.endpoint = 0 then commandClassAssociation else commandClassMultiChannelAssociation)

def needsProxy (d : Directory) (f : Frame) : Bool :=
  f.destEndpoint = 0 ∧ f.endpoint ≠ 0 ∧ ¬d.supports f.destNode commandClassMultiChannelAssociation

def permanentSupported (d : Directory) (f : Frame) : Bool :=
  if f.destEndpoint = 0 then
    d.epSupports f.destNode 0 commandClassAssociation
  else
    d.epSupports f.destNode f.destEndpoint commandClassMultiChannel ∨
      d.epSupports f.destNode f.destEndpoint commandClassAssociation

def localFrame (env : Env) (f : Frame) : Bytes :=
  let node := (env.nodeOfIp f.resourceIp).toUInt8
  encapsulate f.destEndpoint (if f.endpoint = 0 then
      [commandClassAssociation, associationSet, f.grouping, node]
    else
      [commandClassMultiChannelAssociation, associationSet, f.grouping, node, associationMarker, node, f.endpoint])

inductive SetPath where
  | refused
  | localAssoc
  | virtual (type : AssocType)
deriving DecidableEq, Repr

def setPath (env : Env) (s : State) (f : Frame) : SetPath :=
  let d := s.directory env
  if ¬d.hasEndpoint f.destNode f.destEndpoint then .refused
  else if env.nodeOfIp f.resourceIp ≠ 0 then
    if ¬localSupported d f then .refused
    else if needsProxy d f then .virtual .proxy
    else .localAssoc
  else if ¬permanentSupported d f then .refused
  else .virtual .permanent

def handleIpAssociationSet (env : Env) (s : State) (f : Frame) : State :=
  match setPath env s f with
  | .refused => s.refuse
  | .localAssoc =>
    match s.createLocal f with
    | (none, s) => s.refuse
    | (some i, s) => s.sendIpAssociationCmd env i (localFrame env f)
  | .virtual type =>
    match s.ipAssocCreate env type f with
    | (true, s) => s
    | (false, s) => s.refuse

def groupMembers (s : State) (f : Frame) : List Block :=
  s.table.filter fun i =>
    (s.mem i).hanNodeid = f.destNode ∧ (s.mem i).hanEndpoint = f.destEndpoint ∧ (s.mem i).grouping = f.grouping

def handleIpAssociationGet (env : Env) (s : State) (f : Frame) : State :=
  let s := s.sendZipAck transmitCompleteOk
  let s :=
    if f.len.toNat < ipAssocGetFrameSize then s.reportSendCompleted transmitCompleteOk else s
  let members := s.groupMembers f
  let dest := members[(f.index - 1).toNat]?.map fun i =>
    ((s.mem i).resourceIp, (s.mem i).resourceEndpoint)
  let calledBack := env.sendZip s.nZip
  let s := { s with nZip := s.nZip + 1 }.put (.reported f.grouping f.index (UInt8.ofNat members.length) dest calledBack)
  if calledBack then s.await .report else s

def handleIpAssociationRemove (env : Env) (s : State) (f : Frame) : State :=
  if s.marked ≠ 0 then
    s.refuse
  else
    let s := s.findAndMarkForRemoval f.selector
    if s.marked ≠ 0 then s.removeAllMarked env
    else (s.sendZipAck transmitCompleteOk).reportSendCompleted transmitCompleteOk

def handleIpAssociation (env : Env) (s : State) (f : Frame) : State :=
  let s := { s with backup := f }.put (.handled f)
  if f.firstQueue ∧ f.command ≠ associationGet then
    s.reportSendCompleted transmitCompleteNoAck
  else if f.command = associationSet then
    s.handleIpAssociationSet env f
  else if f.command = associationRemove then
    s.handleIpAssociationRemove env f
  else if f.command = associationGet then
    s.handleIpAssociationGet env f
  else
    s.reportSendCompleted transmitCompleteOk

def removeByNodeid (env : Env) (s : State) (node : NodeId) : State :=
  let s := s.findAndMarkForRemoval ⟨node, 0, 0, none⟩
  let s := s.put (.nodeRemoved node s.marked)
  if s.marked ≠ 0 then s.removeAllMarked env else s.put (.posted .virtNodeRemoveDone)

/-- Callbacks, the commands and the other packets that reach the backup buffer, and nodes that leave
the network. -/
inductive Event where
  | command (f : Frame)
  | otherPacket (f : Frame)
  | nodeRemoved (node : NodeId)
  | virtualAdded (status : AssignStatus) (newId : NodeId)
  | associationSent (i : Block) (status : UInt8)
  | routeAssigned (status : UInt8)
  | removalSent (i : Block) (status : UInt8)
  | virtualRemoved
  | reportSent (status : UInt8)

def deliver (s : State) (p : Pending) (callback : State → State) : State :=
  if p ∈ s.pending then callback { s with pending := s.pending.erase p } else s

def handle (env : Env) (s : State) : Event → State
  | .command f => s.handleIpAssociation env f
  | .otherPacket f => { s with backup := f }
  | .nodeRemoved node => s.removeByNodeid env node
  | .virtualAdded status newId =>
    s.deliver .virtualAdd fun s => s.virtualAddCallback env status newId
  | .associationSent i status =>
    s.deliver (.association i) fun s =>
      (s.put (.callback (.association i) status)).sendIpAssociationCmdCallback env i status
  | .routeAssigned status =>
    s.deliver .returnRoute fun s => s.assignReturnRouteCallback env status
  | .removalSent i status =>
    s.deliver (.removal i) fun s =>
      (s.put (.callback (.removal i) status)).removeCallback env i status
  | .virtualRemoved => s.deliver .virtualRemove (continueWithNext env)
  | .reportSent status => s.deliver .report fun s => s.reportSendCompleted status

def step (env : Env) (s : State) (e : Event) : State :=
  { s with clock := s.clock + 1 }.handle env e

def run (env : Env) (s : State) (events : List Event) : State :=
  Machine.run (step env) s events

end State

end ZipGateway.IpAssoc

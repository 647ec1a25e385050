import ZipGateway.Packet

/-!
# Temporary associations

`Bridge_temp_assoc.c` gives every Z/IP client a virtual node from which its frames are sent on the
Z-Wave side. The associations are blocks of a pool of eight; `temp_association_table` lists those in
use, the oldest one first. Virtual nodes for classic nodes are created by the controller one by one,
those for long range nodes are fixed.

The state is that after `bridge_init`. The controller is the environment: it takes a request for a
virtual node or not, it calls back with the result, and it tells which virtual nodes it knows. Timers
may fire at any time. The assertions of the source are not compiled into a release.
-/

namespace ZipGateway

def maxLrTempAssociations : Nat := 4
def maxClassicTempAssociations : Nat := 4
def tempAssocVirtualAddRetryMax : Nat := 10

def lrTempAssocVirtualNodeids : List NodeId := [4002, 4003, 4004, 4005]

abbrev AssocBlock := Fin 8

inductive AssocRef where
  | unsol
  | pool (i : AssocBlock)
deriving DecidableEq, Repr

/-- What tells Z/IP clients apart, the port in network byte order. -/
structure ZipClient where
  ip : IpAddr
  port : UInt16
  endpoint : UInt8
  wasDtls : UInt8
deriving DecidableEq, Repr

structure TempAssociation where
  virtualId : NodeId
  virtualIdStatic : NodeId
  client : ZipClient
  isLongRange : Bool
deriving DecidableEq, Repr

/-- The part of `cfg` and of the network that matters here. -/
structure BridgeCfg where
  unsolicitedDest : IpAddr
  unsolicitedPort : UInt16
  myNodeId : NodeId

/-- `ASSIGN_COMPLETE`, `ASSIGN_NODEID_DONE`, and the status codes that should not come. -/
inductive AssignStatus where
  | complete
  | nodeidDone
  | other
deriving DecidableEq, Repr

inductive AssocOut where
  | answer (client : ZipClient) (isLongRange : Bool) (virtualId : Option NodeId)
  | recycled (virtualId : NodeId)
deriving DecidableEq, Repr

structure TempAssoc where
  allocated : AssocBlock → Bool
  mem : AssocBlock → TempAssociation
  table : List AssocBlock
  unsol : TempAssociation
  locked : Option AssocRef
  fwTimer : Bool
  virtualNodeids : List NodeId
  virtualNodesMask : NodeId → Bool
  nextNodeidIdx : Nat
  lrNextNodeidIdx : Nat
  retryCount : Nat
  learning : Bool
  stored : List NodeId
  out : List AssocOut

def TempAssociation.zero : TempAssociation :=
  ⟨0, 0, ⟨0, 0, 0, 0⟩, false⟩

def uipHtons (n : UInt16) : UInt16 :=
  n <<< 8 ||| n >>> 8

def BridgeCfg.unsolicited (cfg : BridgeCfg) (c : ZipClient) : Bool :=
  cfg.unsolicitedDest == c.ip && cfg.unsolicitedPort == uipHtons c.port

namespace TempAssoc

def init (stored : List NodeId) (mask : NodeId → Bool) : TempAssoc where
  allocated := fun _ => false
  mem := fun _ => TempAssociation.zero
  table := []
  unsol := TempAssociation.zero
  locked := none
  fwTimer := false
  virtualNodeids := stored.take maxClassicTempAssociations
  virtualNodesMask := mask
  nextNodeidIdx := 0
  lrNextNodeidIdx := 0
  retryCount := 0
  learning := false
  stored := stored
  out := []

def log (s : TempAssoc) (o : AssocOut) : TempAssoc :=
  { s with out := o :: s.out }

def isVirtualNode (s : TempAssoc) (node : NodeId) : Bool :=
  isClassicNode node && s.virtualNodesMask node ||
    decide (node.toNat ≤ 4005) && decide (4002 ≤ node.toNat)

/-! ### Virtual nodes -/

def persistVirtualNodeids (s : TempAssoc) : TempAssoc :=
  { s with stored := s.virtualNodeids }

def addVirtualNodes (s : TempAssoc) (accepts : Bool) : TempAssoc :=
  if s.virtualNodeids.length < maxClassicTempAssociations then
    if s.retryCount < tempAssocVirtualAddRetryMax then
      { s with retryCount := s.retryCount + 1, learning := s.learning || accepts }
    else s
  else s

def virtualAddCallback (s : TempAssoc) (status : AssignStatus) (newId : NodeId) (isSuc : Bool)
    (accepts : Bool) : TempAssoc :=
  match status with
  | .nodeidDone =>
    let s := if !s.isVirtualNode newId then
        persistVirtualNodeids { s with
          virtualNodeids := s.virtualNodeids ++ [newId]
          virtualNodesMask := Function.update s.virtualNodesMask newId true }
      else s
    let s := { s with retryCount := 0 }
    if isSuc then addVirtualNodes s accepts else s
  | _ => s

def resumeInit (s : TempAssoc) (accepts : Bool) : TempAssoc :=
  if s.retryCount ≥ tempAssocVirtualAddRetryMax then
    addVirtualNodes { s with retryCount := 0 } accepts
  else s

/-! ### Associations -/

def membAlloc (s : TempAssoc) : Option AssocBlock :=
  (List.finRange 8).find? fun i => !s.allocated i

def membFree (s : TempAssoc) (i : AssocBlock) : TempAssoc :=
  { s with allocated := Function.update s.allocated i false }

def setMem (s : TempAssoc) (i : AssocBlock) (a : TempAssociation) : TempAssoc :=
  { s with mem := Function.update s.mem i a }

def serves (s : TempAssoc) (c : ZipClient) (isLongRange : Bool) (i : AssocBlock) : Bool :=
  (s.mem i).client == c && (s.mem i).isLongRange == isLongRange

def lookupByZipClient (cfg : BridgeCfg) (s : TempAssoc) (c : ZipClient) (dest : NodeId) : Option AssocRef × TempAssoc :=
  if cfg.unsolicited c then
    (some .unsol, { s with unsol := { s.unsol with
      client := ⟨cfg.unsolicitedDest, uipHtons cfg.unsolicitedPort, c.endpoint, c.wasDtls⟩
      virtualId := cfg.myNodeId } })
  else ((s.table.find? (s.serves c (isLrNode dest))).map .pool, s)

def checkAvailable (s : TempAssoc) (dest : NodeId) : Bool :=
  if isLrNode dest && decide (s.lrNextNodeidIdx < maxLrTempAssociations) then true
  else if isClassicNode dest && decide (s.nextNodeidIdx < maxClassicTempAssociations) then true
  else false

def fill (s : TempAssoc) (i : AssocBlock) (dest : NodeId) : TempAssoc :=
  if decide (s.lrNextNodeidIdx < maxLrTempAssociations) && isLrNode dest then
    ({ s with lrNextNodeidIdx := s.lrNextNodeidIdx + 1 }).setMem i { TempAssociation.zero with
      virtualIdStatic := lrTempAssocVirtualNodeids.getD s.lrNextNodeidIdx 0
      isLongRange := true }
  else if decide (s.nextNodeidIdx < s.virtualNodeids.length) && isClassicNode dest then
    ({ s with nextNodeidIdx := s.nextNodeidIdx + 1 }).setMem i { TempAssociation.zero with
      virtualIdStatic := s.virtualNodeids.getD s.nextNodeidIdx 0
      isLongRange := false }
  else s.setMem i TempAssociation.zero

def recyclable (s : TempAssoc) (dest : NodeId) (i : AssocBlock) : Bool :=
  decide (some (.pool i) ≠ s.locked) && (s.mem i).isLongRange == isLrNode dest

/-- `temp_assoc_get_new_or_reuse_oldest`, with a pool that is not empty. -/
def getNewOrReuseOldest (s : TempAssoc) (dest : NodeId) : Option AssocBlock × TempAssoc :=
  let s := if s.table.length = 0 then { s with locked := none, fwTimer := false } else s
  if s.checkAvailable dest then
    match s.membAlloc with
    | some i => (some i, fill { s with allocated := Function.update s.allocated i true } i dest)
    | none => (none, s)
  else
    match s.table.find? (s.recyclable dest) with
    | some i =>
      (some i, ({ s with table := s.table.erase i }).log (.recycled (s.mem i).virtualId))
    | none => (none, s)

def sameFields (a b : TempAssociation) : Bool :=
  a.virtualIdStatic == b.virtualIdStatic && a.client == b.client && a.isLongRange == b.isLongRange

def addToAssociationTable (s : TempAssoc) (i : AssocBlock) : TempAssoc :=
  if s.table.any fun j => sameFields (s.mem i) (s.mem j) then s.membFree i
  else { s with table := s.table.erase i ++ [i] }

def setupAndSave (cfg : BridgeCfg) (s : TempAssoc) (c : ZipClient) (dest : NodeId) (i : AssocBlock) :
    Bool × TempAssoc :=
  let a := { s.mem i with
    client := c
    isLongRange := isLrNode dest
    virtualId := if cfg.unsolicited c then cfg.myNodeId else (s.mem i).virtualIdStatic }
  let s := s.setMem i a
  if a.virtualId == 0 then (false, s.membFree i)
  else
    let s := s.addToAssociationTable i
    (true, if a.isLongRange then s else s.persistVirtualNodeids)

/-- `temp_assoc_create`; `busy` is `is_assoc_create_in_progress`, and `was_dtls` is part of the client. -/
def create (cfg : BridgeCfg) (s : TempAssoc) (c : ZipClient) (dest : NodeId) (busy : Bool) :
    Option AssocRef × TempAssoc :=
  if busy then (none, s)
  else
    match lookupByZipClient cfg s c dest with
    | (some r, s) => (some r, s)
    | (none, s) =>
      match getNewOrReuseOldest s dest with
      | (some i, s) =>
        match setupAndSave cfg s c dest i with
        | (true, s) => (some (.pool i), s)
        | (false, s) => (none, s)
      | (none, s) => (none, s)

def virtualIdOf (s : TempAssoc) : AssocRef → NodeId
  | .unsol => s.unsol.virtualId
  | .pool i => (s.mem i).virtualId

def registerFwLock (s : TempAssoc) (r : AssocRef) : TempAssoc :=
  { s with locked := some r, fwTimer := true }

def lookupByVirtualNodeid (s : TempAssoc) (node : NodeId) : Option AssocBlock :=
  s.table.find? fun i => node == (s.mem i).virtualId

end TempAssoc

/-- What can happen: a packet of a client, with or without a firmware update command in it; a
firmware update command of a node to a virtual node; the time-out of the firmware lock; a timer for
the creation of virtual nodes, its result, the call to resume it, and a look at the nodes the
controller knows. -/
inductive AssocInput where
  | request (c : ZipClient) (dest : NodeId) (busy firmware : Bool)
  | firmwareFrame (virtualNode : NodeId)
  | fwLockTimeout
  | addVirtualNodes (accepts : Bool)
  | virtualAdded (status : AssignStatus) (newId : NodeId) (isSuc accepts : Bool)
  | resumeInit (accepts : Bool)
  | copyVirtualNodesMask (mask : NodeId → Bool)

namespace TempAssoc

def step (cfg : BridgeCfg) (s : TempAssoc) : AssocInput → TempAssoc
  | .request c dest busy firmware =>
    match create cfg s c dest busy with
    | (some r, s) =>
      let s := s.log (.answer c (isLrNode dest) (some (s.virtualIdOf r)))
      if firmware then s.registerFwLock r else s
    | (none, s) => s.log (.answer c (isLrNode dest) none)
  | .firmwareFrame virtualNode =>
    match s.lookupByVirtualNodeid virtualNode with
    | some i => s.registerFwLock (.pool i)
    | none => s
  | .fwLockTimeout => if s.fwTimer then { s with locked := none, fwTimer := false } else s
  | .addVirtualNodes accepts => s.addVirtualNodes accepts
  | .virtualAdded status newId isSuc accepts =>
    if s.learning then
      virtualAddCallback { s with learning := false } status newId isSuc accepts
    else s
  | .resumeInit accepts => s.resumeInit accepts
  | .copyVirtualNodesMask mask => { s with virtualNodesMask := mask }

def run (cfg : BridgeCfg) (s : TempAssoc) (inputs : List AssocInput) : TempAssoc :=
  Machine.run (step cfg) s inputs

end TempAssoc

end ZipGateway

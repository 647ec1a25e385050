import ZipGateway.Names.Grammar
import ZipGateway.Nodemask
import ZipGateway.Provisioning.List

/-!
# The command handler of the provisioning list

`PVL_CommandHandler` of `CC_provisioning_list.c`. The frame is the memory behind `pData`, so what is
read past its end is whatever was there. Memory for new entries is always there.
-/

namespace ZipGateway.Provisioning

def commandClassProvisioningList : UInt8 := 0x78
def commandProvisionSet : UInt8 := 0x01
def commandProvisionDelete : UInt8 := 0x02
def commandProvisionIterGet : UInt8 := 0x03
def commandProvisionIterReport : UInt8 := 0x04
def commandProvisionGet : UInt8 := 0x05
def commandProvisionReport : UInt8 := 0x06

def provisioningListOptCriticalFlag : UInt8 := 0x01
def provisioningListDskLengthMask : UInt8 := 0x1F

theorem ofNat_and_mask_of_lt {n : Nat} (h : n < 32) :
    UInt8.ofNat n &&& provisioningListDskLengthMask = UInt8.ofNat n := by
  have hmask : provisioningListDskLengthMask.toNat = 2 ^ 5 - 1 := rfl
  apply UInt8.toNat_inj.mp
  rw [UInt8.toNat_and, UInt8.toNat_ofNat', hmask, Nat.and_two_pow_sub_one_eq_mod]
  omega

section Parse

structure SetTlvs where
  name : Option Bytes := none
  location : Option Bytes := none
  bootstrapMode : Option UInt8 := none
  productType : Option Bytes := none
  productId : Option Bytes := none
  provStatus : Option UInt8 := none
  provGrantedKeys : Option UInt8 := none
  maxInclReqInterval : Option UInt8 := none
  uuid16 : Option Bytes := none
deriving DecidableEq, Repr

/-- One turn of the loop, or nothing for a parse error; `first` is `tlv[2]`, of the next TLV if the value is
empty. -/
def parseTlv (v : SetTlvs) (type : UInt8) (value : Bytes) (first : UInt8) : Option SetTlvs :=
  if type >>> 1 = pvsTlvTypeName then some { v with name := some value }
  else if type >>> 1 = pvsTlvTypeLocation then some { v with location := some value }
  else if type >>> 1 = pvsTlvTypeBootstrapMode then some { v with bootstrapMode := some first }
  else if type >>> 1 = pvsTlvTypeProductType then
    if value.length < 4 then none else some { v with productType := some value }
  else if type >>> 1 = pvsTlvTypeProductId then
    if value.length < 8 then none else some { v with productId := some value }
  else if type >>> 1 = pvsTlvTypeStatus then
    if value.length < 1 then none else some { v with provStatus := some first }
  else if type >>> 1 = pvsTlvTypeNetworkInfo then some v
  else if type >>> 1 = pvsTlvTypeAdvJoin then
    if value.length < 1 then none else some { v with provGrantedKeys := some first }
  else if type >>> 1 = pvsTlvTypeMaxInclReqInterval then
    if value.length < 1 then none else some { v with maxInclReqInterval := some first }
  else if type >>> 1 = pvsTlvTypeUuid16 then
    if value.length < 17 then none else some { v with uuid16 := some (value.take 17) }
  else if type &&& provisioningListOptCriticalFlag ≠ 0 then none
  else some v

def parseTlvs (pData : Mem) (endOff : Nat) : Nat → Nat → SetTlvs → Option SetTlvs
  | 0, _, v => some v
  | fuel + 1, tlv, v =>
    if tlv + 2 < endOff then
      let len := (pData (tlv + 1)).toNat
      if endOff < tlv + 2 + len then some v
      else
        (parseTlv v (pData tlv) (pData.slice (tlv + 2) len) (pData (tlv + 2))).bind
          (parseTlvs pData endOff fuel (tlv + 2 + len))
    else some v

def SetTlvs.stored (v : SetTlvs) : List Tlv :=
  [(pvsTlvTypeName, v.name), (pvsTlvTypeLocation, v.location),
    (pvsTlvTypeAdvJoin, v.provGrantedKeys.map ([·])), (pvsTlvTypeProductType, v.productType),
    (pvsTlvTypeProductId, v.productId),
    (pvsTlvTypeMaxInclReqInterval, v.maxInclReqInterval.map ([·])),
    (pvsTlvTypeUuid16, v.uuid16)].filterMap fun (type, value) =>
      value.map fun value => { type, value }

def setProvision (list : PvsList) (dsk : Bytes) (v : SetTlvs) : PvsList :=
  let (entry, list) :=
    match provisioningListDevGet list dsk with
    | none =>
      provisioningListDevAdd list dsk ((v.bootstrapMode.map UInt8.toUInt32).getD pvsBootmodeSmartStart) true
    | some slot =>
      (some slot,
        match v.bootstrapMode with
        | none => list
        | some mode => provisioningListBootmodeSet list (some slot) mode.toUInt32)
  match entry with
  | none => list
  | some slot =>
    let list :=
      match v.provStatus with
      | none => list
      | some status => provisioningListStatusSet list (some slot) status.toUInt32
    v.stored.foldl (fun list tlv => provisioningListTlvSet list (some slot) tlv.type tlv.value true) list

end Parse

section Reports

structure RdNode where
  nodeid : NodeId
  failing : Bool

abbrev RdLookupByDsk := Bytes → Option RdNode

def pvsNetstatusNotInNetwork : UInt8 := 0
def pvsNetstatusIncluded : UInt8 := 1
def pvsNetstatusFailing : UInt8 := 2

def provisioningListTlvCrtFlag (type : UInt8) : UInt8 :=
  if type = pvsTlvTypeAdvJoin then 0x01 else 0

def networkInfo : Option RdNode → Bytes
  | none => [0, pvsNetstatusNotInNetwork, 0, 0]
  | some node =>
    let status := if node.failing then pvsNetstatusFailing else pvsNetstatusIncluded
    if isLrNode node.nodeid then [0, status, (node.nodeid >>> 8).toUInt8, node.nodeid.toUInt8]
    else [node.nodeid.toUInt8, status, 0, 0]

def ccProvisioningListAddTlvs (rd : RdLookupByDsk) (entry : Provision) : Bytes :=
  [pvsTlvTypeBootstrapMode <<< 1 ||| 1, 1, entry.bootmode.toUInt8] ++
  [pvsTlvTypeStatus <<< 1 ||| 1, 1, entry.status.toUInt8] ++
  [pvsTlvTypeNetworkInfo <<< 1, 4] ++ networkInfo (rd entry.dsk) ++
  entry.tlvs.flatMap fun tlv =>
    ((tlv.type <<< (1 : UInt8) ||| provisioningListTlvCrtFlag tlv.type) :: UInt8.ofNat tlv.value.length :: tlv.value)

def ccProvisioningListBuildReport (rd : RdLookupByDsk) (entry : Option Provision) (seqNo : UInt8) :
    Bytes :=
  match entry with
  | none => [commandClassProvisioningList, commandProvisionReport, seqNo, 0]
  | some entry =>
    [commandClassProvisioningList, commandProvisionReport, seqNo,
      UInt8.ofNat entry.dsk.length &&& provisioningListDskLengthMask] ++ entry.dsk ++
      ccProvisioningListAddTlvs rd entry

def iterReport (rd : RdLookupByDsk) (entry : Option Provision) (seqNo remaining : UInt8) : Bytes :=
  match entry with
  | none => [commandClassProvisioningList, commandProvisionIterReport, seqNo, remaining, 0]
  | some entry =>
    [commandClassProvisioningList, commandProvisionIterReport, seqNo, remaining,
      UInt8.ofNat entry.dsk.length &&& provisioningListDskLengthMask] ++ entry.dsk ++
      ccProvisioningListAddTlvs rd entry

end Reports

section Iterator

/-- `provisioning_list_iter_t`, with the DSKs of its entries. -/
structure Iter where
  entries : List Bytes
  next : Nat
deriving DecidableEq, Repr

def Iter.left (iter : Iter) : Nat :=
  iter.entries.length - iter.next

def iterated (dsk : Bytes) : Bool :=
  decide (4 ≤ dsk.length) && decide (dsk.length ≤ provisioningListDskMaxSize)

def provisioningListIteratorGet (list : PvsList) : Iter where
  entries := list.filterMap fun entry => (entry.map Provision.dsk).filter iterated
  next := 0

def provisioningListIterGetNext (list : PvsList) (iter : Iter) : Option Slot × Iter :=
  match iter.entries[iter.next]? with
  | none => (none, iter)
  | some dsk => (provisioningListDevGet list dsk, { iter with next := iter.next + 1 })

end Iterator

section Handler

/-- The list and `curr_iter`. -/
structure Pvl where
  list : PvsList
  currIter : Option Iter := none

inductive CommandHandlerCode where
  | commandHandled
  | commandParseError
  | commandNotSupported
deriving DecidableEq, Repr

structure Answer where
  code : CommandHandlerCode
  report : Option Bytes := none

variable (rd : RdLookupByDsk)

def provisionSet (s : Pvl) (pData : Mem) (bDatalen : Nat) : Pvl × Answer :=
  let dsklen := (pData 3 &&& provisioningListDskLengthMask).toNat
  if bDatalen < 4 + dsklen then (s, { code := .commandParseError })
  else if dsklen < 16 then (s, { code := .commandParseError })
  else
    match parseTlvs pData bDatalen bDatalen (4 + dsklen) {} with
    | none => (s, { code := .commandParseError })
    | some v =>
      if (v.name.all fun name => isValidMdnsName (.ofBytes name) name.length) ∧
          v.location.all fun location => isValidMdnsLocation (.ofBytes location) location.length then
        ({ s with list := setProvision s.list (pData.slice 4 dsklen) v }, { code := .commandHandled })
      else (s, { code := .commandParseError })

def provisionDelete (s : Pvl) (pData : Mem) (bDatalen : Nat) : Pvl × Answer :=
  let dsklen := (pData 3 &&& provisioningListDskLengthMask).toNat
  if 4 ≤ bDatalen ∧ dsklen = 0 then
    ({ s with list := provisioningListClear s.list }, { code := .commandHandled })
  else if bDatalen < 4 + dsklen then (s, { code := .commandParseError })
  else
    ({ s with list := provisioningListDevRemove s.list (pData.slice 4 dsklen) }, { code := .commandHandled })

def provisionIterNext (list : PvsList) (iter : Iter) (seqNo : UInt8) : Pvl × Answer :=
  let (entry, iter) := provisioningListIterGetNext list iter
  let list :=
    if (entry.bind list.at).any (·.status == pvsStatusDisabled) then
      provisioningListStatusSet list entry pvsStatusPending
    else list
  ({ list, currIter := some iter },
    { code := .commandHandled
      report := some (iterReport rd (entry.bind list.at) seqNo (UInt8.ofNat iter.left)) })

def provisionIterGet (s : Pvl) (pData : Mem) : Pvl × Answer :=
  let seqNo := pData 2
  let remaining := pData 3
  if remaining = 0xFF then
    provisionIterNext rd s.list (provisioningListIteratorGet s.list) seqNo
  else
    match s.currIter with
    | none => (s, { code := .commandParseError })
    | some iter =>
      if remaining.toNat ≠ iter.left then (s, { code := .commandParseError })
      else provisionIterNext rd s.list iter seqNo

def provisionGet (s : Pvl) (pData : Mem) : Pvl × Answer :=
  let dsk := pData.slice 4 (pData 3).toNat
  let entry := (provisioningListDevGet s.list dsk).bind s.list.at
  (s, { code := .commandHandled, report := some (ccProvisioningListBuildReport rd entry (pData 2)) })

def pvlCommandHandler (s : Pvl) (pData : Mem) (bDatalen : Nat) : Pvl × Answer :=
  if bDatalen < 2 then (s, { code := .commandParseError })
  else if pData 1 = commandProvisionSet then provisionSet s pData bDatalen
  else if pData 1 = commandProvisionDelete then provisionDelete s pData bDatalen
  else if pData 1 = commandProvisionIterGet then provisionIterGet rd s pData
  else if pData 1 = commandProvisionGet then provisionGet rd s pData
  else (s, { code := .commandNotSupported })

end Handler

end ZipGateway.Provisioning

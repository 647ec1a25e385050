import ZipGateway.Lib.Machine
import ZipGateway.Lib.Memory

/-!
# The provisioning list

`provisioning_list.c` keeps the provisions in the slots of an array. A slot is blank if its
`dsk_len` is zero. Pointers to provisions are pointers into the array, so a caller may keep one to a
slot that has become blank.

Where the code allocates memory, `alloc` says whether it got it.
-/

namespace ZipGateway.Provisioning

/-- `PROVISIONING_LIST_SIZE`, as the gateway is built. -/
def provisioningListSize : Nat := 232

def provisioningListDskMaxSize : Nat := 16

def pvsTlvTypeProductType : UInt8 := 0
def pvsTlvTypeProductId : UInt8 := 1
def pvsTlvTypeMaxInclReqInterval : UInt8 := 2
def pvsTlvTypeUuid16 : UInt8 := 3
def pvsTlvTypeName : UInt8 := 0x32
def pvsTlvTypeLocation : UInt8 := 0x33
def pvsTlvTypeStatus : UInt8 := 0x34
def pvsTlvTypeAdvJoin : UInt8 := 0x35
def pvsTlvTypeBootstrapMode : UInt8 := 0x36
def pvsTlvTypeNetworkInfo : UInt8 := 0x37

def pvsBootmodeSmartStart : UInt32 := 1

def pvsStatusPending : UInt32 := 0
def pvsStatusDisabled : UInt32 := 1

structure Tlv where
  type : UInt8
  value : Bytes
deriving DecidableEq, Repr

structure Provision where
  dsk : Bytes
  status : UInt32
  bootmode : UInt32
  tlvs : List Tlv
deriving DecidableEq, Repr

abbrev PvsList := List (Option Provision)

abbrev Slot := Nat

/-- The list after `provisioning_list_init` has set it to zero. -/
def blankList : PvsList := List.replicate provisioningListSize none

def PvsList.at (list : PvsList) (slot : Slot) : Option Provision :=
  (list[slot]?).join

/-- Writes to the provision behind a pointer, unseen in a blank slot. -/
def PvsList.write (list : PvsList) (slot : Slot) (f : Provision → Provision) : PvsList :=
  list.modify slot (Option.map f)

def provisioningListGetCount (list : PvsList) : Nat :=
  (list.filter Option.isSome).length

def hasDsk (dsk : Bytes) (entry : Option Provision) : Bool :=
  entry.any (·.dsk == dsk)

def provisioningListDevGet (list : PvsList) (dsk : Bytes) : Option Slot :=
  if dsk.length < 4 then none else list.findIdx? (hasDsk dsk)

def pvsDevAdd (list : PvsList) (dsk : Bytes) (bootmode : UInt32) (alloc : Bool) : Option Slot × PvsList :=
  match list.findIdx? Option.isNone with
  | none => (none, list)
  | some slot =>
    if alloc then
      (some slot, list.set slot (some { dsk, status := pvsStatusPending, bootmode, tlvs := [] }))
    else (none, list)

def provisioningListDevAdd (list : PvsList) (dsk : Bytes) (bootmode : UInt32) (alloc : Bool) : Option Slot × PvsList :=
  if dsk.length < 4 then (none, list)
  else if (provisioningListDevGet list dsk).isSome then (none, list)
  else pvsDevAdd list dsk bootmode alloc

def provisioningListDevSet (list : PvsList) (dsk : Bytes) (bootmode : UInt32) (alloc : Bool) : Option Slot × PvsList :=
  if dsk.length < 4 then (none, list)
  else
    match provisioningListDevGet list dsk with
    | some slot => (some slot, list.write slot fun pvs => { pvs with bootmode })
    | none => pvsDevAdd list dsk bootmode alloc

def provisioningListDevRemove (list : PvsList) (dsk : Bytes) : PvsList :=
  if dsk.length < 4 then list
  else
    match list.findIdx? (hasDsk dsk) with
    | none => list
    | some slot => list.set slot none

def provisioningListClear (list : PvsList) : PvsList :=
  list.map fun _ => none

def provisioningListBootmodeSet (list : PvsList) (slot : Option Slot) (bootmode : UInt32) : PvsList :=
  match slot with
  | none => list
  | some slot => list.write slot fun pvs => { pvs with bootmode }

def provisioningListStatusSet (list : PvsList) (slot : Option Slot) (status : UInt32) : PvsList :=
  match slot with
  | none => list
  | some slot => list.write slot fun pvs => { pvs with status }

section Tlvs

def pvsTlvGet (tlvs : List Tlv) (type : UInt8) : Option Tlv :=
  tlvs.find? (·.type == type)

def replaceValue (type : UInt8) (value : Bytes) : List Tlv → List Tlv
  | [] => []
  | tlv :: rest =>
    if tlv.type = type then { type, value } :: rest else tlv :: replaceValue type value rest

def pvsTlvSet (tlvs : List Tlv) (type : UInt8) (value : Bytes) (found : Option Tlv) : List Tlv :=
  if found.isSome then replaceValue type value tlvs else { type, value } :: tlvs

def provisioningListTlvSet (list : PvsList) (slot : Option Slot) (type : UInt8) (value : Bytes)
    (alloc : Bool) : PvsList :=
  match slot with
  | none => list
  | some slot =>
    if value = [] ∨ alloc = false then list
    else
      list.write slot fun pvs =>
        { pvs with tlvs := pvsTlvSet pvs.tlvs type value (pvsTlvGet pvs.tlvs type) }

def provisioningListTlvRemove (list : PvsList) (slot : Option Slot) (type : UInt8) : PvsList :=
  match slot with
  | none => list
  | some slot => list.write slot fun pvs => { pvs with tlvs := pvs.tlvs.eraseP (·.type == type) }

end Tlvs

abbrev Short := { data : Bytes // data.length < 256 }

inductive Op where
  | devAdd (dsk : Short) (bootmode : UInt32) (alloc : Bool)
  | devSet (dsk : Short) (bootmode : UInt32) (alloc : Bool)
  | devRemove (dsk : Short)
  | clear
  | bootmodeSet (slot : Option Slot) (bootmode : UInt32)
  | statusSet (slot : Option Slot) (status : UInt32)
  | tlvSet (slot : Option Slot) (type : UInt8) (value : Short) (alloc : Bool)
  | tlvRemove (slot : Option Slot) (type : UInt8)
deriving DecidableEq, Repr

def step (list : PvsList) : Op → PvsList
  | .devAdd dsk bootmode alloc => (provisioningListDevAdd list dsk bootmode alloc).2
  | .devSet dsk bootmode alloc => (provisioningListDevSet list dsk bootmode alloc).2
  | .devRemove dsk => provisioningListDevRemove list dsk
  | .clear => provisioningListClear list
  | .bootmodeSet slot bootmode => provisioningListBootmodeSet list slot bootmode
  | .statusSet slot status => provisioningListStatusSet list slot status
  | .tlvSet slot type value alloc => provisioningListTlvSet list slot type value alloc
  | .tlvRemove slot type => provisioningListTlvRemove list slot type

end ZipGateway.Provisioning

import ZipGateway.Lib.Endian
import ZipGateway.Provisioning.List

/-!
# The storage file of the provisioning list

`pvs_list_persist_in_file` writes the structures as they stand in memory, pointers and padding
included, each followed by the bytes its pointer leads to. Of the pointers the import only asks
whether they are null. A slot that is blank is not written, so the slots move up when the file is
read, and `pvs_tlv_set` puts the TLVs in the opposite order.
-/

namespace ZipGateway.Provisioning

/-- How the structures lie in memory: the size of a pointer and the padding after `dsk_len`, before
`tlv_list`, after `length` and at the end of the structures. -/
structure Abi where
  ptrSize : Nat
  padDskLen : Nat
  padTlvList : Nat
  padLength : Nat

/-- The addresses of the TLVs, which are not null, and of the bytes. -/
structure Heap (abi : Abi) where
  dsk : Slot → Nat
  tlv : Slot → Nat → Nat
  value : Slot → Nat → Nat
  tlv_pos : ∀ slot i, 0 < tlv slot i
  tlv_lt : ∀ slot i, tlv slot i < 256 ^ abi.ptrSize

/-- What is in memory where the import has not written: the structure on the stack and a block of
`malloc`. -/
structure Stale where
  pvs : Provision
  block : Nat → Bytes

def ascii (text : String) : Bytes :=
  text.toList.map fun c => UInt8.ofNat c.toNat

def pvsStoreHdr : Bytes := ascii "zgwpvsstorev1.0"

/-- `pvs_fmt` with the index of a slot, which has three digits at most. -/
def pvsEntryHdrLen : Nat := 13

def digit (n : Nat) : UInt8 :=
  UInt8.ofNat (48 + n % 10)

def pvsEntryHdr (ii : Slot) : Bytes :=
  ascii "pvs entry " ++ [digit (ii / 100), digit (ii / 10), digit ii]

section Write

variable (abi : Abi) (heap : Heap abi)

def pad (n : Nat) : Bytes := List.replicate n 0

def provisionRecord (ii : Slot) (pvs : Provision) : Bytes :=
  Endian.toBytes abi.ptrSize (heap.dsk ii) ++ [UInt8.ofNat pvs.dsk.length] ++ pad abi.padDskLen ++
    Endian.toBytes 4 pvs.status.toNat ++ Endian.toBytes 4 pvs.bootmode.toNat ++ pad abi.padTlvList ++
    Endian.toBytes abi.ptrSize (if pvs.tlvs = [] then 0 else heap.tlv ii 0)

/-- `struct pvs_tlv` in memory. -/
def tlvRecord (ii : Slot) (jj : Nat) (tlv : Tlv) (last : Bool) : Bytes :=
  Endian.toBytes abi.ptrSize (if last then 0 else heap.tlv ii (jj + 1)) ++
    [tlv.type, UInt8.ofNat tlv.value.length] ++ pad abi.padLength ++
    Endian.toBytes abi.ptrSize (heap.value ii jj)

/-- The loop of `pvs_list_dev_store`. To write nothing is an error. -/
def storeTlvs (ii : Slot) : Nat → List Tlv → Bytes × Bool
  | _, [] => ([], true)
  | jj, tlv :: rest =>
    let record := tlvRecord abi heap ii jj tlv rest.isEmpty
    if tlv.value = [] then (record, false)
    else
      let stored := storeTlvs ii (jj + 1) rest
      (record ++ tlv.value ++ stored.1, stored.2)

def pvsListDevStore (pvs : Provision) (ii : Slot) : Bytes × Bool :=
  let record := pvsEntryHdr ii ++ provisionRecord abi heap ii pvs
  if pvs.dsk = [] then (record, false)
  else
    let stored := storeTlvs abi heap ii 0 pvs.tlvs
    (record ++ pvs.dsk ++ stored.1, stored.2)

def persistFrom : Slot → PvsList → Bytes
  | _, [] => []
  | ii, none :: list => persistFrom (ii + 1) list
  | ii, some pvs :: list =>
    let stored := pvsListDevStore abi heap pvs ii
    if stored.2 then stored.1 ++ persistFrom (ii + 1) list else stored.1

def pvsListPersistInFile (list : PvsList) : Bytes :=
  pvsStoreHdr ++ persistFrom abi heap 0 list

end Write

section Read

variable (abi : Abi) (stale : Stale)

def fread (n : Nat) (strm : Bytes) : Option (Bytes × Bytes) :=
  if n = 0 ∨ strm.length < n then none else some (strm.take n, strm.drop n)

def provisionSize : Nat := abi.ptrSize + 1 + abi.padDskLen + 4 + 4 + abi.padTlvList + abi.ptrSize

def tlvSize : Nat := abi.ptrSize + 2 + abi.padLength + abi.ptrSize

def field (record : Bytes) (off n : Nat) : Nat :=
  Endian.ofBytes ((record.drop off).take n)

def importTlvs : Nat → List Tlv → Bytes → Option (List Tlv × Bytes)
  | 0, _, _ => none
  | fuel + 1, tlvs, strm => do
    let (record, strm) ← fread (tlvSize abi) strm
    let (value, strm) ← fread (field record (abi.ptrSize + 1) 1) strm
    let tlvs := pvsTlvSet tlvs (UInt8.ofNat (field record abi.ptrSize 1)) value none
    if field record 0 abi.ptrSize = 0 then pure (tlvs, strm) else importTlvs fuel tlvs strm

def importDsk (dskLen : Nat) (strm : Bytes) : Bytes × Bytes :=
  (fread dskLen strm).getD ((strm ++ stale.block dskLen).take dskLen, [])

/-- `pvs_list_dev_import`, with the length of the stream as fuel. -/
def pvsListDevImport (strm : Bytes) : Option (Provision × Bytes) := do
  let (_, strm) ← fread pvsEntryHdrLen strm
  match fread (provisionSize abi) strm with
  | none => pure ({ stale.pvs with dsk := [], tlvs := [] }, [])
  | some (record, strm) =>
    let dskLen := field record abi.ptrSize 1
    let statusOff := abi.ptrSize + 1 + abi.padDskLen
    let status := UInt32.ofNat (field record statusOff 4)
    let bootmode := UInt32.ofNat (field record (statusOff + 4) 4)
    let tlvList := field record (statusOff + 8 + abi.padTlvList) abi.ptrSize
    if dskLen < 4 then none
    else
      let (dsk, strm) := importDsk stale dskLen strm
      if tlvList = 0 then pure ({ dsk, status, bootmode, tlvs := [] }, strm)
      else
        let (tlvs, strm) ← importTlvs abi (strm.length + 1) [] strm
        pure ({ dsk, status, bootmode, tlvs }, strm)

def importFrom : Nat → Bytes → List Provision
  | 0, _ => []
  | slots + 1, strm =>
    match pvsListDevImport abi stale strm with
    | none => []
    | some (pvs, strm) => pvs :: importFrom slots strm

def pvsListImportFile (strm : Bytes) : PvsList :=
  match fread pvsStoreHdr.length strm with
  | none => blankList
  | some (txt, strm) =>
    if txt = pvsStoreHdr then
      let entries := importFrom abi stale provisioningListSize strm
      entries.map some ++ List.replicate (provisioningListSize - entries.length) none
    else blankList

end Read

end ZipGateway.Provisioning

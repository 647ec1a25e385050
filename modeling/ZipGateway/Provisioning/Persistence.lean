import Mathlib.Data.List.Nodup
import ZipGateway.Provisioning.Storage
import ZipGateway.Provisioning.Unique

/-!
# The list comes back from its file

The import reads the records in the order in which they were written, so it finds the provisions that
were not blank, with the TLVs of each in the opposite order. Because no type is there twice, the order
makes no difference to what is found under a type.
-/

namespace ZipGateway.Provisioning

open Machine

section Records

variable {n : Nat} {front back strm : Bytes}

theorem fread_append (back : Bytes) (hn : front.length = n) (hpos : 0 < n) :
    fread n (front ++ back) = some (front, back) := by
  have hlen : ¬(n = 0 ∨ (front ++ back).length < n) := by
    rw [List.length_append]
    omega
  rw [fread, if_neg hlen, List.take_left' hn, List.drop_left' hn]

theorem field_append {data : Bytes} {off : Nat} (hoff : front.length = off) (hn : data.length = n) :
    field (front ++ (data ++ back)) off n = Endian.ofBytes data := by
  rw [field, List.drop_left' hoff, List.take_left' hn]

theorem field_byte {off : Nat} {b : UInt8} (hoff : front.length = off) :
    field (front ++ ([b] ++ back)) off 1 = b.toNat := by
  rw [field_append hoff List.length_singleton, Endian.ofBytes, Endian.ofBytes, Nat.mul_zero, Nat.add_zero]

theorem ofBytes_toBytes_of_lt {x : Nat} (h : x < 256 ^ n) : Endian.ofBytes (Endian.toBytes n x) = x := by
  rw [Endian.ofBytes_toBytes, Nat.mod_eq_of_lt h]

theorem ofNat_ofBytes_toBytes (x : UInt32) : UInt32.ofNat (Endian.ofBytes (Endian.toBytes 4 x.toNat)) = x := by
  rw [ofBytes_toBytes_of_lt x.toNat_lt, UInt32.ofNat_toNat]

theorem toNat_ofNat_length {data : Bytes} (h : data.length < 256) : (UInt8.ofNat data.length).toNat = data.length := by
  rw [UInt8.toNat_ofNat', Nat.mod_eq_of_lt h]

@[simp]
theorem length_pad (n : Nat) : (pad n).length = n := List.length_replicate

end Records

section Tlvs

variable {abi : Abi} {heap : Heap abi} {ii jj : Nat} {tlv : Tlv} {last : Bool}

theorem length_tlvRecord (heap : Heap abi) (ii jj : Nat) (tlv : Tlv) (last : Bool) :
    (tlvRecord abi heap ii jj tlv last).length = tlvSize abi := by
  simp only [tlvRecord, tlvSize, List.length_append, Endian.length_toBytes, length_pad,
    List.length_cons, List.length_nil]

theorem field_next : field (tlvRecord abi heap ii jj tlv last) 0 abi.ptrSize = 0 ↔ last = true := by
  have hfield : field (tlvRecord abi heap ii jj tlv last) 0 abi.ptrSize =
      if last then 0 else heap.tlv ii (jj + 1) := by
    rw [tlvRecord, List.append_assoc, List.append_assoc, ← List.nil_append (_ ++ _),
      field_append List.length_nil (Endian.length_toBytes _ _)]
    refine ofBytes_toBytes_of_lt ?_
    split
    · exact Nat.pow_pos (by decide)
    · exact heap.tlv_lt _ _
  have hpos := heap.tlv_pos ii (jj + 1)
  rw [hfield]
  cases last
  · simp
    omega
  · simp

theorem field_type : UInt8.ofNat (field (tlvRecord abi heap ii jj tlv last) abi.ptrSize 1) = tlv.type := by
  have hrecord : tlvRecord abi heap ii jj tlv last =
      Endian.toBytes abi.ptrSize (if last then 0 else heap.tlv ii (jj + 1)) ++
        ([tlv.type] ++ ([UInt8.ofNat tlv.value.length] ++ pad abi.padLength ++
          Endian.toBytes abi.ptrSize (heap.value ii jj))) := by
    simp [tlvRecord]
  rw [hrecord, field_byte (Endian.length_toBytes _ _), UInt8.ofNat_toNat]

theorem field_length (hmax : tlv.value.length < 256) :
    field (tlvRecord abi heap ii jj tlv last) (abi.ptrSize + 1) 1 = tlv.value.length := by
  have hrecord : tlvRecord abi heap ii jj tlv last =
      (Endian.toBytes abi.ptrSize (if last then 0 else heap.tlv ii (jj + 1)) ++ [tlv.type]) ++
        ([UInt8.ofNat tlv.value.length] ++ (pad abi.padLength ++ Endian.toBytes abi.ptrSize (heap.value ii jj))) := by
    simp [tlvRecord]
  rw [hrecord, field_byte (by simp), toNat_ofNat_length hmax]

theorem importTlvs_succ {fuel : Nat} {tlvs : List Tlv} {strm : Bytes} (hne : tlv.value ≠ [])
    (hmax : tlv.value.length < 256) :
    importTlvs abi (fuel + 1) tlvs (tlvRecord abi heap ii jj tlv last ++ (tlv.value ++ strm)) =
      if last then some (tlv :: tlvs, strm) else importTlvs abi fuel (tlv :: tlvs) strm := by
  have hrecord := fread_append (tlv.value ++ strm) (length_tlvRecord heap ii jj tlv last) (by unfold tlvSize; omega)
  have hvalue := fread_append strm (rfl : tlv.value.length = _) (List.length_pos_iff.mpr hne)
  simp only [importTlvs, hrecord, Option.bind_eq_bind, Option.bind_some, field_length hmax, hvalue,
    field_type, field_next, pvsTlvSet, Option.isSome_none, Bool.false_eq_true, if_false]
  rfl

theorem storeTlvs_cons {rest : List Tlv} (hne : tlv.value ≠ []) : storeTlvs abi heap ii jj (tlv :: rest) =
      (tlvRecord abi heap ii jj tlv rest.isEmpty ++ tlv.value ++
        (storeTlvs abi heap ii (jj + 1) rest).1, (storeTlvs abi heap ii (jj + 1) rest).2) := by
  simp only [storeTlvs, if_neg hne]

variable {tlvs : List Tlv}

theorem storeTlvs_ok (hvalues : ∀ tlv ∈ tlvs, tlv.value ≠ [] ∧ tlv.value.length < 256) :
    (storeTlvs abi heap ii jj tlvs).2 = true := by
  induction tlvs generalizing jj with
  | nil => rfl
  | cons tlv rest ih =>
    rw [storeTlvs_cons (hvalues tlv List.mem_cons_self).1]
    exact ih fun t ht => hvalues t (List.mem_cons_of_mem _ ht)

theorem length_le_storeTlvs (heap : Heap abi) (ii jj : Nat)
    (hvalues : ∀ tlv ∈ tlvs, tlv.value ≠ [] ∧ tlv.value.length < 256) :
    tlvs.length ≤ (storeTlvs abi heap ii jj tlvs).1.length := by
  induction tlvs generalizing jj with
  | nil => exact Nat.zero_le _
  | cons tlv rest ih =>
    have hrest := ih (jj + 1) fun t ht => hvalues t (List.mem_cons_of_mem _ ht)
    rw [storeTlvs_cons (hvalues tlv List.mem_cons_self).1]
    simp only [List.length_append, List.length_cons, length_tlvRecord, tlvSize]
    omega

theorem importTlvs_storeTlvs {fuel : Nat} {front : List Tlv} {strm : Bytes}
    (hfuel : tlvs.length ≤ fuel) (hnil : tlvs ≠ [])
    (hvalues : ∀ tlv ∈ tlvs, tlv.value ≠ [] ∧ tlv.value.length < 256) :
    importTlvs abi fuel front ((storeTlvs abi heap ii jj tlvs).1 ++ strm) =
      some (tlvs.reverse ++ front, strm) := by
  induction tlvs generalizing fuel jj front with
  | nil => exact absurd rfl hnil
  | cons tlv rest ih =>
    obtain ⟨hne, hmax⟩ := hvalues tlv List.mem_cons_self
    obtain ⟨fuel, rfl⟩ : ∃ k, fuel = k + 1 := ⟨fuel - 1, by simp at hfuel; omega⟩
    rw [storeTlvs_cons hne, List.append_assoc, List.append_assoc, importTlvs_succ hne hmax]
    cases hrest : rest with
    | nil => simp [storeTlvs]
    | cons next others =>
      have hread : importTlvs abi fuel (tlv :: front) ((storeTlvs abi heap ii (jj + 1) rest).1 ++ strm) =
            some (rest.reverse ++ tlv :: front, strm) :=
        ih (by simpa using hfuel) (by simp [hrest]) fun t ht => hvalues t (List.mem_cons_of_mem _ ht)
      simpa [hrest] using hread

end Tlvs

section Provisions

variable {abi : Abi} {heap : Heap abi} {stale : Stale} {ii : Slot} {pvs : Provision}

theorem length_pvsEntryHdr (ii : Slot) : (pvsEntryHdr ii).length = pvsEntryHdrLen := rfl

theorem length_provisionRecord (heap : Heap abi) (ii : Slot) (pvs : Provision) :
    (provisionRecord abi heap ii pvs).length = provisionSize abi := by
  simp only [provisionRecord, provisionSize, List.length_append, Endian.length_toBytes, length_pad,
    List.length_singleton]

theorem field_dskLen (hmax : pvs.dsk.length < 256) :
    field (provisionRecord abi heap ii pvs) abi.ptrSize 1 = pvs.dsk.length := by
  simp only [provisionRecord, List.append_assoc]
  rw [field_byte (Endian.length_toBytes _ _), toNat_ofNat_length hmax]

theorem field_status : UInt32.ofNat (field (provisionRecord abi heap ii pvs) (abi.ptrSize + 1 + abi.padDskLen) 4) =
      pvs.status := by
  have hrecord : provisionRecord abi heap ii pvs =
      (Endian.toBytes abi.ptrSize (heap.dsk ii) ++ [UInt8.ofNat pvs.dsk.length] ++
        pad abi.padDskLen) ++ (Endian.toBytes 4 pvs.status.toNat ++
          (Endian.toBytes 4 pvs.bootmode.toNat ++ pad abi.padTlvList ++
            Endian.toBytes abi.ptrSize (if pvs.tlvs = [] then 0 else heap.tlv ii 0))) := by
    simp [provisionRecord]
  rw [hrecord, field_append (by simp; omega) (Endian.length_toBytes _ _), ofNat_ofBytes_toBytes]

theorem field_bootmode :
    UInt32.ofNat (field (provisionRecord abi heap ii pvs) (abi.ptrSize + 1 + abi.padDskLen + 4) 4) =
      pvs.bootmode := by
  have hrecord : provisionRecord abi heap ii pvs =
      (Endian.toBytes abi.ptrSize (heap.dsk ii) ++ [UInt8.ofNat pvs.dsk.length] ++
        pad abi.padDskLen ++ Endian.toBytes 4 pvs.status.toNat) ++
          (Endian.toBytes 4 pvs.bootmode.toNat ++ (pad abi.padTlvList ++
            Endian.toBytes abi.ptrSize (if pvs.tlvs = [] then 0 else heap.tlv ii 0))) := by
    simp [provisionRecord]
  rw [hrecord, field_append (by simp; omega) (Endian.length_toBytes _ _), ofNat_ofBytes_toBytes]

theorem field_tlvList : field (provisionRecord abi heap ii pvs) (abi.ptrSize + 1 + abi.padDskLen + 8 + abi.padTlvList)
      abi.ptrSize = 0 ↔ pvs.tlvs = [] := by
  have hrecord : provisionRecord abi heap ii pvs =
      (Endian.toBytes abi.ptrSize (heap.dsk ii) ++ [UInt8.ofNat pvs.dsk.length] ++
        pad abi.padDskLen ++ Endian.toBytes 4 pvs.status.toNat ++
          Endian.toBytes 4 pvs.bootmode.toNat ++ pad abi.padTlvList) ++
            (Endian.toBytes abi.ptrSize (if pvs.tlvs = [] then 0 else heap.tlv ii 0) ++ []) := by
    simp [provisionRecord]
  have hpos := heap.tlv_pos ii 0
  have hlt := heap.tlv_lt ii 0
  rw [hrecord, field_append (by simp; omega) (Endian.length_toBytes _ _)]
  by_cases htlvs : pvs.tlvs = []
  · simp [htlvs, Endian.ofBytes_toBytes]
  · rw [if_neg htlvs, ofBytes_toBytes_of_lt hlt]
    simp only [htlvs, iff_false]
    omega

def turned (pvs : Provision) : Provision :=
  { pvs with tlvs := pvs.tlvs.reverse }

theorem pvsListDevStore_eq (h : pvs.Sound) : pvsListDevStore abi heap pvs ii =
      (pvsEntryHdr ii ++ provisionRecord abi heap ii pvs ++ pvs.dsk ++ (storeTlvs abi heap ii 0 pvs.tlvs).1, true) := by
  have hdsk : pvs.dsk ≠ [] := List.ne_nil_of_length_pos (by have := h.dskMin; omega)
  simp only [pvsListDevStore, if_neg hdsk, storeTlvs_ok h.values]

theorem pvsListDevImport_append (h : pvs.Sound) (strm : Bytes) :
    pvsListDevImport abi stale ((pvsListDevStore abi heap pvs ii).1 ++ strm) = some (turned pvs, strm) := by
  have hhdr := fread_append
    (provisionRecord abi heap ii pvs ++ (pvs.dsk ++ ((storeTlvs abi heap ii 0 pvs.tlvs).1 ++ strm)))
    (length_pvsEntryHdr ii) (by decide)
  have hrecord := fread_append (pvs.dsk ++ ((storeTlvs abi heap ii 0 pvs.tlvs).1 ++ strm))
    (length_provisionRecord heap ii pvs) (by unfold provisionSize; omega)
  have hdskLen : ¬pvs.dsk.length < 4 := Nat.not_lt.mpr h.dskMin
  have hdsk : importDsk stale pvs.dsk.length (pvs.dsk ++ ((storeTlvs abi heap ii 0 pvs.tlvs).1 ++ strm)) =
      (pvs.dsk, (storeTlvs abi heap ii 0 pvs.tlvs).1 ++ strm) := by
    rw [importDsk, fread_append _ rfl (by omega)]
    rfl
  rw [pvsListDevStore_eq h]
  simp only [pvsListDevImport, List.append_assoc, hhdr, hrecord, Option.bind_eq_bind,
    Option.bind_some, field_dskLen h.dskMax, field_status, field_bootmode, field_tlvList,
    if_neg hdskLen, hdsk]
  by_cases htlvs : pvs.tlvs = []
  · simp [htlvs, turned, storeTlvs]
  · have hlen := length_le_storeTlvs heap ii 0 h.values
    rw [if_neg htlvs, importTlvs_storeTlvs (by rw [List.length_append]; omega) htlvs h.values]
    simp [turned]

end Provisions

section Lists

variable {abi : Abi} {heap : Heap abi} {stale : Stale} {list : PvsList}

theorem importFrom_persistFrom {slots : Nat} {ii : Slot} (hslots : (provisions list).length ≤ slots)
    (hsound : ∀ pvs ∈ provisions list, pvs.Sound) :
    importFrom abi stale slots (persistFrom abi heap ii list) = (provisions list).map turned := by
  induction list generalizing slots ii with
  | nil =>
    cases slots with
    | zero => rfl
    | succ slots => simp [importFrom, persistFrom, pvsListDevImport, fread, pvsEntryHdrLen, provisions]
  | cons entry list ih =>
    cases entry with
    | none => exact ih hslots hsound
    | some pvs =>
      have hprovisions : provisions (some pvs :: list) = pvs :: provisions list := rfl
      rw [hprovisions] at hslots hsound ⊢
      obtain ⟨slots, rfl⟩ : ∃ k, slots = k + 1 := ⟨slots - 1, by simp at hslots; omega⟩
      have hpvs := hsound pvs List.mem_cons_self
      have hok : (pvsListDevStore abi heap pvs ii).2 = true := by rw [pvsListDevStore_eq hpvs]
      rw [persistFrom, if_pos hok, importFrom, pvsListDevImport_append hpvs]
      exact congrArg (turned pvs :: ·) (ih (by simpa using hslots) fun p hp => hsound p (List.mem_cons_of_mem _ hp))

theorem provisions_pvsListImportFile (h : list.Sound) :
    provisions (pvsListImportFile abi stale (pvsListPersistInFile abi heap list)) = (provisions list).map turned := by
  have hslots : (provisions list).length ≤ provisioningListSize :=
    h.size ▸ List.length_filterMap_le _ _
  have hsound : ∀ pvs ∈ provisions list, pvs.Sound := by
    intro pvs hpvs
    obtain ⟨slot, hslot⟩ := mem_provisions.mp hpvs
    exact h.provisions hslot
  have himport : importFrom abi stale provisioningListSize (persistFrom abi heap 0 list) =
      (provisions list).map turned := importFrom_persistFrom hslots hsound
  rw [pvsListImportFile, pvsListPersistInFile, fread_append _ rfl (by decide)]
  simp only [if_pos, himport, provisions, List.filterMap_append, List.filterMap_replicate, id]
  simp [List.filterMap_map]

end Lists

def lookup (list : PvsList) (dsk : Bytes) : Option (UInt32 × UInt32 × (UInt8 → Option Bytes)) :=
  ((provisions list).find? (·.dsk == dsk)).map fun pvs =>
    (pvs.bootmode, pvs.status, fun type => (pvsTlvGet pvs.tlvs type).map Tlv.value)

theorem pvsTlvGet_eq_some {tlvs : List Tlv} (h : (tlvs.map Tlv.type).Nodup) {type : UInt8}
    {tlv : Tlv} : pvsTlvGet tlvs type = some tlv ↔ tlv ∈ tlvs ∧ tlv.type = type := by
  constructor
  · intro hget
    exact ⟨List.mem_of_find?_eq_some hget, by simpa using List.find?_some hget⟩
  · rintro ⟨hmem, rfl⟩
    cases hget : pvsTlvGet tlvs tlv.type with
    | none => simpa using List.find?_eq_none.mp hget tlv hmem
    | some other =>
      have hother : other ∈ tlvs := List.mem_of_find?_eq_some hget
      have htype : other.type = tlv.type := by simpa using List.find?_some hget
      rw [List.inj_on_of_nodup_map h hother hmem htype]

theorem pvsTlvGet_reverse {tlvs : List Tlv} (h : (tlvs.map Tlv.type).Nodup) (type : UInt8) :
    pvsTlvGet tlvs.reverse type = pvsTlvGet tlvs type := by
  have hrev : (tlvs.reverse.map Tlv.type).Nodup := by
    rw [List.map_reverse]
    exact List.nodup_reverse.mpr h
  apply Option.ext
  intro tlv
  rw [pvsTlvGet_eq_some hrev, pvsTlvGet_eq_some h, List.mem_reverse]

/-- Whatever operations have made the list, no DSK is in two slots, no provision has a type twice,
and the file gives back what was under each DSK, whatever the addresses and the padding were. -/
theorem persisted_reachable (ops : List Op) (abi : Abi) (heap : Heap abi) (stale : Stale) :
    (∀ i j p q, (run step blankList ops).at i = some p → (run step blankList ops).at j = some q →
      p.dsk = q.dsk → i = j) ∧
    (∀ i p, (run step blankList ops).at i = some p → (p.tlvs.map Tlv.type).Nodup) ∧
    ∀ dsk, lookup (pvsListImportFile abi stale (pvsListPersistInFile abi heap (run step blankList ops))) dsk =
      lookup (run step blankList ops) dsk := by
  have hsound := sound_run ops
  refine ⟨fun i j p q => hsound.dsks, fun i p hp => (hsound.provisions hp).types, ?_⟩
  intro dsk
  rw [lookup, provisions_pvsListImportFile hsound, List.find?_map, lookup, Option.map_map]
  refine Option.map_congr fun pvs hpvs => ?_
  obtain ⟨slot, hslot⟩ := mem_provisions.mp (List.mem_of_find?_eq_some hpvs)
  have htypes := (hsound.provisions hslot).types
  simp only [Function.comp, turned, pvsTlvGet_reverse htypes]

def twoProvisions : List Op :=
  [.devAdd ⟨[1, 2, 3, 4], by decide⟩ 1 true, .tlvSet (some 0) 5 ⟨[7, 8], by decide⟩ true,
    .tlvSet (some 0) 6 ⟨[9], by decide⟩ true, .devAdd ⟨[1, 2, 3, 4, 5], by decide⟩ 0 true,
    .tlvSet (some 1) 5 ⟨[4], by decide⟩ true, .tlvSet (some 1) 1 ⟨[6, 6], by decide⟩ true]

def sampleHeap : Heap ⟨8, 7, 4, 3⟩ where
  dsk slot := 4096 + slot
  tlv slot i := 8192 + (slot + i) % 4096
  value slot i := 65536 + slot + i
  tlv_pos _ _ := by omega
  tlv_lt slot i := by
    show _ < 18446744073709551616
    omega

theorem twoProvisions_persisted :
    let list := run step blankList twoProvisions
    (provisions list).map (·.tlvs.length) = [2, 2] ∧
      lookup (pvsListImportFile ⟨8, 7, 4, 3⟩ ⟨⟨[], 7, 7, []⟩, fun n => List.replicate n 7⟩
        (pvsListPersistInFile _ sampleHeap list)) [1, 2, 3, 4] = lookup list [1, 2, 3, 4] :=
  ⟨by decide +kernel, (persisted_reachable twoProvisions _ sampleHeap _).2.2 _⟩

end ZipGateway.Provisioning

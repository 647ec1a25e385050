import ZipGateway.Provisioning.Commands
import ZipGateway.Provisioning.Unique

/-!
# A Get after a Set

What a Set frame carries for a type is what the next Get reports under it: of a name, a location or
product data the whole value, of the others as many bytes as they have. The network information is
not stored but comes from the resource directory, and what the list had under the types that were not
carried stays.
-/

namespace ZipGateway.Provisioning

section Frames

structure WireTlv where
  head : UInt8
  value : Short
deriving DecidableEq, Repr

def WireTlv.type (tlv : WireTlv) : UInt8 := tlv.head >>> 1

def WireTlv.bytes (tlv : WireTlv) : Bytes :=
  tlv.head :: UInt8.ofNat tlv.value.1.length :: tlv.value.1

def encodeTlvs (tlvs : List WireTlv) : Bytes :=
  tlvs.flatMap WireTlv.bytes

/-- A Set frame whose TLVs take up all that follows the DSK. -/
structure SetFrame where
  seqNo : UInt8
  reservedDskLength : UInt8
  dsk : Bytes
  tlvs : List WireTlv
  dsk_length : (reservedDskLength &&& provisioningListDskLengthMask).toNat = dsk.length

def SetFrame.front (f : SetFrame) : Bytes :=
  [commandClassProvisioningList, commandProvisionSet, f.seqNo, f.reservedDskLength] ++ f.dsk

def SetFrame.bytes (f : SetFrame) : Bytes :=
  f.front ++ encodeTlvs f.tlvs

/-- The DSK of a Set in memory. -/
def setDsk (pData : Mem) : Bytes :=
  pData.slice 4 (pData 3 &&& provisioningListDskLengthMask).toNat

def lastValue (tlvs : List WireTlv) (type : UInt8) : Option Bytes :=
  ((tlvs.filter (·.type == type)).getLast?).map (·.value.1)

def settable (type : UInt8) : Bool :=
  [pvsTlvTypeName, pvsTlvTypeLocation, pvsTlvTypeBootstrapMode, pvsTlvTypeProductType,
    pvsTlvTypeProductId, pvsTlvTypeStatus, pvsTlvTypeAdvJoin, pvsTlvTypeMaxInclReqInterval,
    pvsTlvTypeUuid16].contains type

def storedForm (type : UInt8) (value : Bytes) : Bytes :=
  if type = pvsTlvTypeBootstrapMode ∨ type = pvsTlvTypeStatus ∨ type = pvsTlvTypeAdvJoin ∨
      type = pvsTlvTypeMaxInclReqInterval then value.take 1
  else if type = pvsTlvTypeUuid16 then value.take 17
  else value

def getFrame (seqNo : UInt8) (dsk : Bytes) : Bytes :=
  [commandClassProvisioningList, commandProvisionGet, seqNo, UInt8.ofNat dsk.length] ++ dsk

def readTlvs : Nat → Bytes → List (UInt8 × Bytes)
  | fuel + 1, head :: length :: rest =>
    if rest.length < length.toNat then []
    else (head >>> 1, rest.take length.toNat) :: readTlvs fuel (rest.drop length.toNat)
  | _, _ => []

def reported (report : Bytes) (type : UInt8) : Option Bytes :=
  let dsklen := (report.getD 3 0 &&& provisioningListDskLengthMask).toNat
  ((readTlvs report.length (report.drop (4 + dsklen))).find? (·.1 == type)).map (·.2)

end Frames

section Handling

variable (rd : RdLookupByDsk) (buf : Mem) (s : Pvl)

def handleSet (f : SetFrame) : Pvl × Answer :=
  pvlCommandHandler rd s (buf.write 0 f.bytes) f.bytes.length

def getReported (seqNo : UInt8) (dsk : Bytes) (type : UInt8) : Option Bytes :=
  (pvlCommandHandler rd s (buf.write 0 (getFrame seqNo dsk)) (getFrame seqNo dsk).length).2.report.bind
    (reported · type)

end Handling

def freshProvision (dsk : Bytes) : Provision where
  dsk := dsk
  status := pvsStatusPending
  bootmode := pvsBootmodeSmartStart
  tlvs := []

def viewOf (rd : RdLookupByDsk) (pvs : Provision) (type : UInt8) : Option Bytes :=
  if type = pvsTlvTypeBootstrapMode then some [pvs.bootmode.toUInt8]
  else if type = pvsTlvTypeStatus then some [pvs.status.toUInt8]
  else if type = pvsTlvTypeNetworkInfo then some (networkInfo (rd pvs.dsk))
  else (pvsTlvGet pvs.tlvs type).map Tlv.value

structure Listed (list : PvsList) : Prop extends PvsList.Sound list where
  types : ∀ {slot pvs}, list.at slot = some pvs → ∀ tlv ∈ pvs.tlvs, tlv.type.toNat < 128

variable {value : Bytes} {fuel : Nat}

section Parsing

/-- What the loop makes of TLVs that fill the frame, up to an empty one at the end. -/
def parsed : SetTlvs → List WireTlv → Option SetTlvs
  | v, [] => some v
  | v, tlv :: rest =>
    if tlv.value.1 ++ encodeTlvs rest = [] then some v
    else
      (parseTlv v tlv.head tlv.value.1 ((tlv.value.1 ++ encodeTlvs rest).headD 0)).bind (parsed · rest)

theorem encodeTlvs_cons (tlv : WireTlv) (rest : List WireTlv) : encodeTlvs (tlv :: rest) =
      tlv.head :: UInt8.ofNat tlv.value.1.length :: (tlv.value.1 ++ encodeTlvs rest) := by
  simp [encodeTlvs, WireTlv.bytes]

theorem toNat_length (value : Short) : (UInt8.ofNat value.1.length).toNat = value.1.length := by
  rw [UInt8.toNat_ofNat', Nat.mod_eq_of_lt value.2]

theorem parseTlvs_eq {mem : Mem} {off fuel : Nat} {v : SetTlvs} {tlvs : List WireTlv} (hfuel : tlvs.length ≤ fuel)
    (hmem : mem.slice off (encodeTlvs tlvs).length = encodeTlvs tlvs) :
    parseTlvs mem (off + (encodeTlvs tlvs).length) fuel off v = parsed v tlvs := by
  induction tlvs generalizing off fuel v with
  | nil =>
    cases fuel with
    | zero => rfl
    | succ fuel => rw [parseTlvs, if_neg (by simp [encodeTlvs]), parsed]
  | cons tlv rest ih =>
    obtain ⟨fuel, rfl⟩ : ∃ k, fuel = k + 1 := ⟨fuel - 1, by simp at hfuel; omega⟩
    rw [encodeTlvs_cons] at hmem
    have hlen : (encodeTlvs (tlv :: rest)).length = tlv.value.1.length + (encodeTlvs rest).length + 2 := by
      rw [encodeTlvs_cons, List.length_cons, List.length_cons, List.length_append]
    have hhead : mem off = tlv.head := Mem.eq_of_slice (i := 0) hmem rfl
    have hlength : mem (off + 1) = UInt8.ofNat tlv.value.1.length :=
      Mem.eq_of_slice (i := 1) hmem rfl
    have hbody : mem.slice (off + 2) (tlv.value.1 ++ encodeTlvs rest).length = tlv.value.1 ++ encodeTlvs rest := by
      have hdrop := congrArg (List.drop 2) hmem
      rw [List.length_cons, List.length_cons, Nat.add_comm _ 1, Nat.add_comm _ 1, ← Nat.add_assoc,
        Mem.drop_slice] at hdrop
      exact hdrop
    rw [List.length_append, Mem.slice_add] at hbody
    obtain ⟨hvalue, hrest⟩ := List.append_inj hbody (by simp)
    rw [parsed]
    by_cases hempty : tlv.value.1 ++ encodeTlvs rest = []
    · have hzero : tlv.value.1.length + (encodeTlvs rest).length = 0 := by
        rw [← List.length_append, hempty, List.length_nil]
      rw [parseTlvs, if_neg (by omega), if_pos hempty]
    · have hpos : 0 < (tlv.value.1 ++ encodeTlvs rest).length := List.length_pos_iff.mpr hempty
      rw [List.length_append] at hpos
      have hfirst : mem (off + 2) = (tlv.value.1 ++ encodeTlvs rest).headD 0 := by
        cases hlist : tlv.value.1 ++ encodeTlvs rest with
        | nil => exact absurd hlist hempty
        | cons b bs =>
          have hslice := Mem.slice_add mem (off + 2) tlv.value.1.length (encodeTlvs rest).length
          rw [hbody, hlist] at hslice
          exact Mem.eq_of_slice (i := 0) hslice rfl
      rw [parseTlvs, if_pos (by omega), hlength, toNat_length, if_neg (by omega), if_neg hempty, hhead, hvalue, hfirst]
      have hend : off + (encodeTlvs (tlv :: rest)).length =
          off + 2 + tlv.value.1.length + (encodeTlvs rest).length := by omega
      rw [hend]
      congr 1
      funext v'
      exact ih (by simpa using hfuel) hrest

end Parsing

section Values

def SetTlvs.get (v : SetTlvs) (type : UInt8) : Option Bytes :=
  if type = pvsTlvTypeName then v.name
  else if type = pvsTlvTypeLocation then v.location
  else if type = pvsTlvTypeBootstrapMode then v.bootstrapMode.map ([·])
  else if type = pvsTlvTypeProductType then v.productType
  else if type = pvsTlvTypeProductId then v.productId
  else if type = pvsTlvTypeStatus then v.provStatus.map ([·])
  else if type = pvsTlvTypeAdvJoin then v.provGrantedKeys.map ([·])
  else if type = pvsTlvTypeMaxInclReqInterval then v.maxInclReqInterval.map ([·])
  else if type = pvsTlvTypeUuid16 then v.uuid16
  else none

theorem take_one_of_head? {first : UInt8} (h : value.head? = some first) : value.take 1 = [first] := by
  cases value with
  | nil => cases h
  | cons b rest =>
    cases h
    rfl

/-- `parseTlv` on a TLV that is not refused. -/
def SetTlvs.put (v : SetTlvs) (type : UInt8) (value : Bytes) (first : UInt8) : SetTlvs :=
  if type = pvsTlvTypeName then { v with name := some value }
  else if type = pvsTlvTypeLocation then { v with location := some value }
  else if type = pvsTlvTypeBootstrapMode then { v with bootstrapMode := some first }
  else if type = pvsTlvTypeProductType then { v with productType := some value }
  else if type = pvsTlvTypeProductId then { v with productId := some value }
  else if type = pvsTlvTypeStatus then { v with provStatus := some first }
  else if type = pvsTlvTypeNetworkInfo then v
  else if type = pvsTlvTypeAdvJoin then { v with provGrantedKeys := some first }
  else if type = pvsTlvTypeMaxInclReqInterval then { v with maxInclReqInterval := some first }
  else if type = pvsTlvTypeUuid16 then { v with uuid16 := some (value.take 17) }
  else v

theorem eq_of_ite_none {α : Type*} {c : Prop} [Decidable c] {a b : α}
    (h : (if c then none else some a) = some b) : b = a := by
  split at h
  · cases h
  · exact (Option.some.inj h).symm

theorem parseTlv_eq_put {v v' : SetTlvs} {head first : UInt8}
    (h : parseTlv v head value first = some v') : v' = v.put (head >>> 1) value first := by
  rw [parseTlv] at h
  rw [SetTlvs.put]
  by_cases hName : head >>> 1 = pvsTlvTypeName
  · rw [if_pos hName] at h ⊢
    exact (Option.some.inj h).symm
  rw [if_neg hName] at h ⊢
  by_cases hLocation : head >>> 1 = pvsTlvTypeLocation
  · rw [if_pos hLocation] at h ⊢
    exact (Option.some.inj h).symm
  rw [if_neg hLocation] at h ⊢
  by_cases hBootstrapMode : head >>> 1 = pvsTlvTypeBootstrapMode
  · rw [if_pos hBootstrapMode] at h ⊢
    exact (Option.some.inj h).symm
  rw [if_neg hBootstrapMode] at h ⊢
  by_cases hProductType : head >>> 1 = pvsTlvTypeProductType
  · rw [if_pos hProductType] at h ⊢
    exact eq_of_ite_none h
  rw [if_neg hProductType] at h ⊢
  by_cases hProductId : head >>> 1 = pvsTlvTypeProductId
  · rw [if_pos hProductId] at h ⊢
    exact eq_of_ite_none h
  rw [if_neg hProductId] at h ⊢
  by_cases hStatus : head >>> 1 = pvsTlvTypeStatus
  · rw [if_pos hStatus] at h ⊢
    exact eq_of_ite_none h
  rw [if_neg hStatus] at h ⊢
  by_cases hNetworkInfo : head >>> 1 = pvsTlvTypeNetworkInfo
  · rw [if_pos hNetworkInfo] at h ⊢
    exact (Option.some.inj h).symm
  rw [if_neg hNetworkInfo] at h ⊢
  by_cases hAdvJoin : head >>> 1 = pvsTlvTypeAdvJoin
  · rw [if_pos hAdvJoin] at h ⊢
    exact eq_of_ite_none h
  rw [if_neg hAdvJoin] at h ⊢
  by_cases hMaxInclReqInterval : head >>> 1 = pvsTlvTypeMaxInclReqInterval
  · rw [if_pos hMaxInclReqInterval] at h ⊢
    exact eq_of_ite_none h
  rw [if_neg hMaxInclReqInterval] at h ⊢
  by_cases hUuid16 : head >>> 1 = pvsTlvTypeUuid16
  · rw [if_pos hUuid16] at h ⊢
    exact eq_of_ite_none h
  rw [if_neg hUuid16] at h ⊢
  exact eq_of_ite_none h

theorem get_put_of_ne {v : SetTlvs} {t type first : UInt8} (hne : type ≠ t) :
    (v.put t value first).get type = v.get type := by
  simp only [SetTlvs.put]
  split_ifs <;> first | rfl | (subst_vars; simp only [SetTlvs.get, if_neg hne])

theorem get_put_of_settable {v : SetTlvs} {type first : UInt8} (hset : settable type = true)
    (hfirst : value.head? = some first) :
    (v.put type value first).get type = some (storedForm type value) := by
  have htake := take_one_of_head? hfirst
  simp only [settable, List.contains_cons, List.contains_nil, Bool.or_eq_true, beq_iff_eq, Bool.or_false] at hset
  rcases hset with rfl | rfl | rfl | rfl | rfl | rfl | rfl | rfl | rfl
  all_goals simp [SetTlvs.put, SetTlvs.get, storedForm, htake, pvsTlvTypeName, pvsTlvTypeLocation,
    pvsTlvTypeBootstrapMode, pvsTlvTypeProductType, pvsTlvTypeProductId, pvsTlvTypeStatus,
    pvsTlvTypeAdvJoin, pvsTlvTypeMaxInclReqInterval, pvsTlvTypeUuid16, pvsTlvTypeNetworkInfo]

theorem get_eq_none_of_not_settable {v : SetTlvs} {type : UInt8} (h : settable type = false) : v.get type = none := by
  simp only [settable, List.contains_cons, List.contains_nil, Bool.or_eq_false_iff,
    beq_eq_false_iff_ne, Bool.or_false] at h
  simp only [SetTlvs.get, h, if_false]

theorem lastValue_cons (tlv : WireTlv) (rest : List WireTlv) (type : UInt8) : lastValue (tlv :: rest) type =
      (lastValue rest type).or (if tlv.type = type then some tlv.value.1 else none) := by
  by_cases htype : tlv.type = type
  · simp only [lastValue, List.filter_cons, htype, beq_self_eq_true, if_true, List.getLast?_cons]
    cases (rest.filter (·.type == type)).getLast? <;> rfl
  · have hbeq : (tlv.type == type) = false := beq_eq_false_iff_ne.mpr htype
    simp [lastValue, hbeq, htype]

theorem eq_nil_of_encodeTlvs {tlvs : List WireTlv} (h : encodeTlvs tlvs = []) : tlvs = [] := by
  cases tlvs with
  | nil => rfl
  | cons tlv rest =>
    rw [encodeTlvs_cons] at h
    cases h

theorem get_parsed {v v' : SetTlvs} {tlvs : List WireTlv} (h : parsed v tlvs = some v') (type : UInt8) :
    (lastValue tlvs type = none → v'.get type = v.get type) ∧
    (settable type = true → ∀ value, lastValue tlvs type = some value → value ≠ [] →
      v'.get type = some (storedForm type value)) := by
  induction tlvs generalizing v with
  | nil =>
    cases h
    exact ⟨fun _ => rfl, fun _ value hvalue => nomatch hvalue⟩
  | cons tlv rest ih =>
    rw [lastValue_cons]
    rw [parsed] at h
    split at h
    · rename_i hempty
      obtain ⟨hvalue, hrest⟩ := List.append_eq_nil_iff.mp hempty
      obtain rfl := Option.some.inj h
      obtain rfl := eq_nil_of_encodeTlvs hrest
      refine ⟨fun _ => rfl, ?_⟩
      intro _ value hlast hne
      have hnone : lastValue [] type = none := rfl
      rw [hnone, Option.none_or, hvalue] at hlast
      split at hlast
      · exact absurd (Option.some.inj hlast).symm hne
      · cases hlast
    · obtain ⟨v₁, hv₁, hrun⟩ := Option.bind_eq_some_iff.mp h
      obtain ⟨hkeep, hfound⟩ := ih hrun
      have hput := parseTlv_eq_put hv₁
      constructor
      · intro hnone
        obtain ⟨hrest, htype⟩ := Option.or_eq_none_iff.mp hnone
        have hne : type ≠ tlv.head >>> 1 := fun heq => by simp [WireTlv.type, heq] at htype
        rw [hkeep hrest, hput, get_put_of_ne hne]
      · intro hset value hlast hne
        cases hrest : lastValue rest type with
        | some last =>
          rw [hrest, Option.some_or] at hlast
          obtain rfl := Option.some.inj hlast
          exact hfound hset last hrest hne
        | none =>
          rw [hrest, Option.none_or] at hlast
          split at hlast
          · rename_i htype
            obtain rfl := Option.some.inj hlast
            have hhead : tlv.head >>> 1 = type := htype
            rw [hkeep hrest, hput, hhead]
            refine get_put_of_settable hset ?_
            cases hlist : tlv.value.1 with
            | nil => exact absurd hlist hne
            | cons b bs => rfl
          · cases hlast

end Values

section Storing

variable {list : PvsList} {slot : Slot} {dsk : Bytes} {v : SetTlvs}

def setTlv (tlvs : List Tlv) (tlv : Tlv) : List Tlv :=
  if tlv.value = [] then tlvs else pvsTlvSet tlvs tlv.type tlv.value (pvsTlvGet tlvs tlv.type)

def updated (v : SetTlvs) (pvs : Provision) : Provision where
  dsk := pvs.dsk
  status := (v.provStatus.map UInt8.toUInt32).getD pvs.status
  bootmode := (v.bootstrapMode.map UInt8.toUInt32).getD pvs.bootmode
  tlvs := v.stored.foldl setTlv pvs.tlvs

theorem write_write (list : PvsList) (slot : Slot) (f g : Provision → Provision) :
    (list.write slot f).write slot g = list.write slot (g ∘ f) := by
  rw [write_eq_set (list.write slot f), at_write_self, write_eq_set list slot f, List.set_set,
    write_eq_set list, Option.map_map]

theorem write_id (list : PvsList) (slot : Slot) : list.write slot id = list := by
  rw [PvsList.write, Option.map_id]
  exact List.modify_id slot list

theorem foldl_tlvSet (tlvs : List Tlv) (list : PvsList) (slot : Slot) :
    tlvs.foldl (fun list tlv => provisioningListTlvSet list (some slot) tlv.type tlv.value true) list =
      list.write slot fun pvs => { pvs with tlvs := tlvs.foldl setTlv pvs.tlvs } := by
  induction tlvs generalizing list with
  | nil => exact (write_id list slot).symm
  | cons tlv rest ih =>
    rw [List.foldl_cons, ih]
    by_cases hempty : tlv.value = []
    · simp only [provisioningListTlvSet, hempty, true_or, if_true, List.foldl_cons, setTlv]
    · have hset : provisioningListTlvSet list (some slot) tlv.type tlv.value true =
          list.write slot fun pvs => { pvs with tlvs := setTlv pvs.tlvs tlv } := by
        simp only [provisioningListTlvSet, hempty, Bool.true_eq_false, or_self, if_false, setTlv]
      rw [hset, write_write]
      rfl

theorem write_status_tlvs (list : PvsList) (slot : Slot) (v : SetTlvs) : v.stored.foldl
        (fun list tlv => provisioningListTlvSet list (some slot) tlv.type tlv.value true)
        (match v.provStatus with
          | none => list
          | some status => provisioningListStatusSet list (some slot) status.toUInt32) =
      list.write slot fun pvs =>
        { updated v pvs with bootmode := pvs.bootmode } := by
  cases hstatus : v.provStatus with
  | none =>
    rw [foldl_tlvSet]
    simp only [updated, hstatus]
    rfl
  | some status =>
    simp only [foldl_tlvSet, provisioningListStatusSet, write_write]
    simp only [updated, hstatus]
    rfl

theorem setProvision_of_found {pvs : Provision} (hget : provisioningListDevGet list dsk = some slot)
    (hat : list.at slot = some pvs) :
    setProvision list dsk v = list.set slot (some (updated v pvs)) := by
  rw [setProvision, hget]
  refine (write_status_tlvs _ slot v).trans ?_
  cases hmode : v.bootstrapMode with
  | none =>
    rw [write_eq_set, hat]
    simp only [updated, hmode]
    rfl
  | some mode =>
    simp only [provisioningListBootmodeSet, write_write]
    rw [write_eq_set, hat]
    simp only [updated, hmode]
    rfl

theorem setProvision_of_blank (hmin : 4 ≤ dsk.length) (hget : provisioningListDevGet list dsk = none)
    (hblank : list.findIdx? Option.isNone = some slot) :
    setProvision list dsk v = list.set slot (some (updated v (freshProvision dsk))) := by
  obtain ⟨hslot, -⟩ := at_of_findIdx?_isNone hblank
  have hadd : ∀ mode, provisioningListDevAdd list dsk mode true =
      (some slot, list.set slot (some { freshProvision dsk with bootmode := mode })) := by
    intro mode
    rw [provisioningListDevAdd, if_neg (by omega), hget, if_neg (by decide), pvsDevAdd, hblank]
    rfl
  rw [setProvision, hget]
  simp only [hadd]
  refine (write_status_tlvs _ slot v).trans ?_
  rw [write_eq_set, at_set_self hslot, List.set_set]
  simp only [Option.map_some, updated, freshProvision]

theorem setProvision_of_full (hmin : 4 ≤ dsk.length) (hget : provisioningListDevGet list dsk = none)
    (hblank : list.findIdx? Option.isNone = none) : setProvision list dsk v = list := by
  have hadd : ∀ mode, provisioningListDevAdd list dsk mode true = (none, list) := by
    intro mode
    rw [provisioningListDevAdd, if_neg (by omega), hget, if_neg (by decide), pvsDevAdd, hblank]
  rw [setProvision, hget]
  simp only [hadd]

end Storing

section Lookups

variable {tlvs new : List Tlv} {tlv : Tlv} {type : UInt8} {v : SetTlvs}

theorem pvsTlvGet_cons (tlv : Tlv) (tlvs : List Tlv) (type : UInt8) :
    pvsTlvGet (tlv :: tlvs) type = if tlv.type = type then some tlv else pvsTlvGet tlvs type := by
  by_cases htype : tlv.type = type <;> simp [pvsTlvGet, htype]

theorem pvsTlvGet_replaceValue (value : Bytes) (t : UInt8) : pvsTlvGet (replaceValue t value tlvs) type =
      if t = type then (pvsTlvGet tlvs t).map fun _ => { type := t, value } else pvsTlvGet tlvs type := by
  induction tlvs with
  | nil => cases Decidable.em (t = type) <;> simp_all [replaceValue, pvsTlvGet]
  | cons head rest ih =>
    by_cases hhead : head.type = t
    · rw [replaceValue, if_pos hhead, pvsTlvGet_cons, pvsTlvGet_cons, pvsTlvGet_cons, if_pos hhead]
      by_cases ht : t = type <;> simp [ht, hhead]
    · rw [replaceValue, if_neg hhead, pvsTlvGet_cons, ih, pvsTlvGet_cons head rest t, if_neg hhead, pvsTlvGet_cons]
      by_cases ht : t = type
      · rw [if_pos ht, if_neg (ht ▸ hhead), if_pos ht]
      · rw [if_neg ht, if_neg ht]

theorem pvsTlvGet_pvsTlvSet (value : Bytes) (t : UInt8) : pvsTlvGet (pvsTlvSet tlvs t value (pvsTlvGet tlvs t)) type =
      if t = type then some { type := t, value } else pvsTlvGet tlvs type := by
  rw [pvsTlvSet]
  cases hget : pvsTlvGet tlvs t with
  | none =>
    have hnone : ¬(none : Option Tlv).isSome = true := by decide
    rw [if_neg hnone, pvsTlvGet_cons]
  | some old =>
    have hsome : (some old).isSome = true := rfl
    rw [if_pos hsome, pvsTlvGet_replaceValue, hget, Option.map_some]

theorem pvsTlvGet_setTlv : pvsTlvGet (setTlv tlvs tlv) type =
      if tlv.value ≠ [] ∧ tlv.type = type then some tlv else pvsTlvGet tlvs type := by
  by_cases hempty : tlv.value = []
  · have hneg : ¬(tlv.value ≠ [] ∧ tlv.type = type) := fun h => h.1 hempty
    rw [setTlv, if_pos hempty, if_neg hneg]
  · rw [setTlv, if_neg hempty, pvsTlvGet_pvsTlvSet]
    simp only [ne_eq, hempty, not_false_eq_true, true_and]

theorem pvsTlvGet_foldl_of_ne (h : ∀ tlv ∈ new, tlv.type ≠ type) :
    pvsTlvGet (new.foldl setTlv tlvs) type = pvsTlvGet tlvs type := by
  induction new generalizing tlvs with
  | nil => rfl
  | cons head rest ih =>
    rw [List.foldl_cons, ih fun t ht => h t (List.mem_cons_of_mem _ ht), pvsTlvGet_setTlv,
      if_neg fun hhead => h head List.mem_cons_self hhead.2]

theorem pvsTlvGet_foldl_of_mem (hnodup : (new.map Tlv.type).Nodup) (hmem : tlv ∈ new)
    (hne : tlv.value ≠ []) : pvsTlvGet (new.foldl setTlv tlvs) tlv.type = some tlv := by
  induction new generalizing tlvs with
  | nil => cases hmem
  | cons head rest ih =>
    obtain ⟨hhead, hrest⟩ := List.nodup_cons.mp hnodup
    rw [List.foldl_cons]
    rcases List.mem_cons.mp hmem with rfl | hmem
    · rw [pvsTlvGet_foldl_of_ne, pvsTlvGet_setTlv, if_pos ⟨hne, rfl⟩]
      intro other hother heq
      exact hhead (heq ▸ List.mem_map_of_mem hother)
    · exact ih hrest hmem

def storedTypes : List UInt8 :=
  [pvsTlvTypeName, pvsTlvTypeLocation, pvsTlvTypeAdvJoin, pvsTlvTypeProductType, pvsTlvTypeProductId,
    pvsTlvTypeMaxInclReqInterval, pvsTlvTypeUuid16]

theorem stored_eq (v : SetTlvs) :
    v.stored = storedTypes.filterMap fun type => (v.get type).map fun value => { type, value } := rfl

theorem mem_stored : tlv ∈ v.stored ↔ tlv.type ∈ storedTypes ∧ v.get tlv.type = some tlv.value := by
  rw [stored_eq, List.mem_filterMap]
  constructor
  · rintro ⟨type, htype, hget⟩
    obtain ⟨value, hvalue, rfl⟩ := Option.map_eq_some_iff.mp hget
    exact ⟨htype, hvalue⟩
  · rintro ⟨htype, hget⟩
    exact ⟨tlv.type, htype, by rw [hget]; rfl⟩

theorem nodup_stored (v : SetTlvs) : (v.stored.map Tlv.type).Nodup := by
  have hsub : (v.stored.map Tlv.type).Sublist storedTypes := by
    rw [stored_eq, List.map_filterMap]
    generalize storedTypes = types
    induction types with
    | nil => exact List.Sublist.slnil
    | cons type rest ih =>
      rw [List.filterMap_cons]
      cases v.get type with
      | none => exact ih.cons _
      | some value => exact ih.cons_cons _
  exact hsub.nodup (by decide)

theorem mem_storedTypes (hset : settable type = true) (hmode : type ≠ pvsTlvTypeBootstrapMode)
    (hstatus : type ≠ pvsTlvTypeStatus) : type ∈ storedTypes := by
  simp only [settable, List.contains_cons, List.contains_nil, Bool.or_eq_true, beq_iff_eq, Bool.or_false] at hset
  simp only [storedTypes, List.mem_cons, List.not_mem_nil, or_false]
  tauto

theorem get_bootstrapMode (v : SetTlvs) : v.get pvsTlvTypeBootstrapMode = v.bootstrapMode.map ([·]) := rfl

theorem get_status (v : SetTlvs) : v.get pvsTlvTypeStatus = v.provStatus.map ([·]) := rfl

variable {rd : RdLookupByDsk} {pvs : Provision}

theorem viewOf_bootstrapMode : viewOf rd pvs pvsTlvTypeBootstrapMode = some [pvs.bootmode.toUInt8] := rfl

theorem viewOf_status : viewOf rd pvs pvsTlvTypeStatus = some [pvs.status.toUInt8] := rfl

theorem viewOf_updated_of_none (h : v.get type = none) : viewOf rd (updated v pvs) type = viewOf rd pvs type := by
  by_cases hmode : type = pvsTlvTypeBootstrapMode
  · subst hmode
    rw [get_bootstrapMode, Option.map_eq_none_iff] at h
    simp only [viewOf_bootstrapMode, updated, h, Option.map_none, Option.getD_none]
  by_cases hstatus : type = pvsTlvTypeStatus
  · subst hstatus
    rw [get_status, Option.map_eq_none_iff] at h
    simp only [viewOf_status, updated, h, Option.map_none, Option.getD_none]
  have hget : pvsTlvGet (updated v pvs).tlvs type = pvsTlvGet pvs.tlvs type := by
    refine pvsTlvGet_foldl_of_ne fun tlv htlv heq => ?_
    rw [← heq, (mem_stored.mp htlv).2] at h
    cases h
  rw [viewOf, viewOf, if_neg hmode, if_neg hmode, if_neg hstatus, if_neg hstatus, hget]
  rfl

theorem viewOf_updated_of_some (hset : settable type = true) (h : v.get type = some value)
    (hne : value ≠ []) : viewOf rd (updated v pvs) type = some value := by
  by_cases hmode : type = pvsTlvTypeBootstrapMode
  · subst hmode
    rw [get_bootstrapMode] at h
    obtain ⟨mode, hsome, rfl⟩ := Option.map_eq_some_iff.mp h
    simp [viewOf_bootstrapMode, updated, hsome]
  by_cases hstatus : type = pvsTlvTypeStatus
  · subst hstatus
    rw [get_status] at h
    obtain ⟨status, hsome, rfl⟩ := Option.map_eq_some_iff.mp h
    simp [viewOf_status, updated, hsome]
  have hnet : type ≠ pvsTlvTypeNetworkInfo := by
    rintro rfl
    cases hset
  have hmem : { type, value } ∈ v.stored :=
    mem_stored.mpr ⟨mem_storedTypes hset hmode hstatus, h⟩
  have hget : pvsTlvGet (updated v pvs).tlvs type = some { type, value } :=
    pvsTlvGet_foldl_of_mem (nodup_stored v) hmem hne
  rw [viewOf, if_neg hmode, if_neg hstatus, if_neg hnet, hget, Option.map_some]

end Lookups

section Reading

variable {rd : RdLookupByDsk} {pvs : Provision}

theorem readTlvs_cons {head : UInt8} (hmax : value.length < 256) (rest : Bytes) :
    readTlvs (fuel + 1) (head :: UInt8.ofNat value.length :: (value ++ rest)) =
      (head >>> 1, value) :: readTlvs fuel rest := by
  have hlen : (UInt8.ofNat value.length).toNat = value.length := toNat_length ⟨value, hmax⟩
  rw [readTlvs, hlen, if_neg (by rw [List.length_append]; omega), List.take_left, List.drop_left]

theorem shiftRight_crtFlag {type : UInt8} (h : type.toNat < 128) :
    (type <<< 1 ||| provisioningListTlvCrtFlag type) >>> 1 = type := by
  rw [provisioningListTlvCrtFlag]
  split
  · rename_i htype
    subst htype
    rfl
  · rw [UInt8.or_zero]
    apply UInt8.toNat_inj.mp
    have hone : (1 : UInt8).toNat % 8 = 1 := rfl
    rw [UInt8.toNat_shiftRight, UInt8.toNat_shiftLeft, hone, Nat.shiftLeft_eq, Nat.shiftRight_eq_div_pow]
    omega

def reportTlvs (rd : RdLookupByDsk) (pvs : Provision) : List (UInt8 × Bytes) :=
  (pvsTlvTypeBootstrapMode, [pvs.bootmode.toUInt8]) :: (pvsTlvTypeStatus, [pvs.status.toUInt8]) ::
    (pvsTlvTypeNetworkInfo, networkInfo (rd pvs.dsk)) :: pvs.tlvs.map fun tlv => (tlv.type, tlv.value)

theorem length_networkInfo (node : Option RdNode) : (networkInfo node).length = 4 := by
  cases node with
  | none => rfl
  | some node =>
    simp only [networkInfo]
    split <;> rfl

theorem readTlvs_stored {tlvs : List Tlv} (hfuel : tlvs.length ≤ fuel)
    (htypes : ∀ tlv ∈ tlvs, tlv.type.toNat < 128) (hvalues : ∀ tlv ∈ tlvs, tlv.value.length < 256) :
    readTlvs fuel (tlvs.flatMap fun tlv =>
        (tlv.type <<< (1 : UInt8) ||| provisioningListTlvCrtFlag tlv.type) ::
          UInt8.ofNat tlv.value.length :: tlv.value) =
      tlvs.map fun tlv => (tlv.type, tlv.value) := by
  induction tlvs generalizing fuel with
  | nil => cases fuel <;> rfl
  | cons tlv rest ih =>
    obtain ⟨fuel, rfl⟩ : ∃ k, fuel = k + 1 := ⟨fuel - 1, by simp at hfuel; omega⟩
    rw [List.flatMap_cons, List.cons_append, List.cons_append,
      readTlvs_cons (hvalues tlv List.mem_cons_self), shiftRight_crtFlag (htypes tlv List.mem_cons_self),
      ih (by simpa using hfuel) (fun t ht => htypes t (List.mem_cons_of_mem _ ht))
        fun t ht => hvalues t (List.mem_cons_of_mem _ ht), List.map_cons]

theorem readTlvs_addTlvs (hfuel : pvs.tlvs.length ≤ fuel)
    (htypes : ∀ tlv ∈ pvs.tlvs, tlv.type.toNat < 128) (hsound : pvs.Sound) :
    readTlvs (fuel + 3) (ccProvisioningListAddTlvs rd pvs) = reportTlvs rd pvs := by
  have hnet : (4 : UInt8) = UInt8.ofNat (networkInfo (rd pvs.dsk)).length := by
    rw [length_networkInfo]
    rfl
  have hstored := readTlvs_stored hfuel htypes fun tlv htlv => (hsound.values tlv htlv).2
  have hbytes : ccProvisioningListAddTlvs rd pvs =
      (pvsTlvTypeBootstrapMode <<< 1 ||| 1) :: UInt8.ofNat [pvs.bootmode.toUInt8].length :: ([pvs.bootmode.toUInt8] ++
          (pvsTlvTypeStatus <<< 1 ||| 1) :: UInt8.ofNat [pvs.status.toUInt8].length :: ([pvs.status.toUInt8] ++
              (pvsTlvTypeNetworkInfo <<< 1) :: UInt8.ofNat (networkInfo (rd pvs.dsk)).length ::
                (networkInfo (rd pvs.dsk) ++ pvs.tlvs.flatMap fun tlv =>
                  (tlv.type <<< (1 : UInt8) ||| provisioningListTlvCrtFlag tlv.type) ::
                    UInt8.ofNat tlv.value.length :: tlv.value))) := by
    rw [← hnet]
    simp [ccProvisioningListAddTlvs]
  rw [hbytes, readTlvs_cons (by simp), readTlvs_cons (by simp),
    readTlvs_cons (by rw [length_networkInfo]; decide), hstored]
  rfl

theorem find?_reportTlvs (rd : RdLookupByDsk) (pvs : Provision) (type : UInt8) :
    ((reportTlvs rd pvs).find? (·.1 == type)).map (·.2) = viewOf rd pvs type := by
  have hstored : ((pvs.tlvs.map fun tlv => (tlv.type, tlv.value)).find? (·.1 == type)).map (·.2) =
      (pvsTlvGet pvs.tlvs type).map Tlv.value := by
    rw [List.find?_map, Option.map_map]
    rfl
  simp only [reportTlvs, viewOf, List.find?_cons]
  by_cases hmode : type = pvsTlvTypeBootstrapMode
  · subst hmode
    simp
  by_cases hstatus : type = pvsTlvTypeStatus
  · subst hstatus
    rfl
  by_cases hnet : type = pvsTlvTypeNetworkInfo
  · subst hnet
    rfl
  rw [beq_false_of_ne (Ne.symm hmode), beq_false_of_ne (Ne.symm hstatus),
    beq_false_of_ne (Ne.symm hnet), if_neg hmode, if_neg hstatus, if_neg hnet]
  exact hstored

theorem length_le_addTlvs (rd : RdLookupByDsk) (pvs : Provision) :
    pvs.tlvs.length + 3 ≤ (ccProvisioningListAddTlvs rd pvs).length := by
  have hstored : ∀ tlvs : List Tlv, tlvs.length ≤ (tlvs.flatMap fun tlv =>
      (tlv.type <<< (1 : UInt8) ||| provisioningListTlvCrtFlag tlv.type) ::
        UInt8.ofNat tlv.value.length :: tlv.value).length := by
    intro tlvs
    induction tlvs with
    | nil => exact Nat.zero_le _
    | cons tlv rest ih =>
      rw [List.flatMap_cons, List.length_append, List.length_cons, List.length_cons, List.length_cons]
      omega
  have hlen := hstored pvs.tlvs
  simp only [ccProvisioningListAddTlvs, List.length_append, List.length_cons, List.length_nil]
  omega

theorem reported_buildReport (hsound : pvs.Sound) (hdsk : pvs.dsk.length < 32)
    (htypes : ∀ tlv ∈ pvs.tlvs, tlv.type.toNat < 128) (seqNo type : UInt8) :
    reported (ccProvisioningListBuildReport rd (some pvs) seqNo) type = viewOf rd pvs type := by
  have hbyte : (ccProvisioningListBuildReport rd (some pvs) seqNo).getD 3 0 =
      UInt8.ofNat pvs.dsk.length &&& provisioningListDskLengthMask := rfl
  have hdrop : (ccProvisioningListBuildReport rd (some pvs) seqNo).drop 4 =
      pvs.dsk ++ ccProvisioningListAddTlvs rd pvs := rfl
  have hlen := congrArg List.length hdrop
  rw [List.length_drop, List.length_append] at hlen
  have hle := length_le_addTlvs rd pvs
  obtain ⟨fuel, hfuel⟩ : ∃ k, (ccProvisioningListBuildReport rd (some pvs) seqNo).length = k + 3 :=
    ⟨(ccProvisioningListBuildReport rd (some pvs) seqNo).length - 3, by omega⟩
  rw [reported, hbyte, ofNat_and_mask_of_lt hdsk, ofNat_and_mask_of_lt hdsk,
    toNat_length ⟨pvs.dsk, by omega⟩, ← List.drop_drop, hdrop, List.drop_left, hfuel,
    readTlvs_addTlvs (by omega) htypes hsound, find?_reportTlvs]

theorem reported_buildReport_none (seqNo type : UInt8) :
    reported (ccProvisioningListBuildReport rd none seqNo) type = none := by
  rw [reported]
  have hbyte : (ccProvisioningListBuildReport rd none seqNo).getD 3 0 = 0 := rfl
  have hlen : (ccProvisioningListBuildReport rd none seqNo).length = 4 := rfl
  rw [hbyte, List.drop_eq_nil_of_le (by rw [hlen]; omega)]
  rfl

theorem getReported_eq {s : Pvl} {dsk : Bytes} (hs : Listed s.list) (hdsk : dsk.length < 32)
    (buf : Mem) (seqNo type : UInt8) :
    getReported rd buf s seqNo dsk type = (entryOf s.list dsk).bind (viewOf rd · type) := by
  have hmem : (buf.write 0 (getFrame seqNo dsk)).slice 0 (getFrame seqNo dsk).length =
      getFrame seqNo dsk := Mem.slice_write_self _ _ _
  have hcmd : buf.write 0 (getFrame seqNo dsk) 1 = commandProvisionGet :=
    Mem.eq_of_slice_zero hmem rfl
  have hlength : (buf.write 0 (getFrame seqNo dsk) 3).toNat = dsk.length := by
    rw [Mem.eq_of_slice_zero (i := 3) hmem rfl]
    exact toNat_length ⟨dsk, by omega⟩
  have hslice : (buf.write 0 (getFrame seqNo dsk)).slice 4 dsk.length = dsk := by
    have hframe : (getFrame seqNo dsk).length = 4 + dsk.length := by
      simp only [getFrame, List.length_append, List.length_cons, List.length_nil]
    have hdrop := congrArg (List.drop 4) hmem
    rw [hframe, Mem.drop_slice] at hdrop
    exact hdrop
  have hlen : ¬(getFrame seqNo dsk).length < 2 := by simp [getFrame]
  have hentry : (provisioningListDevGet s.list dsk).bind s.list.at = entryOf s.list dsk := rfl
  rw [getReported, pvlCommandHandler, if_neg hlen, hcmd, if_neg (by decide), if_neg (by decide),
    if_neg (by decide), if_pos rfl, provisionGet]
  simp only [hlength, hslice, hentry, Option.bind_some]
  cases hfound : entryOf s.list dsk with
  | none => rw [reported_buildReport_none, Option.bind_none]
  | some pvs =>
    obtain ⟨hprov, hpvs⟩ := (entryOf_eq_some hs.toSound).mp hfound
    obtain ⟨slot, hslot⟩ := mem_provisions.mp hprov
    rw [Option.bind_some, reported_buildReport (hs.provisions hslot) (hpvs ▸ hdsk) (hs.types hslot)]

end Reading

section Kept

variable {list : PvsList} {dsk : Bytes} {v v' : SetTlvs} {pvs : Provision}

def SetTlvs.Small (v : SetTlvs) : Prop :=
  ∀ type value, v.get type = some value → value.length < 256

theorem small_put {type first : UInt8} (h : v.Small) (hvalue : value.length < 256) :
    (v.put type value first).Small := by
  intro t found hfound
  by_cases heq : t = type
  · subst heq
    have hcases : found = value ∨ found = [first] ∨ found = value.take 17 := by
      cases hset : settable t with
      | false => rw [get_eq_none_of_not_settable hset] at hfound; cases hfound
      | true =>
        simp only [settable, List.contains_cons, List.contains_nil, Bool.or_eq_true, beq_iff_eq, Bool.or_false] at hset
        rcases hset with rfl | rfl | rfl | rfl | rfl | rfl | rfl | rfl | rfl
        · exact .inl (Option.some.inj hfound).symm
        · exact .inl (Option.some.inj hfound).symm
        · exact .inr (.inl (Option.some.inj hfound).symm)
        · exact .inl (Option.some.inj hfound).symm
        · exact .inl (Option.some.inj hfound).symm
        · exact .inr (.inl (Option.some.inj hfound).symm)
        · exact .inr (.inl (Option.some.inj hfound).symm)
        · exact .inr (.inl (Option.some.inj hfound).symm)
        · exact .inr (.inr (Option.some.inj hfound).symm)
    rcases hcases with rfl | rfl | rfl
    · exact hvalue
    · exact Nat.one_lt_two_pow (by decide : 8 ≠ 0)
    · rw [List.length_take]
      omega
  · rw [get_put_of_ne heq] at hfound
    exact h t found hfound

theorem small_parseTlvs {pData : Mem} {endOff fuel off : Nat} (hv : v.Small)
    (h : parseTlvs pData endOff fuel off v = some v') : v'.Small := by
  induction fuel generalizing off v with
  | zero =>
    cases h
    exact hv
  | succ fuel ih =>
    simp only [parseTlvs] at h
    split at h
    · split at h
      · cases h
        exact hv
      · obtain ⟨v₁, hv₁, hrest⟩ := Option.bind_eq_some_iff.mp h
        refine ih ?_ hrest
        rw [parseTlv_eq_put hv₁]
        exact small_put hv (by rw [Mem.length_slice]; exact (pData (off + 1)).toNat_lt)
    · cases h
      exact hv

structure TlvsListed (tlvs : List Tlv) : Prop where
  nodup : (tlvs.map Tlv.type).Nodup
  values : ∀ tlv ∈ tlvs, tlv.value ≠ [] ∧ tlv.value.length < 256
  types : ∀ tlv ∈ tlvs, tlv.type.toNat < 128

theorem tlvsListed_nil : TlvsListed [] :=
  ⟨List.nodup_nil, by simp, by simp⟩

theorem mem_type_pvsTlvSet {tlvs : List Tlv} {type : UInt8} {found : Option Tlv} {tlv : Tlv}
    (h : tlv ∈ pvsTlvSet tlvs type value found) :
    tlv.type = type ∨ tlv.type ∈ tlvs.map Tlv.type := by
  unfold pvsTlvSet at h
  split at h
  · have hmap := List.mem_map_of_mem (f := Tlv.type) h
    rw [map_type_replaceValue] at hmap
    exact .inr hmap
  · rcases List.mem_cons.mp h with rfl | hmem
    · exact .inl rfl
    · exact .inr (List.mem_map_of_mem hmem)

theorem TlvsListed.setTlv {tlvs : List Tlv} {tlv : Tlv} (h : TlvsListed tlvs)
    (hvalue : tlv.value.length < 256) (htype : tlv.type.toNat < 128) : TlvsListed (setTlv tlvs tlv) := by
  rw [Provisioning.setTlv]
  split
  · exact h
  · rename_i hne
    refine ⟨nodup_pvsTlvSet h.nodup, ?_, ?_⟩
    · intro t ht
      rcases mem_pvsTlvSet ht with hold | hnew
      · exact h.values t hold
      · rw [hnew]
        exact ⟨hne, hvalue⟩
    · intro t ht
      rcases mem_type_pvsTlvSet ht with hnew | hold
      · rwa [hnew]
      · obtain ⟨old, hmem, heq⟩ := List.mem_map.mp hold
        rw [← heq]
        exact h.types old hmem

theorem TlvsListed.foldl {new tlvs : List Tlv} (h : TlvsListed tlvs)
    (hnew : ∀ tlv ∈ new, tlv.value.length < 256 ∧ tlv.type.toNat < 128) :
    TlvsListed (new.foldl Provisioning.setTlv tlvs) := by
  induction new generalizing tlvs with
  | nil => exact h
  | cons tlv rest ih =>
    obtain ⟨hvalue, htype⟩ := hnew tlv List.mem_cons_self
    exact ih (h.setTlv hvalue htype) fun t ht => hnew t (List.mem_cons_of_mem _ ht)

theorem storedTypes_lt {type : UInt8} (h : type ∈ storedTypes) : type.toNat < 128 := by
  simp only [storedTypes, List.mem_cons, List.not_mem_nil, or_false] at h
  rcases h with rfl | rfl | rfl | rfl | rfl | rfl | rfl <;> decide

theorem tlvsListed_updated (hv : v.Small) (h : TlvsListed pvs.tlvs) : TlvsListed (updated v pvs).tlvs := by
  refine h.foldl fun tlv htlv => ?_
  obtain ⟨htype, hget⟩ := mem_stored.mp htlv
  exact ⟨hv _ _ hget, storedTypes_lt htype⟩

theorem Listed.tlvs {slot : Slot} (h : Listed list) (hat : list.at slot = some pvs) : TlvsListed pvs.tlvs :=
  ⟨(h.provisions hat).types, (h.provisions hat).values, h.types hat⟩

theorem Listed.set {slot : Slot} (h : Listed list) (htlvs : TlvsListed pvs.tlvs)
    (hmin : 4 ≤ pvs.dsk.length) (hmax : pvs.dsk.length < 256)
    (hother : ∀ i q, i ≠ slot → list.at i = some q → q.dsk ≠ pvs.dsk) :
    Listed (list.set slot (some pvs)) := by
  have hsound : PvsList.Sound (list.set slot (some pvs)) := by
    apply h.toSound.set
    · rintro p ⟨⟩
      exact ⟨hmin, hmax, htlvs.nodup, htlvs.values⟩
    · rintro p ⟨⟩ i q hi hq
      exact hother i q hi hq
  refine { hsound with types := ?_ }
  intro i p hp
  by_cases hi : i = slot
  · subst hi
    by_cases hlt : i < list.length
    · rw [at_set_self hlt] at hp
      obtain rfl := Option.some.inj hp
      exact htlvs.types
    · rw [List.set_eq_of_length_le (Nat.le_of_not_lt hlt)] at hp
      exact h.types hp
  · rw [at_set_of_ne (Ne.symm hi)] at hp
    exact h.types hp

def provisionFor (list : PvsList) (dsk : Bytes) : Provision :=
  (entryOf list dsk).getD (freshProvision dsk)

def Room (list : PvsList) (dsk : Bytes) : Prop :=
  (entryOf list dsk).isSome = true ∨ (list.findIdx? Option.isNone).isSome = true

theorem setProvision_cases (h : Listed list) (hmin : 4 ≤ dsk.length) (v : SetTlvs) :
    (¬Room list dsk ∧ setProvision list dsk v = list) ∨
    ∃ slot, slot < list.length ∧ setProvision list dsk v = list.set slot (some (updated v (provisionFor list dsk))) ∧
      (provisionFor list dsk).dsk = dsk ∧ TlvsListed (provisionFor list dsk).tlvs ∧
      (∀ i q, i ≠ slot → list.at i = some q → q.dsk ≠ dsk) ∧
      ∀ q, list.at slot = some q → q.dsk = dsk := by
  cases hget : provisioningListDevGet list dsk with
  | some slot =>
    have hfind := hget
    rw [provisioningListDevGet_of_le hmin] at hfind
    obtain ⟨pvs, hat, hdsk⟩ := at_of_findIdx? hfind
    have hfor : provisionFor list dsk = pvs := by
      rw [provisionFor, entryOf, hget, Option.bind_some, hat, Option.getD_some]
    have hslot : slot < list.length := (List.findIdx?_eq_some_iff_getElem.mp hfind).1
    rw [hfor]
    refine .inr ⟨slot, hslot, setProvision_of_found hget hat, hdsk, h.tlvs hat, ?_, ?_⟩
    · intro i q hi hq heq
      exact hi (h.dsks hq hat (heq.trans hdsk.symm))
    · intro q hq
      rw [hat] at hq
      exact Option.some.inj hq ▸ hdsk
  | none =>
    have hentry : entryOf list dsk = none := by rw [entryOf, hget, Option.bind_none]
    have hfind := hget
    rw [provisioningListDevGet_of_le hmin] at hfind
    cases hblank : list.findIdx? Option.isNone with
    | some slot =>
      obtain ⟨hslot, hat⟩ := at_of_findIdx?_isNone hblank
      have hfor : provisionFor list dsk = freshProvision dsk := by
        rw [provisionFor, hentry, Option.getD_none]
      rw [hfor]
      refine .inr ⟨slot, hslot, setProvision_of_blank hmin hget hblank, rfl, tlvsListed_nil, ?_, ?_⟩
      · intro i q _ hq
        exact ne_of_findIdx?_eq_none hfind hq
      · intro q hq
        rw [hat] at hq
        cases hq
    | none =>
      refine .inl ⟨?_, setProvision_of_full hmin hget hblank⟩
      simp [Room, hentry, hblank]

theorem listed_setProvision (h : Listed list) (hmin : 4 ≤ dsk.length) (hmax : dsk.length < 256)
    (hv : v.Small) : Listed (setProvision list dsk v) := by
  obtain ⟨-, hfull⟩ | ⟨slot, -, hset, hdsk, htlvs, hother, -⟩ := setProvision_cases h hmin v
  · rwa [hfull]
  · have hupdated : (updated v (provisionFor list dsk)).dsk = dsk := hdsk
    rw [hset]
    exact h.set (tlvsListed_updated hv htlvs) (by rwa [hupdated]) (by rwa [hupdated])
      fun i q hi hq => by rw [hupdated]; exact hother i q hi hq

theorem entryOf_setProvision (h : Listed list) (hmin : 4 ≤ dsk.length) (hmax : dsk.length < 256)
    (hv : v.Small) (hroom : Room list dsk) :
    entryOf (setProvision list dsk v) dsk = some (updated v (provisionFor list dsk)) := by
  have hlisted := listed_setProvision h hmin hmax hv
  obtain ⟨hfull, -⟩ | ⟨slot, hslot, hset, hdsk, -, -, -⟩ := setProvision_cases h hmin v
  · exact absurd hroom hfull
  · refine (entryOf_eq_some hlisted.toSound).mpr ⟨mem_provisions.mpr ⟨slot, ?_⟩, hdsk⟩
    rw [hset, at_set_self hslot]

theorem entryOf_setProvision_of_ne (h : Listed list) (hmin : 4 ≤ dsk.length) (hmax : dsk.length < 256)
    (hv : v.Small) {other : Bytes} (hne : other ≠ dsk) :
    entryOf (setProvision list dsk v) other = entryOf list other := by
  have hlisted := listed_setProvision h hmin hmax hv
  obtain ⟨-, hfull⟩ | ⟨slot, hslot, hset, hdsk, -, -, hself⟩ := setProvision_cases h hmin v
  · rw [hfull]
  apply Option.ext
  intro q
  rw [entryOf_eq_some hlisted.toSound, entryOf_eq_some h.toSound, mem_provisions, mem_provisions, hset]
  refine and_congr_left fun hq => exists_congr fun i => ?_
  by_cases hi : slot = i
  · subst hi
    rw [at_set_self hslot]
    constructor
    · intro heq
      refine absurd (hq.symm.trans ?_) hne
      rw [← Option.some.inj heq]
      exact hdsk
    · intro hat
      exact absurd (hq.symm.trans (hself q hat)) hne
  · rw [at_set_of_ne hi]

end Kept

section Main

variable {rd : RdLookupByDsk} {buf : Mem} {s : Pvl} {f : SetFrame}

theorem slices_of_frame {mem : Mem} (hmem : mem.slice 0 f.bytes.length = f.bytes) : mem.slice 4 f.dsk.length = f.dsk ∧
    mem.slice (4 + f.dsk.length) (encodeTlvs f.tlvs).length = encodeTlvs f.tlvs ∧
    f.bytes.length = 4 + f.dsk.length + (encodeTlvs f.tlvs).length := by
  have hbytes : f.bytes = [commandClassProvisioningList, commandProvisionSet, f.seqNo, f.reservedDskLength] ++
        (f.dsk ++ encodeTlvs f.tlvs) := by
    rw [SetFrame.bytes, SetFrame.front, List.append_assoc]
  have hlength : f.bytes.length = 4 + (f.dsk.length + (encodeTlvs f.tlvs).length) := by
    rw [hbytes, List.length_append, List.length_append]
    rfl
  rw [hlength, hbytes, Mem.slice_add, Mem.slice_add, Nat.zero_add] at hmem
  obtain ⟨-, hrest⟩ := List.append_inj hmem (by simp)
  obtain ⟨hdsk, htlvs⟩ := List.append_inj hrest (by simp)
  exact ⟨hdsk, htlvs, hlength.trans (Nat.add_assoc _ _ _).symm⟩

theorem length_le_encodeTlvs (tlvs : List WireTlv) : tlvs.length ≤ (encodeTlvs tlvs).length := by
  induction tlvs with
  | nil => exact Nat.zero_le _
  | cons tlv rest ih =>
    rw [encodeTlvs_cons, List.length_cons, List.length_cons, List.length_cons, List.length_append]
    omega

theorem small_empty : SetTlvs.Small {} := by
  intro type value h
  simp only [SetTlvs.get, Option.map_none, ite_self] at h
  cases h

theorem provisionSet_cases (s : Pvl) (pData : Mem) (bDatalen : Nat) :
    ((provisionSet s pData bDatalen).2.code ≠ .commandHandled ∧ (provisionSet s pData bDatalen).1 = s) ∨
    ∃ v, 16 ≤ (setDsk pData).length ∧
      parseTlvs pData bDatalen bDatalen (4 + (setDsk pData).length) {} = some v ∧ v.Small ∧
      (provisionSet s pData bDatalen).2.code = .commandHandled ∧
      (provisionSet s pData bDatalen).1 = { s with list := setProvision s.list (setDsk pData) v } := by
  have hlength : (setDsk pData).length = (pData 3 &&& provisioningListDskLengthMask).toNat := by
    rw [setDsk, Mem.length_slice]
  rw [provisionSet, hlength]
  split
  · exact .inl ⟨by simp, rfl⟩
  split
  · exact .inl ⟨by simp, rfl⟩
  rename_i hmin
  split
  · exact .inl ⟨by simp, rfl⟩
  rename_i v hparse
  have hsmall : v.Small := small_parseTlvs small_empty hparse
  split
  · exact .inr ⟨v, by omega, hparse, hsmall, rfl, rfl⟩
  · exact .inl ⟨by simp, rfl⟩

theorem setDsk_length_lt (pData : Mem) : (setDsk pData).length < 32 := by
  rw [setDsk, Mem.length_slice, UInt8.toNat_and]
  exact Nat.lt_succ_of_le Nat.and_le_right

/-- What a Set leaves alone, whatever its bytes and its length. -/
theorem provisionSet_frame (hs : Listed s.list) (pData : Mem) (bDatalen : Nat) :
    ((provisionSet s pData bDatalen).2.code ≠ .commandHandled → (provisionSet s pData bDatalen).1 = s) ∧
    ∀ dsk, dsk ≠ setDsk pData → entryOf (provisionSet s pData bDatalen).1.list dsk = entryOf s.list dsk := by
  obtain ⟨hrefused, hsame⟩ | ⟨v, hmin, -, hsmall, hok, hlist⟩ := provisionSet_cases s pData bDatalen
  · exact ⟨fun _ => hsame, fun dsk _ => by rw [hsame]⟩
  · refine ⟨fun hcode => absurd hok hcode, fun dsk hne => ?_⟩
    have hmax := setDsk_length_lt pData
    rw [hlist]
    exact entryOf_setProvision_of_ne hs (by omega) (by omega) hsmall hne

theorem pvlCommandHandler_set {pData : Mem} {bDatalen : Nat} (hcmd : pData 1 = commandProvisionSet) :
    pvlCommandHandler rd s pData bDatalen =
      if bDatalen < 2 then (s, { code := .commandParseError }) else provisionSet s pData bDatalen := by
  rw [pvlCommandHandler, if_pos hcmd]

theorem handleSet_cases (rd : RdLookupByDsk) (buf : Mem) (s : Pvl) (f : SetFrame) :
    ((handleSet rd buf s f).2.code ≠ .commandHandled ∧ (handleSet rd buf s f).1 = s) ∨
    ∃ v, 16 ≤ f.dsk.length ∧ parsed {} f.tlvs = some v ∧ v.Small ∧ (handleSet rd buf s f).2.code = .commandHandled ∧
      (handleSet rd buf s f).1 = { s with list := setProvision s.list f.dsk v } := by
  obtain ⟨mem, hmemEq⟩ : ∃ mem, mem = buf.write 0 f.bytes := ⟨_, rfl⟩
  have hmem : mem.slice 0 f.bytes.length = f.bytes := by
    rw [hmemEq, Mem.slice_write_self]
  have hcmd : mem 1 = commandProvisionSet := Mem.eq_of_slice_zero hmem rfl
  have hbyte : mem 3 = f.reservedDskLength := Mem.eq_of_slice_zero hmem rfl
  obtain ⟨hdsk, htlvs, hlength⟩ := slices_of_frame hmem
  have hparse : parseTlvs mem f.bytes.length f.bytes.length (4 + f.dsk.length) {} = parsed {} f.tlvs := by
    have hle := length_le_encodeTlvs f.tlvs
    conv_lhs => rw [hlength]
    exact parseTlvs_eq (by omega) htlvs
  have hdskEq : setDsk mem = f.dsk := by
    rw [setDsk, hbyte, f.dsk_length, hdsk]
  have hset : handleSet rd buf s f = provisionSet s mem f.bytes.length := by
    rw [handleSet, ← hmemEq, pvlCommandHandler_set hcmd, if_neg (by omega)]
  rw [hset]
  have hcases := provisionSet_cases s mem f.bytes.length
  rwa [hdskEq, hparse] at hcases

theorem dsk_length_lt (f : SetFrame) : f.dsk.length < 32 := by
  rw [← f.dsk_length, UInt8.toNat_and]
  exact Nat.lt_succ_of_le Nat.and_le_right

theorem getReported_handleSet (buf' : Mem) (seqNo : UInt8) (hs : Listed s.list)
    (hcode : (handleSet rd buf s f).2.code = .commandHandled) (hroom : Room s.list f.dsk) :
    ∃ v, parsed {} f.tlvs = some v ∧ ∀ type, getReported rd buf' (handleSet rd buf s f).1 seqNo f.dsk type =
        viewOf rd (updated v (provisionFor s.list f.dsk)) type := by
  obtain ⟨hrefused, -⟩ | ⟨v, hmin, hparsed, hsmall, -, hlist⟩ := handleSet_cases rd buf s f
  · exact absurd hcode hrefused
  have hmax := dsk_length_lt f
  have hmin4 : 4 ≤ f.dsk.length := by omega
  have hmax256 : f.dsk.length < 256 := by omega
  refine ⟨v, hparsed, fun type => ?_⟩
  rw [hlist, getReported_eq (listed_setProvision hs hmin4 hmax256 hsmall) hmax,
    entryOf_setProvision hs hmin4 hmax256 hsmall hroom, Option.bind_some]

theorem storedForm_ne_nil {type : UInt8} (hne : value ≠ []) : storedForm type value ≠ [] := by
  cases value with
  | nil => exact absurd rfl hne
  | cons b rest =>
    unfold storedForm
    split
    · simp
    · split <;> simp

/-- A Get after a Set reports the last value of each type the Set carried, as it is stored, and what
was there for the other types. The other provisions stay as they were, and so does the whole list if
the Set is refused, whatever its bytes are. Of a type whose last value is empty nothing is said. -/
theorem set_then_get (rd : RdLookupByDsk) (s : Pvl) (hs : Listed s.list) :
    (∀ (pData : Mem) (bDatalen : Nat), pData 1 = commandProvisionSet →
      ((pvlCommandHandler rd s pData bDatalen).2.code ≠ .commandHandled →
        (pvlCommandHandler rd s pData bDatalen).1 = s) ∧
      ∀ dsk, dsk ≠ setDsk pData → entryOf (pvlCommandHandler rd s pData bDatalen).1.list dsk = entryOf s.list dsk) ∧
    ∀ (buf buf' : Mem) (f : SetFrame) (seqNo : UInt8),
      (handleSet rd buf s f).2.code = .commandHandled → Room s.list f.dsk →
        (∀ type value, settable type = true → lastValue f.tlvs type = some value → value ≠ [] →
          getReported rd buf' (handleSet rd buf s f).1 seqNo f.dsk type = some (storedForm type value)) ∧
        ∀ type, settable type = false ∨ lastValue f.tlvs type = none →
          getReported rd buf' (handleSet rd buf s f).1 seqNo f.dsk type =
            viewOf rd (provisionFor s.list f.dsk) type := by
  constructor
  · intro pData bDatalen hcmd
    rw [pvlCommandHandler_set hcmd]
    split
    · exact ⟨fun _ => rfl, fun _ _ => rfl⟩
    · exact provisionSet_frame hs pData bDatalen
  · intro buf buf' f seqNo hcode hroom
    obtain ⟨v, hparsed, hget⟩ := getReported_handleSet buf' seqNo hs hcode hroom
    constructor
    · intro type value hset hlast hne
      have hfound := (get_parsed hparsed type).2 hset value hlast hne
      rw [hget, viewOf_updated_of_some hset hfound (storedForm_ne_nil hne)]
    · intro type hnone
      rw [hget]
      apply viewOf_updated_of_none
      rcases hnone with hset | hlast
      · exact get_eq_none_of_not_settable hset
      · rw [(get_parsed hparsed type).1 hlast]
        simp only [SetTlvs.get, Option.map_none, ite_self]

theorem listed_blankList : Listed blankList :=
  { sound_blankList with types := fun h => nomatch at_blankList.symm.trans h }

theorem room_blankList (dsk : Bytes) : Room blankList dsk :=
  .inr rfl

def nameAndNetworkInfo : SetFrame where
  seqNo := 1
  reservedDskLength := 16
  dsk := List.replicate 16 7
  tlvs := [⟨0x64, ⟨[97, 98], by decide⟩⟩, ⟨0x6E, ⟨[9, 1, 0, 0], by decide⟩⟩]
  dsk_length := rfl

theorem nameAndNetworkInfo_accepted :
    (handleSet (fun _ => none) (fun _ => 0) { list := blankList } nameAndNetworkInfo).2.code =
      .commandHandled := by
  rfl

/-- The name of the frame is reported, and a Set cut off inside its last TLV leaves the other entries. -/
theorem set_then_get_name : getReported (fun _ => none) (fun _ => 0)
        (handleSet (fun _ => none) (fun _ => 0) { list := blankList } nameAndNetworkInfo).1 2
        nameAndNetworkInfo.dsk pvsTlvTypeName = some [97, 98] ∧
    ∀ dsk, dsk ≠ nameAndNetworkInfo.dsk → entryOf (pvlCommandHandler (fun _ => none) { list := blankList }
        (.ofBytes nameAndNetworkInfo.bytes) 27).1.list dsk = entryOf blankList dsk :=
  ⟨((set_then_get (fun _ => none) { list := blankList } listed_blankList).2 (fun _ => 0) (fun _ => 0)
      nameAndNetworkInfo 2 nameAndNetworkInfo_accepted (room_blankList _)).1 pvsTlvTypeName [97, 98]
      rfl rfl (by decide),
    ((set_then_get (fun _ => none) { list := blankList } listed_blankList).1
      (.ofBytes nameAndNetworkInfo.bytes) 27 rfl).2⟩

/-- The network information of the frame is not what the Get reports. -/
theorem networkInfo_not_set : (handleSet (fun _ => none) (fun _ => 0) { list := blankList } nameAndNetworkInfo).2.code =
      .commandHandled ∧
    lastValue nameAndNetworkInfo.tlvs pvsTlvTypeNetworkInfo = some [9, 1, 0, 0] ∧
    getReported (fun _ => none) (fun _ => 0)
        (handleSet (fun _ => none) (fun _ => 0) { list := blankList } nameAndNetworkInfo).1 2
        nameAndNetworkInfo.dsk pvsTlvTypeNetworkInfo = some [0, 0, 0, 0] := by
  refine ⟨nameAndNetworkInfo_accepted, rfl, ?_⟩
  obtain ⟨v, -, hget⟩ := getReported_handleSet (s := { list := blankList }) (fun _ => 0) 2
    listed_blankList nameAndNetworkInfo_accepted (room_blankList _)
  rw [hget, viewOf_updated_of_none (get_eq_none_of_not_settable rfl)]
  rfl

end Main

end ZipGateway.Provisioning

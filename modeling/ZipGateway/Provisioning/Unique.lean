import ZipGateway.Provisioning.List

/-!
# No DSK twice, no type twice

`provisioning_list_dev_add` and `provisioning_list_dev_set` look for the DSK before they take a new
slot, and `provisioning_list_tlv_set` looks for the type before it puts a TLV in front. No other
operation adds anything, so a list that started blank has each DSK once and each provision has each
type once, however the operations follow each other.
-/

namespace ZipGateway.Provisioning

open Machine

structure Provision.Sound (pvs : Provision) : Prop where
  dskMin : 4 ≤ pvs.dsk.length
  dskMax : pvs.dsk.length < 256
  types : (pvs.tlvs.map Tlv.type).Nodup
  values : ∀ tlv ∈ pvs.tlvs, tlv.value ≠ [] ∧ tlv.value.length < 256

structure PvsList.Sound (list : PvsList) : Prop where
  size : list.length = provisioningListSize
  provisions : ∀ {slot pvs}, list.at slot = some pvs → pvs.Sound
  dsks : ∀ {i j p q}, list.at i = some p → list.at j = some q → p.dsk = q.dsk → i = j

variable {alloc : Bool} {bootmode : UInt32}

section Slots

variable {list : PvsList} {slot i : Slot} {pvs : Provision} {dsk : Bytes}

theorem at_eq_some : list.at slot = some pvs ↔ list[slot]? = some (some pvs) := by
  simp [PvsList.at, Option.join_eq_some_iff]

@[simp]
theorem at_blankList : blankList.at slot = none := by
  simp only [PvsList.at, blankList, List.getElem?_replicate]
  split <;> rfl

theorem at_set_self (h : slot < list.length) (entry : Option Provision) :
    PvsList.at (list.set slot entry) slot = entry := by
  simp [PvsList.at, h]

theorem at_set_of_ne (h : slot ≠ i) (entry : Option Provision) : PvsList.at (list.set slot entry) i = list.at i := by
  simp [PvsList.at, List.getElem?_set_ne h]

theorem at_write_self (list : PvsList) (slot : Slot) (f : Provision → Provision) :
    (list.write slot f).at slot = (list.at slot).map f := by
  simp only [PvsList.at, PvsList.write, List.getElem?_modify_eq]
  cases list[slot]? <;> rfl

theorem hasDsk_iff {entry : Option Provision} : hasDsk dsk entry = true ↔ ∃ pvs, entry = some pvs ∧ pvs.dsk = dsk := by
  cases entry <;> simp [hasDsk]

theorem at_of_findIdx? (h : list.findIdx? (hasDsk dsk) = some slot) :
    ∃ pvs, list.at slot = some pvs ∧ pvs.dsk = dsk := by
  obtain ⟨hslot, hhas, -⟩ := List.findIdx?_eq_some_iff_getElem.mp h
  obtain ⟨pvs, hentry, hdsk⟩ := hasDsk_iff.mp hhas
  refine ⟨pvs, at_eq_some.mpr ?_, hdsk⟩
  rw [List.getElem?_eq_getElem hslot, hentry]

theorem ne_of_findIdx?_eq_none (h : list.findIdx? (hasDsk dsk) = none)
    (hat : list.at slot = some pvs) : pvs.dsk ≠ dsk := by
  intro hdsk
  have hmem : some pvs ∈ list := List.mem_of_getElem? (at_eq_some.mp hat)
  have hnone := List.findIdx?_eq_none_iff.mp h _ hmem
  simp [hasDsk, hdsk] at hnone

theorem at_of_findIdx?_isNone (h : list.findIdx? Option.isNone = some slot) :
    slot < list.length ∧ list.at slot = none := by
  obtain ⟨hslot, hnone, -⟩ := List.findIdx?_eq_some_iff_getElem.mp h
  refine ⟨hslot, ?_⟩
  rw [PvsList.at, List.getElem?_eq_getElem hslot, Option.isNone_iff_eq_none.mp hnone]
  rfl

end Slots

section Tlvs

variable {tlvs : List Tlv} {type : UInt8} {value : Bytes}

theorem map_type_replaceValue : (replaceValue type value tlvs).map Tlv.type = tlvs.map Tlv.type := by
  induction tlvs with
  | nil => rfl
  | cons tlv rest ih =>
    by_cases htype : tlv.type = type
    · simp [replaceValue, htype]
    · simp [replaceValue, htype, ih]

theorem mem_replaceValue {tlv : Tlv} (h : tlv ∈ replaceValue type value tlvs) : tlv ∈ tlvs ∨ tlv.value = value := by
  induction tlvs with
  | nil => exact .inl h
  | cons head rest ih =>
    by_cases htype : head.type = type
    · rw [replaceValue, if_pos htype] at h
      rcases List.mem_cons.mp h with rfl | hrest
      · exact .inr rfl
      · exact .inl (List.mem_cons_of_mem _ hrest)
    · rw [replaceValue, if_neg htype] at h
      rcases List.mem_cons.mp h with rfl | hrest
      · exact .inl List.mem_cons_self
      · exact (ih hrest).imp_left (List.mem_cons_of_mem _)

theorem mem_pvsTlvSet {found : Option Tlv} {tlv : Tlv} (h : tlv ∈ pvsTlvSet tlvs type value found) :
    tlv ∈ tlvs ∨ tlv.value = value := by
  unfold pvsTlvSet at h
  split at h
  · exact mem_replaceValue h
  · rcases List.mem_cons.mp h with rfl | hrest
    · exact .inr rfl
    · exact .inl hrest

theorem nodup_pvsTlvSet (h : (tlvs.map Tlv.type).Nodup) :
    ((pvsTlvSet tlvs type value (pvsTlvGet tlvs type)).map Tlv.type).Nodup := by
  unfold pvsTlvSet
  split
  · rwa [map_type_replaceValue]
  · rename_i hnone
    refine List.nodup_cons.mpr ⟨?_, h⟩
    intro hmem
    obtain ⟨tlv, htlv, rfl⟩ := List.mem_map.mp hmem
    refine hnone ?_
    rw [pvsTlvGet, List.find?_isSome]
    exact ⟨tlv, htlv, beq_self_eq_true _⟩

end Tlvs

section Steps

variable {list : PvsList} {slot : Slot} {dsk : Bytes}

theorem PvsList.Sound.set {entry : Option Provision} (h : list.Sound) (hentry : ∀ pvs, entry = some pvs → pvs.Sound)
    (hdsk : ∀ pvs, entry = some pvs → ∀ i q, i ≠ slot → list.at i = some q → q.dsk ≠ pvs.dsk) :
    PvsList.Sound (list.set slot entry) := by
  by_cases hslot : slot < list.length
  · have hother : ∀ {i : Slot}, i ≠ slot → PvsList.at (list.set slot entry) i = list.at i :=
      fun hne => at_set_of_ne hne.symm entry
    have hself := at_set_self hslot entry
    refine ⟨by rw [List.length_set, h.size], ?_, ?_⟩
    · intro i pvs hat
      by_cases hi : i = slot
      · subst hi
        exact hentry pvs (hself.symm.trans hat)
      · exact h.provisions ((hother hi).symm.trans hat)
    · intro i j p q hp hq heq
      by_cases hi : i = slot
      · subst hi
        by_contra hj
        rw [hother (Ne.symm hj)] at hq
        exact hdsk p (hself.symm.trans hp) j q (Ne.symm hj) hq heq.symm
      · rw [hother hi] at hp
        by_cases hj : j = slot
        · subst hj
          exact absurd heq (hdsk q (hself.symm.trans hq) i p hi hp)
        · rw [hother hj] at hq
          exact h.dsks hp hq heq
  · rwa [List.set_eq_of_length_le (Nat.le_of_not_lt hslot)]

theorem write_eq_set (list : PvsList) (slot : Slot) (f : Provision → Provision) :
    list.write slot f = list.set slot ((list.at slot).map f) := by
  apply List.ext_getElem?
  intro i
  by_cases hi : slot = i
  · subst hi
    rw [PvsList.write, List.getElem?_modify_eq, List.getElem?_set_self', PvsList.at]
    cases list[slot]? <;> rfl
  · rw [PvsList.write, List.getElem?_modify_ne _ _ hi, List.getElem?_set_ne hi]

theorem PvsList.Sound.write {f : Provision → Provision} (h : list.Sound)
    (hf : ∀ pvs, pvs.Sound → (f pvs).Sound) (hdsk : ∀ pvs, (f pvs).dsk = pvs.dsk) :
    (list.write slot f).Sound := by
  rw [write_eq_set]
  apply h.set
  · intro pvs hpvs
    obtain ⟨old, hold, rfl⟩ := Option.map_eq_some_iff.mp hpvs
    exact hf old (h.provisions hold)
  · intro pvs hpvs i q hi hq heq
    obtain ⟨old, hold, rfl⟩ := Option.map_eq_some_iff.mp hpvs
    rw [hdsk] at heq
    exact hi (h.dsks hq hold heq)

theorem sound_pvsDevAdd (h : list.Sound) (hmin : 4 ≤ dsk.length) (hmax : dsk.length < 256)
    (hnew : list.findIdx? (hasDsk dsk) = none) : (pvsDevAdd list dsk bootmode alloc).2.Sound := by
  unfold pvsDevAdd
  split
  · exact h
  · cases alloc with
    | false => exact h
    | true =>
      apply h.set
      · rintro pvs ⟨⟩
        exact ⟨hmin, hmax, List.nodup_nil, by simp⟩
      · rintro pvs ⟨⟩ i q - hq
        exact ne_of_findIdx?_eq_none hnew hq

theorem provisioningListDevGet_of_le (hmin : 4 ≤ dsk.length) :
    provisioningListDevGet list dsk = list.findIdx? (hasDsk dsk) := by
  rw [provisioningListDevGet, if_neg (by omega)]

theorem sound_provisioningListDevAdd (h : list.Sound) (hmax : dsk.length < 256) :
    (provisioningListDevAdd list dsk bootmode alloc).2.Sound := by
  unfold provisioningListDevAdd
  split
  · exact h
  · rename_i hmin
    have hmin : 4 ≤ dsk.length := by omega
    rw [provisioningListDevGet_of_le hmin]
    split
    · exact h
    · rename_i hnone
      exact sound_pvsDevAdd h hmin hmax (Option.not_isSome_iff_eq_none.mp hnone)

theorem sound_provisioningListDevSet (h : list.Sound) (hmax : dsk.length < 256) :
    (provisioningListDevSet list dsk bootmode alloc).2.Sound := by
  unfold provisioningListDevSet
  split
  · exact h
  · rename_i hmin
    have hmin : 4 ≤ dsk.length := by omega
    rw [provisioningListDevGet_of_le hmin]
    split
    · exact h.write (fun _ hp => ⟨hp.dskMin, hp.dskMax, hp.types, hp.values⟩) fun _ => rfl
    · rename_i hnone
      exact sound_pvsDevAdd h hmin hmax hnone

theorem sound_provisioningListDevRemove (h : list.Sound) : (provisioningListDevRemove list dsk).Sound := by
  unfold provisioningListDevRemove
  split
  · exact h
  · split
    · exact h
    · exact h.set (fun _ hp => nomatch hp) fun _ hp => nomatch hp

theorem sound_blank {list : PvsList} (hsize : list.length = provisioningListSize)
    (hblank : ∀ slot, list.at slot = none) : list.Sound where
  size := hsize
  provisions := fun hp => nomatch (hblank _).symm.trans hp
  dsks := fun hp => nomatch (hblank _).symm.trans hp

theorem sound_blankList : blankList.Sound :=
  sound_blank List.length_replicate fun _ => at_blankList

theorem sound_provisioningListClear (h : list.Sound) : (provisioningListClear list).Sound := by
  apply sound_blank
  · rw [provisioningListClear, List.length_map, h.size]
  · intro slot
    rw [PvsList.at, provisioningListClear, List.getElem?_map]
    cases list[slot]? <;> rfl

theorem Provision.Sound.tlvSet {pvs : Provision} (h : pvs.Sound) {type : UInt8} {value : Bytes}
    (hne : value ≠ []) (hmax : value.length < 256) :
    Provision.Sound { pvs with tlvs := pvsTlvSet pvs.tlvs type value (pvsTlvGet pvs.tlvs type) } where
  dskMin := h.dskMin
  dskMax := h.dskMax
  types := nodup_pvsTlvSet h.types
  values := by
    intro tlv htlv
    rcases mem_pvsTlvSet htlv with hold | hnew
    · exact h.values tlv hold
    · rw [hnew]
      exact ⟨hne, hmax⟩

theorem Provision.Sound.tlvRemove {pvs : Provision} (h : pvs.Sound) (type : UInt8) :
    Provision.Sound { pvs with tlvs := pvs.tlvs.eraseP (·.type == type) } where
  dskMin := h.dskMin
  dskMax := h.dskMax
  types := h.types.sublist (List.eraseP_sublist.map Tlv.type)
  values := fun tlv htlv => h.values tlv (List.mem_of_mem_eraseP htlv)

theorem sound_provisioningListTlvSet (h : list.Sound) {slot : Option Slot} {type : UInt8}
    {value : Bytes} (hmax : value.length < 256) :
    (provisioningListTlvSet list slot type value alloc).Sound := by
  unfold provisioningListTlvSet
  split
  · exact h
  · split
    · exact h
    · rename_i hok
      have hne : value ≠ [] := fun heq => hok (.inl heq)
      exact h.write (fun _ hp => hp.tlvSet hne hmax) fun _ => rfl

theorem sound_step (h : list.Sound) (op : Op) : (step list op).Sound := by
  cases op with
  | devAdd dsk bootmode alloc => exact sound_provisioningListDevAdd h dsk.2
  | devSet dsk bootmode alloc => exact sound_provisioningListDevSet h dsk.2
  | devRemove dsk => exact sound_provisioningListDevRemove h
  | clear => exact sound_provisioningListClear h
  | bootmodeSet slot bootmode =>
    cases slot with
    | none => exact h
    | some slot =>
      exact h.write (fun _ hp => ⟨hp.dskMin, hp.dskMax, hp.types, hp.values⟩) fun _ => rfl
  | statusSet slot status =>
    cases slot with
    | none => exact h
    | some slot =>
      exact h.write (fun _ hp => ⟨hp.dskMin, hp.dskMax, hp.types, hp.values⟩) fun _ => rfl
  | tlvSet slot type value alloc => exact sound_provisioningListTlvSet h value.2
  | tlvRemove slot type =>
    cases slot with
    | none => exact h
    | some slot => exact h.write (fun _ hp => hp.tlvRemove type) fun _ => rfl

theorem sound_run (ops : List Op) : (run step blankList ops).Sound := by
  have hstep : ∀ (list : PvsList) (op : Op), list.Sound → (step list op).Sound :=
    fun _ op h => sound_step h op
  exact run_invariant hstep sound_blankList ops

end Steps

section Provisions

variable {list : PvsList} {dsk : Bytes} {pvs : Provision}

def provisions (list : PvsList) : List Provision :=
  list.filterMap id

theorem mem_provisions : pvs ∈ provisions list ↔ ∃ slot, list.at slot = some pvs := by
  constructor
  · intro hmem
    obtain ⟨entry, hentry, rfl⟩ := List.mem_filterMap.mp hmem
    obtain ⟨slot, hslot⟩ := List.mem_iff_getElem?.mp hentry
    exact ⟨slot, at_eq_some.mpr hslot⟩
  · rintro ⟨slot, hslot⟩
    exact List.mem_filterMap.mpr ⟨some pvs, List.mem_of_getElem? (at_eq_some.mp hslot), rfl⟩

def entryOf (list : PvsList) (dsk : Bytes) : Option Provision :=
  (provisioningListDevGet list dsk).bind list.at

theorem dsk_of_entryOf (h : entryOf list dsk = some pvs) : pvs.dsk = dsk := by
  obtain ⟨slot, hslot, hat⟩ := Option.bind_eq_some_iff.mp h
  have hmin : 4 ≤ dsk.length := by
    by_contra hlt
    rw [provisioningListDevGet, if_pos (by omega)] at hslot
    cases hslot
  rw [provisioningListDevGet_of_le hmin] at hslot
  obtain ⟨found, hfound, hdsk⟩ := at_of_findIdx? hslot
  rw [hfound] at hat
  exact Option.some.inj hat ▸ hdsk

theorem entryOf_of_mem (h : list.Sound) (hmem : pvs ∈ provisions list) : entryOf list pvs.dsk = some pvs := by
  obtain ⟨slot, hslot⟩ := mem_provisions.mp hmem
  rw [entryOf, provisioningListDevGet_of_le (h.provisions hslot).dskMin]
  cases hfind : list.findIdx? (hasDsk pvs.dsk) with
  | none => exact absurd rfl (ne_of_findIdx?_eq_none hfind hslot)
  | some found =>
    obtain ⟨other, hother, hdsk⟩ := at_of_findIdx? hfind
    have heq := h.dsks hother hslot hdsk
    subst heq
    exact hslot

theorem entryOf_eq_some (h : list.Sound) : entryOf list dsk = some pvs ↔ pvs ∈ provisions list ∧ pvs.dsk = dsk := by
  constructor
  · intro hentry
    obtain ⟨slot, -, hat⟩ := Option.bind_eq_some_iff.mp hentry
    exact ⟨mem_provisions.mpr ⟨slot, hat⟩, dsk_of_entryOf hentry⟩
  · rintro ⟨hmem, rfl⟩
    exact entryOf_of_mem h hmem

end Provisions

end ZipGateway.Provisioning

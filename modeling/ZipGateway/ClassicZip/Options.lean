import ZipGateway.Lib.Tlv
import ZipGateway.Udp.Commands

/-!
# The options of the extended header

`parse_CC_ZIP_EXT_HDR` of `multicast_tlv.c`, in the build that has no multicast. An option is read
before it is known that it fits: where the header ends behind the type of its last option, or inside the
two bytes of an encapsulation format, the loop reads what comes after the header.
-/

namespace ZipGateway.ClassicZip

open Udp (Scheme)

def zipExtHdrOptionTypeMask : UInt8 := 0x7F
def zipExtHdrOptionCriticalFlag : UInt8 := 0x80
def installationMaintenanceGet : UInt8 := 2
def encapsulationFormatInfo : UInt8 := 4

inductive ReturnCode where
  | success
  | dropFrame
  | optError
deriving DecidableEq, Repr

structure ExtHdr where
  rc : ReturnCode
  curSendIma : Bool
  scheme : Scheme
  reads : List Nat
deriving DecidableEq, Repr

def ExtHdr.read (h : ExtHdr) (offsets : List Nat) : ExtHdr :=
  { h with reads := offsets ++ h.reads }

def parseFrom (payload : Mem) (tail : Nat) : Nat → Nat → Bool → Scheme → ExtHdr
  | 0, tlv, ima, scheme => ⟨if tlv = tail then .success else .dropFrame, ima, scheme, []⟩
  | n + 1, tlv, ima, scheme =>
    if tlv < tail then
      let next := tlv + ((payload (tlv + 1)).toNat + 2)
      if payload tlv &&& zipExtHdrOptionTypeMask = installationMaintenanceGet then
        (parseFrom payload tail n next true scheme).read [tlv, tlv + 1]
      else if payload tlv &&& zipExtHdrOptionTypeMask = encapsulationFormatInfo then
        if payload (tlv + 1) < 2 then
          ⟨.optError, ima, scheme, [tlv, tlv + 1]⟩
        else
          (parseFrom payload tail n next ima (.ofEfi (payload (tlv + 2)) (payload (tlv + 3)))).read
            [tlv, tlv + 1, tlv + 2, tlv + 3]
      else if payload tlv &&& zipExtHdrOptionCriticalFlag ≠ 0 then
        ⟨.optError, ima, scheme, [tlv]⟩
      else
        (parseFrom payload tail n next ima scheme).read [tlv, tlv + 1]
    else
      ⟨if tlv = tail then .success else .dropFrame, ima, scheme, []⟩

def parseCcZipExtHdr (payload : Mem) (length : UInt16) (scheme : Scheme) : ExtHdr :=
  parseFrom payload length.toNat length.toNat 0 false scheme

section Options

variable (o : Tlv)

def IsImaGet : Prop :=
  o.type &&& zipExtHdrOptionTypeMask = installationMaintenanceGet

def IsEfi : Prop :=
  o.type &&& zipExtHdrOptionTypeMask = encapsulationFormatInfo

instance : DecidablePred IsImaGet := fun _ => inferInstanceAs (Decidable (_ = _))

instance : DecidablePred IsEfi := fun _ => inferInstanceAs (Decidable (_ = _))

def Complete : Prop :=
  IsEfi o → 2 ≤ o.value.length

def UnknownCritical : Prop :=
  ¬IsImaGet o ∧ ¬IsEfi o ∧ o.type &&& zipExtHdrOptionCriticalFlag ≠ 0

instance : DecidablePred Complete := fun _ => inferInstanceAs (Decidable (_ → _))

instance : DecidablePred UnknownCritical := fun _ => inferInstanceAs (Decidable (_ ∧ _))

def Acceptable : Prop :=
  Complete o ∧ ¬UnknownCritical o

instance : DecidablePred Acceptable := fun _ => inferInstanceAs (Decidable (_ ∧ _))

def efiScheme : Scheme :=
  .ofEfi (o.value.getD 0 0) (o.value.getD 1 0)

end Options

def Spells (opts : List Tlv) (header : Bytes) : Prop :=
  (∀ o ∈ opts, Acceptable o) ∧ Tlv.chain opts = header

def schemeOf (opts : List Tlv) (scheme : Scheme) : Scheme :=
  ((opts.filter IsEfi).getLast?.map efiScheme).getD scheme

structure Parses (payload : Mem) (length : UInt16) (scheme : Scheme) : Prop where
  accepts : (parseCcZipExtHdr payload length scheme).rc = .success ↔ ∃ opts, Spells opts (payload.slice 0 length.toNat)
  inside : ∀ i ∈ (parseCcZipExtHdr payload length scheme).reads, i < length.toNat
  values : ∀ opts, Spells opts (payload.slice 0 length.toNat) →
    (parseCcZipExtHdr payload length scheme).curSendIma = opts.any (IsImaGet ·) ∧
      (parseCcZipExtHdr payload length scheme).scheme = schemeOf opts scheme

/-- What may be left of an option that has lost bytes the parser reads: a type, of an option that is known
or not critical, without a length; or an encapsulation format without its two bytes, whose length says
they are there. -/
inductive Stub : Bytes → Prop
  | bare (type : UInt8) (h : ¬UnknownCritical ⟨type, [], by decide⟩) : Stub [type]
  | efi (type length : UInt8) (value : Bytes) (htype : IsEfi ⟨type, [], by decide⟩) (hlength : 2 ≤ length)
      (hvalue : value.length < 2) : Stub (type :: length :: value)

/-- Memory that begins with a header of this length breaks off inside the bytes of an option of the header
that are always read. -/
def BreaksOff (length : Nat) (bytes : Bytes) : Prop :=
  ∃ opts rest, (∀ o ∈ opts, Acceptable o) ∧ (Tlv.chain opts).length < length ∧ Stub rest ∧
    Tlv.chain opts ++ rest = bytes

variable {room : Nat} {length : UInt16}

section Parsing

variable {payload : Mem} {tail n tlv : Nat} {ima : Bool} {scheme : Scheme} {opts : List Tlv}

theorem two_le_length_iff : 2 ≤ (Tlv.read payload tlv).value.length ↔ ¬payload (tlv + 1) < 2 := by
  have hlength : (Tlv.read payload tlv).value.length = (payload (tlv + 1)).toNat := Mem.length_slice _ _ _
  rw [hlength, UInt8.lt_iff_toNat_lt, Nat.not_lt]
  rfl

def optionReads (o : Tlv) (tlv : Nat) : List Nat :=
  if IsEfi o then [tlv, tlv + 1, tlv + 2, tlv + 3] else [tlv, tlv + 1]

theorem not_isEfi_of_isImaGet {o : Tlv} (h : IsImaGet o) : ¬IsEfi o := by
  unfold IsImaGet at h
  unfold IsEfi
  rw [h]
  decide

theorem parseFrom_option (hlt : tlv < tail) (h : Acceptable (Tlv.read payload tlv)) :
    parseFrom payload tail (n + 1) tlv ima scheme = (parseFrom payload tail n (tlv + (Tlv.read payload tlv).size)
        (ima || decide (IsImaGet (Tlv.read payload tlv)))
        (if IsEfi (Tlv.read payload tlv) then .ofEfi (payload (tlv + 2)) (payload (tlv + 3)) else scheme)).read
        (optionReads (Tlv.read payload tlv) tlv) := by
  obtain ⟨hcomplete, hcritical⟩ := h
  rw [parseFrom, if_pos hlt, Tlv.size_read, optionReads]
  by_cases hima : IsImaGet (Tlv.read payload tlv)
  · have htype : payload tlv &&& zipExtHdrOptionTypeMask = installationMaintenanceGet := hima
    have hefi := not_isEfi_of_isImaGet hima
    dsimp only
    rw [if_pos htype, if_neg hefi, if_neg hefi, decide_eq_true hima, Bool.or_true]
  have hother : ¬payload tlv &&& zipExtHdrOptionTypeMask = installationMaintenanceGet := hima
  by_cases hefi : IsEfi (Tlv.read payload tlv)
  · have htype : payload tlv &&& zipExtHdrOptionTypeMask = encapsulationFormatInfo := hefi
    dsimp only
    rw [if_neg hother, if_pos htype, if_neg (two_le_length_iff.mp (hcomplete hefi)), if_pos hefi,
      if_pos hefi, decide_eq_false hima, Bool.or_false]
  · have hunknown : ¬payload tlv &&& zipExtHdrOptionTypeMask = encapsulationFormatInfo := hefi
    have hplain : ¬payload tlv &&& zipExtHdrOptionCriticalFlag ≠ 0 := fun hflag => hcritical ⟨hima, hefi, hflag⟩
    dsimp only
    rw [if_neg hother, if_neg hunknown, if_neg hplain, if_neg hefi, if_neg hefi, decide_eq_false hima, Bool.or_false]

theorem parseFrom_refused (hlt : tlv < tail) (h : ¬Acceptable (Tlv.read payload tlv)) :
    parseFrom payload tail (n + 1) tlv ima scheme =
      ⟨.optError, ima, scheme, if IsEfi (Tlv.read payload tlv) then [tlv, tlv + 1] else [tlv]⟩ := by
  rw [parseFrom, if_pos hlt]
  by_cases hefi : IsEfi (Tlv.read payload tlv)
  · have htype : payload tlv &&& zipExtHdrOptionTypeMask = encapsulationFormatInfo := hefi
    have hother : ¬payload tlv &&& zipExtHdrOptionTypeMask = installationMaintenanceGet :=
      fun hima => not_isEfi_of_isImaGet (o := Tlv.read payload tlv) hima hefi
    have hshort : payload (tlv + 1) < 2 := by
      by_contra hlong
      exact h ⟨fun _ => two_le_length_iff.mpr hlong, fun hcritical => hcritical.2.1 hefi⟩
    dsimp only
    rw [if_neg hother, if_pos htype, if_pos hshort, if_pos hefi]
  · obtain ⟨hima, -, hflag⟩ : UnknownCritical (Tlv.read payload tlv) := by
      by_contra hcritical
      exact h ⟨fun hefi' => absurd hefi' hefi, hcritical⟩
    have hother : ¬payload tlv &&& zipExtHdrOptionTypeMask = installationMaintenanceGet := hima
    have hunknown : ¬payload tlv &&& zipExtHdrOptionTypeMask = encapsulationFormatInfo := hefi
    have hcritical : payload tlv &&& zipExtHdrOptionCriticalFlag ≠ 0 := hflag
    dsimp only
    rw [if_neg hother, if_neg hunknown, if_pos hcritical, if_neg hefi]

theorem parseFrom_end (hle : tail ≤ tlv) : parseFrom payload tail n tlv ima scheme =
      ⟨if tlv = tail then .success else .dropFrame, ima, scheme, []⟩ := by
  cases n with
  | zero =>
    rw [parseFrom]
  | succ n => rw [parseFrom, if_neg (Nat.not_lt.mpr hle)]

/-! ### What is accepted -/

theorem parseFrom_beyond (hlt : tail < tlv) : (parseFrom payload tail n tlv ima scheme).rc = .dropFrame := by
  rw [parseFrom_end (Nat.le_of_lt hlt), if_neg (Nat.ne_of_gt hlt)]

theorem spells_cons {o : Tlv} {k : Nat} :
    Spells (o :: opts) (payload.slice tlv k) ↔ Tlv.read payload tlv = o ∧ Acceptable o ∧ o.size ≤ k ∧
      Spells opts (payload.slice (tlv + o.size) (k - o.size)) := by
  have hchain : Tlv.chain (o :: opts) ++ [] = payload.slice tlv k ↔ Tlv.read payload tlv = o ∧ o.size ≤ k ∧
      Tlv.chain opts ++ [] = payload.slice (tlv + o.size) (k - o.size) := Tlv.chain_cons_append
  rw [List.append_nil, List.append_nil] at hchain
  rw [Spells, Spells, List.forall_mem_cons, hchain]
  constructor
  · rintro ⟨⟨ho, hopts⟩, hread, hle, hrest⟩
    exact ⟨hread, ho, hle, hopts, hrest⟩
  · rintro ⟨hread, ho, hle, hopts, hrest⟩
    exact ⟨⟨ho, hopts⟩, hread, hle, hrest⟩

theorem spells_nil {k : Nat} : Spells [] (payload.slice tlv k) ↔ k = 0 := by
  rw [Spells, Tlv.chain_nil]
  constructor
  · rintro ⟨-, h⟩
    have hlength := congrArg List.length h
    rw [Mem.length_slice] at hlength
    exact hlength.symm
  · rintro rfl
    exact ⟨fun _ ho => absurd ho List.not_mem_nil, rfl⟩

theorem parseFrom_success_iff (hfuel : tail ≤ tlv + n) (hle : tlv ≤ tail) :
    (parseFrom payload tail n tlv ima scheme).rc = .success ↔ ∃ opts, Spells opts (payload.slice tlv (tail - tlv)) := by
  induction n generalizing tlv ima scheme with
  | zero =>
    have hend : tlv = tail := by omega
    rw [parseFrom_end (Nat.le_of_eq hend.symm), if_pos hend]
    exact iff_of_true rfl ⟨[], spells_nil.mpr (by omega)⟩
  | succ n ih =>
    rcases Nat.lt_or_eq_of_le hle with hlt | hend
    · by_cases h : Acceptable (Tlv.read payload tlv)
      · rw [parseFrom_option hlt h]
        have htwo := Tlv.two_le_size (Tlv.read payload tlv)
        by_cases hfits : tlv + (Tlv.read payload tlv).size ≤ tail
        · refine (ih (by omega) hfits).trans ?_
          rw [Nat.sub_add_eq]
          constructor
          · rintro ⟨opts, hopts⟩
            exact ⟨_ :: opts, spells_cons.mpr ⟨rfl, h, by omega, hopts⟩⟩
          · rintro ⟨opts, hopts⟩
            cases opts with
            | nil => exact absurd (spells_nil.mp hopts) (by omega)
            | cons o opts =>
              obtain ⟨rfl, -, -, hrest⟩ := spells_cons.mp hopts
              exact ⟨opts, hrest⟩
        · refine iff_of_false ?_ ?_
          · intro hsuccess
            have hdrop := (parseFrom_beyond (Nat.lt_of_not_le hfits)).symm.trans hsuccess
            cases hdrop
          · rintro ⟨opts, hopts⟩
            cases opts with
            | nil => exact absurd (spells_nil.mp hopts) (by omega)
            | cons o opts =>
              obtain ⟨rfl, -, hsize, -⟩ := spells_cons.mp hopts
              omega
      · rw [parseFrom_refused hlt h]
        refine iff_of_false (fun hsuccess => by cases hsuccess) ?_
        rintro ⟨opts, hopts⟩
        cases opts with
        | nil => exact absurd (spells_nil.mp hopts) (by omega)
        | cons o opts =>
          obtain ⟨rfl, ho, -, -⟩ := spells_cons.mp hopts
          exact h ho
    · rw [parseFrom_end (Nat.le_of_eq hend.symm), if_pos hend]
      exact iff_of_true rfl ⟨[], spells_nil.mpr (by omega)⟩

/-! ### The values of the options -/

theorem efiScheme_read (h : 2 ≤ (Tlv.read payload tlv).value.length) :
    efiScheme (Tlv.read payload tlv) = .ofEfi (payload (tlv + 2)) (payload (tlv + 3)) := by
  have hlength : (Tlv.read payload tlv).value.length = (payload (tlv + 1)).toNat := Mem.length_slice _ _ _
  rw [hlength] at h
  have hvalue : ∀ i < 2, (Tlv.read payload tlv).value.getD i 0 = payload (tlv + 2 + i) := by
    intro i hi
    have hget : (payload.slice (tlv + 2) (payload (tlv + 1)).toNat)[i]? = some (payload (tlv + 2 + i)) :=
      Mem.getElem?_slice (Nat.lt_of_lt_of_le hi h)
    rw [List.getD_eq_getElem?_getD]
    exact congrArg (Option.getD · 0) hget
  rw [efiScheme, hvalue 0 (by decide), hvalue 1 (by decide)]

theorem schemeOf_cons (o : Tlv) (opts : List Tlv) (scheme : Scheme) :
    schemeOf (o :: opts) scheme = schemeOf opts (if IsEfi o then efiScheme o else scheme) := by
  unfold schemeOf
  by_cases hefi : IsEfi o
  · rw [List.filter_cons_of_pos (by exact decide_eq_true hefi), List.getLast?_cons, if_pos hefi]
    cases (opts.filter IsEfi).getLast? <;> rfl
  · rw [List.filter_cons_of_neg (by simpa using hefi), if_neg hefi]

theorem parseFrom_values (hfuel : tail ≤ tlv + n) (hle : tlv ≤ tail)
    (hopts : Spells opts (payload.slice tlv (tail - tlv))) :
    (parseFrom payload tail n tlv ima scheme).curSendIma = (ima || opts.any (IsImaGet ·)) ∧
      (parseFrom payload tail n tlv ima scheme).scheme = schemeOf opts scheme := by
  induction opts generalizing n tlv ima scheme with
  | nil =>
    have hend := spells_nil.mp hopts
    rw [parseFrom_end (by omega)]
    exact ⟨(Bool.or_false ima).symm, rfl⟩
  | cons o opts ih =>
    obtain ⟨rfl, ho, hsize, hrest⟩ := spells_cons.mp hopts
    have htwo := Tlv.two_le_size (Tlv.read payload tlv)
    cases n with
    | zero => omega
    | succ n =>
      rw [parseFrom_option (by omega) ho]
      rw [← Nat.sub_add_eq] at hrest
      constructor
      · rw [List.any_cons, ← Bool.or_assoc]
        exact (ih (by omega) (by omega) hrest).1
      · rw [schemeOf_cons]
        refine (ih (by omega) (by omega) hrest).2.trans (congrArg (schemeOf opts) ?_)
        refine if_ctx_congr Iff.rfl (fun hefi => ?_) fun _ => rfl
        exact (efiScheme_read (ho.1 hefi)).symm

/-! ### What is read -/

theorem unknownCritical_congr {o o' : Tlv} (h : o.type = o'.type) : UnknownCritical o ↔ UnknownCritical o' := by
  unfold UnknownCritical IsImaGet IsEfi
  rw [h]

theorem stub_slice_iff {k : Nat} : Stub (payload.slice tlv k) ↔ k = 1 ∧ ¬UnknownCritical (Tlv.read payload tlv) ∨
      2 ≤ k ∧ k < 4 ∧ IsEfi (Tlv.read payload tlv) ∧ 2 ≤ (Tlv.read payload tlv).value.length := by
  constructor
  · intro h
    generalize hslice : payload.slice tlv k = header at h
    have hlength := congrArg List.length hslice
    rw [Mem.length_slice] at hlength
    cases h with
    | bare type h =>
      obtain rfl : k = 1 := hlength
      have htype : payload tlv = type := List.head_eq_of_cons_eq hslice
      exact Or.inl ⟨rfl, fun hcritical => h ((unknownCritical_congr htype).mp hcritical)⟩
    | efi type length value htype hlong hvalue =>
      obtain ⟨j, rfl⟩ : ∃ j, k = 1 + (1 + j) := ⟨value.length, by
        rw [hlength, List.length_cons, List.length_cons]
        omega⟩
      rw [Mem.slice_add, Mem.slice_add] at hslice
      have hhead : payload tlv = type := List.head_eq_of_cons_eq hslice
      have hsecond : payload (tlv + 1) = length :=
        List.head_eq_of_cons_eq (List.tail_eq_of_cons_eq hslice)
      rw [List.length_cons, List.length_cons] at hlength
      refine Or.inr ⟨by omega, by omega, ?_, ?_⟩
      · subst hhead
        exact htype
      · rw [two_le_length_iff, hsecond, UInt8.not_lt]
        exact hlong
  · rintro (⟨rfl, h⟩ | ⟨htwo, hfour, hefi, hlong⟩)
    · exact Stub.bare (payload tlv) h
    · obtain ⟨j, rfl⟩ : ∃ j, k = 1 + (1 + j) := ⟨k - 2, by omega⟩
      rw [Mem.slice_add, Mem.slice_add]
      refine Stub.efi (payload tlv) (payload (tlv + 1)) _ hefi ?_ ?_
      · rw [two_le_length_iff, UInt8.not_lt] at hlong
        exact hlong
      · change (payload.slice (tlv + 1 + 1) j).length < 2
        rw [Mem.length_slice]
        omega

theorem breaksOff_iff {j k : Nat} : BreaksOff j (payload.slice tlv k) ↔ 0 < j ∧ Stub (payload.slice tlv k) ∨
      Acceptable (Tlv.read payload tlv) ∧ (Tlv.read payload tlv).size ≤ k ∧ BreaksOff (j - (Tlv.read payload tlv).size)
          (payload.slice (tlv + (Tlv.read payload tlv).size) (k - (Tlv.read payload tlv).size)) := by
  constructor
  · rintro ⟨opts, rest, hopts, hlength, hrest, hbytes⟩
    cases opts with
    | nil => exact Or.inl ⟨hlength, hbytes ▸ hrest⟩
    | cons o opts =>
      obtain ⟨rfl, hle, htail⟩ := Tlv.chain_cons_append.mp hbytes
      obtain ⟨ho, hothers⟩ := List.forall_mem_cons.mp hopts
      rw [Tlv.chain_cons, List.length_append, Tlv.length_bytes] at hlength
      exact Or.inr ⟨ho, hle, opts, rest, hothers, by omega, hrest, htail⟩
  · rintro (⟨hj, hstub⟩ | ⟨ho, hle, opts, rest, hopts, hlength, hrest, htail⟩)
    · exact ⟨[], _, fun _ ho => absurd ho List.not_mem_nil, hj, hstub, rfl⟩
    · refine ⟨_ :: opts, rest, List.forall_mem_cons.mpr ⟨ho, hopts⟩, ?_, hrest,
        Tlv.chain_cons_append.mpr ⟨rfl, hle, htail⟩⟩
      rw [Tlv.chain_cons, List.length_append, Tlv.length_bytes]
      omega

theorem not_breaksOff_zero (bytes : Bytes) : ¬BreaksOff 0 bytes := by
  rintro ⟨opts, rest, -, hlength, -⟩
  exact Nat.not_lt_zero _ hlength

theorem forall_mem_optionReads {o : Tlv} : (∀ i ∈ optionReads o tlv, i < room) ↔
    if IsEfi o then tlv + 3 < room else tlv + 1 < room := by
  unfold optionReads
  split_ifs <;> simp only [List.forall_mem_cons, List.not_mem_nil, false_imp_iff, implies_true, and_true] <;>
    omega

theorem parseFrom_inside_iff (hfuel : tail ≤ tlv + n) (hle : tlv ≤ tail) (hroom : tail ≤ room) :
    (∀ i ∈ (parseFrom payload tail n tlv ima scheme).reads, i < room) ↔
      ¬BreaksOff (tail - tlv) (payload.slice tlv (room - tlv)) := by
  induction n generalizing tlv ima scheme with
  | zero =>
    rw [parseFrom_end (by omega), show tail - tlv = 0 by omega]
    exact iff_of_true (fun _ hi => absurd hi List.not_mem_nil) (not_breaksOff_zero _)
  | succ n ih =>
    rcases Nat.lt_or_eq_of_le hle with hlt | hend
    · rw [breaksOff_iff, stub_slice_iff]
      have hj : 0 < tail - tlv := by omega
      have htwo := Tlv.two_le_size (Tlv.read payload tlv)
      by_cases h : Acceptable (Tlv.read payload tlv)
      · rw [parseFrom_option hlt h, ExtHdr.read, List.forall_mem_append, forall_mem_optionReads]
        have hcomplete : IsEfi (Tlv.read payload tlv) → 4 ≤ (Tlv.read payload tlv).size := fun hefi =>
          Nat.add_le_add_right (h.1 hefi) 2
        by_cases hfits : tlv + (Tlv.read payload tlv).size ≤ tail
        · rw [ih (by omega) hfits, Nat.sub_add_eq, Nat.sub_add_eq]
          have hinside : if IsEfi (Tlv.read payload tlv) then tlv + 3 < room else tlv + 1 < room := by
            split_ifs with hefi
            · have := hcomplete hefi
              omega
            · omega
          have hwhole : ¬(room - tlv = 1 ∧ ¬UnknownCritical (Tlv.read payload tlv) ∨
              2 ≤ room - tlv ∧ room - tlv < 4 ∧ IsEfi (Tlv.read payload tlv) ∧
                2 ≤ (Tlv.read payload tlv).value.length) := by
            rintro (⟨hone, -⟩ | ⟨-, hfour, hefi, -⟩)
            · omega
            · have := hcomplete hefi
              omega
          have hsize : (Tlv.read payload tlv).size ≤ room - tlv := by omega
          constructor
          · rintro ⟨-, hrest⟩ (⟨-, hstub⟩ | ⟨-, -, hbreaks⟩)
            · exact hwhole hstub
            · exact hrest hbreaks
          · exact fun hrest => ⟨hinside, fun hbreaks => hrest (Or.inr ⟨h, hsize, hbreaks⟩)⟩
        · -- The loop ends behind the header, so only the bytes of this option are read.
          have hlast : tail - tlv - (Tlv.read payload tlv).size = 0 := by omega
          rw [parseFrom_end (Nat.le_of_lt (Nat.lt_of_not_le hfits)), hlast]
          constructor
          · rintro ⟨hinside, -⟩ (⟨-, ⟨hone, -⟩ | ⟨-, hfour, hefi, -⟩⟩ | ⟨-, -, hbreaks⟩)
            · split_ifs at hinside <;> omega
            · rw [if_pos hefi] at hinside
              omega
            · exact not_breaksOff_zero _ hbreaks
          · intro hstub
            refine ⟨?_, fun _ hi => absurd hi List.not_mem_nil⟩
            have hone : room - tlv ≠ 1 := fun hone => hstub (Or.inl ⟨hj, Or.inl ⟨hone, h.2⟩⟩)
            split_ifs with hefi
            · by_contra hout
              exact hstub (Or.inl ⟨hj, Or.inr ⟨by omega, by omega, hefi, h.1 hefi⟩⟩)
            · omega
      · rw [parseFrom_refused hlt h]
        by_cases hefi : IsEfi (Tlv.read payload tlv)
        · have hknown : ¬UnknownCritical (Tlv.read payload tlv) := fun hcritical => hcritical.2.1 hefi
          have hshort : ¬2 ≤ (Tlv.read payload tlv).value.length := fun hlong =>
            h ⟨fun _ => hlong, hknown⟩
          simp only [if_pos hefi, List.forall_mem_cons, List.not_mem_nil, false_imp_iff, implies_true, and_true]
          constructor
          · rintro ⟨-, hsecond⟩ (⟨-, ⟨hone, -⟩ | ⟨-, -, -, hlong⟩⟩ | ⟨hok, -⟩)
            · omega
            · exact hshort hlong
            · exact h hok
          · intro hstub
            have hone : room - tlv ≠ 1 := fun hone => hstub (Or.inl ⟨hj, Or.inl ⟨hone, hknown⟩⟩)
            omega
        · have hcritical : UnknownCritical (Tlv.read payload tlv) := by
            by_contra hknown
            exact h ⟨fun hefi' => absurd hefi' hefi, hknown⟩
          simp only [if_neg hefi, List.forall_mem_cons, List.not_mem_nil, false_imp_iff, implies_true, and_true]
          refine iff_of_true (Nat.lt_of_lt_of_le hlt hroom) ?_
          rintro (⟨-, ⟨-, hknown⟩ | ⟨-, -, hefi', -⟩⟩ | ⟨hok, -⟩)
          · exact hknown hcritical
          · exact hefi hefi'
          · exact h hok
    · rw [parseFrom_end (by omega), show tail - tlv = 0 by omega]
      exact iff_of_true (fun _ hi => absurd hi List.not_mem_nil) (not_breaksOff_zero _)

theorem success_iff : (parseCcZipExtHdr payload length scheme).rc = .success ↔
    ∃ opts, Spells opts (payload.slice 0 length.toNat) :=
  parseFrom_success_iff (by omega) (Nat.zero_le _)

theorem inside_iff (hroom : length.toNat ≤ room) : (∀ i ∈ (parseCcZipExtHdr payload length scheme).reads, i < room) ↔
      ¬BreaksOff length.toNat (payload.slice 0 room) :=
  parseFrom_inside_iff (by omega) (Nat.zero_le _) hroom

theorem values_of_spells (hopts : Spells opts (payload.slice 0 length.toNat)) :
    (parseCcZipExtHdr payload length scheme).curSendIma = opts.any (IsImaGet ·) ∧
      (parseCcZipExtHdr payload length scheme).scheme = schemeOf opts scheme :=
  parseFrom_values (by omega) (Nat.zero_le _) hopts

end Parsing

/-- The parser does what is expected of it exactly for the headers that do not break off inside bytes it
reads. -/
theorem ext_hdr_parsed_iff (payload : Mem) (length : UInt16) (scheme : Scheme) :
    Parses payload length scheme ↔ ¬BreaksOff length.toNat (payload.slice 0 length.toNat) := by
  constructor
  · intro h
    exact (inside_iff (Nat.le_refl _)).mp h.inside
  · intro h
    exact ⟨success_iff, (inside_iff (Nat.le_refl _)).mpr h, fun _ hopts => values_of_spells hopts⟩

theorem bareType_not_parsed : ¬Parses (Mem.ofBytes [installationMaintenanceGet]) 1 .autoScheme := by
  intro h
  exact absurd (h.inside 1 (by decide)) (by decide)

end ZipGateway.ClassicZip

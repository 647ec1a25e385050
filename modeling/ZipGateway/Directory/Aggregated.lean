import Mathlib.Data.List.Induction
import Mathlib.Data.List.Perm.Subperm
import ZipGateway.Directory.Machine
import ZipGateway.Lib.Bitmap

/-!
# The members of an aggregated endpoint

What `rd_ep_aggregated_members_get_callback` stores of a report, with the offsets that it reads and writes.
-/

set_option maxRecDepth 8000

namespace ZipGateway.Directory

/-- `rd_ep_aggregated_members_get_callback` of a frame, dropped in other states of the endpoint. -/
def aggregatedMembersGet (state : EpState) (allocates : Bool) (fresh frame : Mem) : Option AggregatedGet :=
  if state ≠ .probeAggregatedEndpoints then none else some (storeMembers allocates fresh frame)

def AggregatedGet.numbers (r : AggregatedGet) : List Nat :=
  (r.agg.slice 0 r.aggrLen.toNat).map UInt8.toNat

structure Member (frame : Mem) (x : Nat) : Prop where
  pos : 0 < x
  le : x ≤ 8 * (frame 3).toNat
  marked : Bitmap.Marked (fun i => frame (4 + i)) (x - 1)

/-- A report of `cmdLength` bytes is decoded right. -/
structure DecodedRight (frame : Mem) (cmdLength : Nat) (r : AggregatedGet) : Prop where
  sorted : r.numbers.Pairwise (· < ·)
  exact : ∀ x, x ∈ r.numbers ↔ Member frame x
  writes : ∀ w ∈ r.writes, w < r.allocated
  reads : ∀ i ∈ r.reads, i < cmdLength

/-- The masks are in the frame, the members are numbers of eight bits, and there is memory for them. -/
structure Decodable (allocates : Bool) (frame : Mem) (cmdLength : Nat) : Prop where
  complete : 4 + (frame 3).toNat ≤ cmdLength
  bytes : ∀ x, Member frame x → x ≤ 255
  memory : allocates = true ∨ ∀ x, ¬ Member frame x

section Bits

def bitsFrom : Nat → UInt8 → Nat → List Nat
  | 0, _, _ => []
  | fuel + 1, c, j =>
    if c = 0 then []
    else (if c &&& 1 ≠ 0 then [j] else []) ++ bitsFrom fuel (c >>> 1) (j + 1)

theorem bitsFrom_eq : ∀ c : UInt8, bitsFrom 8 c 0 = (List.range 8).filter fun k => c &&& (1 <<< UInt8.ofNat k) ≠ 0 := by
  decide +kernel

theorem bit8CountLoop_eq : ∀ c : UInt8, bit8CountLoop 8 c 0 = (bitsFrom 8 c 0).length := by
  decide +kernel

end Bits

def members (frame : Mem) : List Nat :=
  ((List.range (8 * (frame 3).toNat)).filter fun i => Bitmap.Marked (fun i => frame (4 + i)) i).map (· + 1)

theorem mem_members {frame : Mem} {x : Nat} : x ∈ members frame ↔ Member frame x := by
  rw [members, List.mem_map]
  constructor
  · rintro ⟨i, hi, rfl⟩
    have hfilter := List.mem_filter.mp hi
    exact ⟨Nat.succ_pos i, List.mem_range.mp hfilter.1, of_decide_eq_true hfilter.2⟩
  · intro h
    have hpos := h.pos
    have hle := h.le
    refine ⟨x - 1, List.mem_filter.mpr ⟨List.mem_range.mpr (by omega), decide_eq_true h.marked⟩, ?_⟩
    exact Nat.sub_add_cancel hpos

theorem members_sorted (frame : Mem) : (members frame).Pairwise (· < ·) :=
  List.Pairwise.map _ (fun _ _ h => Nat.succ_lt_succ h) (List.pairwise_lt_range.filter _)

namespace Members

variable {masks : Mem} {m : Members} {k i n fuel j : Nat} {c : UInt8} {l : List Nat}

def addAll (m : Members) (l : List Nat) : Members :=
  l.foldl add m

theorem addAll_append (m : Members) (l l' : List Nat) : m.addAll (l ++ l') = (m.addAll l).addAll l' :=
  List.foldl_append

theorem maskLoop_eq : maskLoop n fuel c j m = m.addAll ((bitsFrom fuel c j).map (n + · + 1)) := by
  induction fuel generalizing c j m with
  | zero => rfl
  | succ fuel ih =>
    rw [maskLoop, bitsFrom]
    by_cases hzero : c = 0
    · rw [if_pos hzero, if_pos hzero]
      rfl
    · rw [if_neg hzero, if_neg hzero, ih, List.map_append, addAll_append]
      split <;> rfl

theorem filter_marked (masks : Mem) (i : Nat) :
    (List.range' (8 * i) 8).filter (fun k => Bitmap.Marked masks k) = (bitsFrom 8 (masks i) 0).map (8 * i + ·) := by
  have hrange : List.range' (8 * i) 8 = (List.range 8).map (8 * i + ·) := by
    rw [List.range_eq_range', List.map_add_range', Nat.add_zero]
  rw [bitsFrom_eq, hrange, List.filter_map]
  apply congrArg
  apply List.filter_congr
  intro k hk
  have hlt := List.mem_range.mp hk
  have hdiv : (8 * i + k) / 8 = i := by omega
  have hmod : (8 * i + k) % 8 = k := by omega
  apply decide_eq_decide.mpr
  unfold Bitmap.Marked
  rw [hdiv, hmod]

theorem masksLoop_eq : masksLoop masks k i m =
    m.addAll (((List.range' (8 * i) (8 * k)).filter fun k => Bitmap.Marked masks k).map (· + 1)) := by
  induction k generalizing i m with
  | zero => rfl
  | succ k ih =>
    have hrange : List.range' (8 * i) (8 * (k + 1)) = List.range' (8 * i) 8 ++ List.range' (8 * (i + 1)) (8 * k) := by
      rw [show 8 * (k + 1) = 8 + 8 * k by omega, show 8 * (i + 1) = 8 * i + 8 by omega]
      exact List.range'_append_1.symm
    rw [masksLoop, ih, maskLoop_eq, hrange, List.filter_append, List.map_append, addAll_append, filter_marked,
      List.map_map]
    rfl

theorem addAll_eq (fresh : Mem) (h : l.length ≤ 255) : ((⟨fresh, 0, []⟩ : Members).addAll l).aggrLen.toNat = l.length ∧
      ((⟨fresh, 0, []⟩ : Members).addAll l).agg.slice 0 l.length = l.map UInt8.ofNat ∧
      ((⟨fresh, 0, []⟩ : Members).addAll l).writes = List.range l.length := by
  induction l using List.reverseRecOn with
  | nil => exact ⟨rfl, rfl, rfl⟩
  | append_singleton l x ih =>
    rw [List.length_append, List.length_singleton] at h ⊢
    obtain ⟨hlen, hagg, hwrites⟩ := ih (by omega)
    rw [addAll_append]
    refine ⟨?_, ?_, ?_⟩
    · change (((⟨fresh, 0, []⟩ : Members).addAll l).aggrLen + 1).toNat = l.length + 1
      rw [UInt8.toNat_add, hlen]
      exact Nat.mod_eq_of_lt (show l.length + 1 < 2 ^ 8 by omega)
    · change (Mem.write _ _ [UInt8.ofNat x]).slice 0 (l.length + 1) = _
      have hwrite := Mem.slice_write_append ((⟨fresh, 0, []⟩ : Members).addAll l).agg 0 l.length [UInt8.ofNat x]
      rw [Nat.zero_add] at hwrite
      rw [hlen, List.map_append, ← hagg]
      exact hwrite
    · change ((⟨fresh, 0, []⟩ : Members).addAll l).writes ++ [_] = _
      rw [hwrites, hlen, List.range_succ]

end Members

section Count

theorem range_eight (k : Nat) : List.range (8 * (k + 1)) = List.range (8 * k) ++ List.range' (8 * k) 8 := by
  rw [List.range_eq_range', List.range_eq_range', show 8 * (k + 1) = 8 * k + 8 by omega, ← List.range'_append_1,
    Nat.zero_add]

variable {masks : Mem} {k : Nat}

theorem bit8Count_eq (c : UInt8) : bit8Count c = UInt8.ofNat (bitsFrom 8 c 0).length := by
  rw [bit8Count, bit8CountLoop_eq]

theorem countArrayBits_eq (masks : Mem) (length : UInt8) : countArrayBits masks length =
    UInt8.ofNat ((List.range (8 * length.toNat)).filter fun i => Bitmap.Marked masks i).length := by
  have hloop : ∀ k, (List.range k).foldl (fun c i => c + bit8Count (masks i)) 0 =
      UInt8.ofNat ((List.range (8 * k)).filter fun i => Bitmap.Marked masks i).length := by
    intro k
    induction k with
    | zero => rfl
    | succ k ih =>
      rw [List.range_succ, List.foldl_append, ih, range_eight, List.filter_append, List.length_append,
        UInt8.ofNat_add, Members.filter_marked, List.length_map, ← bit8Count_eq]
      rfl
  exact hloop length.toNat

end Count

section Decoding

variable {allocates : Bool} {fresh frame : Mem} {cmdLength : Nat}

theorem storeMembers_members : (storeMembers allocates fresh frame).toMembers =
    (⟨fresh, 0, []⟩ : Members).addAll (members frame) := by
  have hloop := @Members.masksLoop_eq (fun i => frame (4 + i)) ⟨fresh, 0, []⟩ (frame 3).toNat 0
  rw [Nat.mul_zero, ← List.range_eq_range'] at hloop
  exact hloop

theorem storeMembers_allocated : (storeMembers allocates fresh frame).allocated =
    if allocates then (UInt8.ofNat (members frame).length).toNat else 0 := by
  rw [members, List.length_map, ← countArrayBits_eq]
  rfl

theorem length_members_le (h : ∀ x, Member frame x → x ≤ 255) : (members frame).length ≤ 255 := by
  have hsub : members frame ⊆ List.range' 1 255 := by
    intro x hx
    have hmember := mem_members.mp hx
    have hpos := hmember.pos
    have hle := h x hmember
    exact List.mem_range'_1.mpr ⟨hpos, by omega⟩
  have hnodup : (members frame).Nodup := (members_sorted frame).imp fun h => Nat.ne_of_lt h
  calc (members frame).length ≤ (List.range' 1 255).length := (List.Nodup.subperm hnodup hsub).length_le
    _ = 255 := List.length_range'

theorem numbers_eq (h : ∀ x, Member frame x → x ≤ 255) :
    (storeMembers allocates fresh frame).numbers = members frame := by
  have hlength := length_members_le h
  obtain ⟨hlen, hagg, -⟩ := Members.addAll_eq fresh hlength
  rw [AggregatedGet.numbers, storeMembers_members, hlen, hagg, List.map_map]
  calc (members frame).map (UInt8.toNat ∘ UInt8.ofNat) = (members frame).map id := by
        apply List.map_congr_left
        intro x hx
        have hle := h x (mem_members.mp hx)
        exact UInt8.toNat_ofNat_of_lt' (show x < 256 by omega)
    _ = members frame := List.map_id _

theorem decodedRight_storeMembers_iff : DecodedRight frame cmdLength (storeMembers allocates fresh frame) ↔
      Decodable allocates frame cmdLength := by
  constructor
  · intro h
    have hbytes : ∀ x, Member frame x → x ≤ 255 := by
      intro x hx
      obtain ⟨b, -, rfl⟩ := List.mem_map.mp ((h.exact x).mpr hx)
      exact Nat.le_of_lt_succ (UInt8.toNat_lt b)
    refine ⟨?_, hbytes, ?_⟩
    · have hfirst : 3 < cmdLength := h.reads 3 List.mem_cons_self
      by_contra hshort
      have hlast := h.reads (3 + (frame 3).toNat) (List.mem_cons_of_mem _ (List.mem_range'_1.mpr ⟨by omega, by omega⟩))
      omega
    · by_contra hnone
      rw [not_or, not_forall, Bool.not_eq_true] at hnone
      obtain ⟨hfail, x, hx⟩ := hnone
      have hmem := mem_members.mpr (not_not.mp hx)
      have hwrites : (storeMembers allocates fresh frame).writes = List.range (members frame).length := by
        rw [storeMembers_members]
        exact (Members.addAll_eq fresh (length_members_le hbytes)).2.2
      have hwrite := h.writes 0 (hwrites ▸ List.mem_range.mpr (List.length_pos_of_mem hmem))
      rw [storeMembers_allocated, hfail] at hwrite
      exact absurd hwrite (Nat.lt_irrefl 0)
  · intro h
    have hlength := length_members_le h.bytes
    have hnumbers : (storeMembers allocates fresh frame).numbers = members frame := numbers_eq h.bytes
    refine ⟨?_, ?_, ?_, ?_⟩
    · rw [hnumbers]
      exact members_sorted frame
    · intro x
      rw [hnumbers]
      exact mem_members
    · intro w hw
      rw [storeMembers_members, (Members.addAll_eq fresh hlength).2.2, List.mem_range] at hw
      have hallocates : allocates = true :=
        h.memory.resolve_right fun hnone =>
          hnone _ (mem_members.mp (List.getElem_mem (Nat.zero_lt_of_lt hw)))
      rw [storeMembers_allocated, if_pos hallocates,
        UInt8.toNat_ofNat_of_lt' (show (members frame).length < 256 by omega)]
      exact hw
    · have hcomplete := h.complete
      intro i hi
      rcases List.mem_cons.mp hi with rfl | hi
      · omega
      · have hrange := List.mem_range'_1.mp hi
        omega

/-- A report is decoded right exactly if its masks are in the frame and its members are bytes. -/
theorem decodedRight_iff (state : EpState) (allocates : Bool) (fresh frame : Mem) (cmdLength : Nat) :
    (∀ r, aggregatedMembersGet state allocates fresh frame = some r → DecodedRight frame cmdLength r) ↔
      (state = .probeAggregatedEndpoints → Decodable allocates frame cmdLength) := by
  rw [aggregatedMembersGet]
  by_cases hstate : state = .probeAggregatedEndpoints
  · rw [if_neg (not_not.mpr hstate)]
    constructor
    · intro h _
      exact decodedRight_storeMembers_iff.mp (h _ rfl)
    · intro h r hr
      cases hr
      exact decodedRight_storeMembers_iff.mpr (h hstate)
  · rw [if_pos hstate]
    constructor
    · exact fun _ h => absurd h hstate
    · intro _ r hr
      cases hr

theorem shortReport_not_decodedRight : ¬ ∀ r, aggregatedMembersGet .probeAggregatedEndpoints true (fun _ => 0)
      (Mem.ofBytes [0x60, 0x0F, 0x02, 0x01]) = some r → DecodedRight (Mem.ofBytes [0x60, 0x0F, 0x02, 0x01]) 4 r := by
  intro h
  exact absurd ((h _ rfl).reads 4 (by decide)) (by decide)

end Decoding

end ZipGateway.Directory

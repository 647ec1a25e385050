import ZipGateway.Multicast.Rounds
import ZipGateway.Directory.State
import ZipGateway.Lib.Byte
import Mathlib.Data.List.GetD

/-!
# The lists of nodes and of failed nodes

A report has 29 bytes with a bit for every classic node, the length of the mask of the long-range nodes
and that mask, which is cut behind its last byte that is needed. The nodes of the network are the bits
of what the chip reports; the failing ones are marked in an array on the stack.
-/

namespace ZipGateway.NodeLists

open Bitmap (Marked mark)
open MulticastSplit (isValid bitOf addNode)
open Directory (NodeHeader NodeState)

def maxNodes : Nat := 4000
def maxNodemaskLength : Nat := 500
def maxClassicNodemaskLength : Nat := 29
def maxLrNodemaskLength : Nat := 468
def lrNodemaskOffset : Nat := 32

def nodemaskSize : Nat := 501

def bufferSize : Nat := 35 + nodemaskSize

def commandClassNetworkManagementProxy : UInt8 := 0x52
def nodeListReport : UInt8 := 0x02
def failedNodeListReport : UInt8 := 0x0C
def nodeListReportLatestList : UInt8 := 0
def nodeListReportNoGuarantee : UInt8 := 1

section Trimming

variable (buffer : Mem)

def findMinFrom : Nat → Nat → Nat
  | 0, i => i
  | n + 1, i => if buffer i ≠ 0 then findMinFrom n (i + 1) else i

def findMinBitmaskLen (length : Nat) : Nat := findMinFrom buffer length 0

/-- The length covers all set bits, and no smaller one does. -/
def Smallest (length r : Nat) : Prop :=
  (∀ j < length, buffer j ≠ 0 → j < r) ∧ ∀ r', (∀ j < length, buffer j ≠ 0 → j < r') → r ≤ r'

/-- No byte without a bit is before one with a bit. -/
def Gapless (length : Nat) : Prop := ∀ j < length, buffer j ≠ 0 → ∀ i < j, buffer i ≠ 0

variable {buffer}

theorem findMinFrom_spec {length n i : Nat} (h : i + n = length) (hbefore : ∀ j < i, buffer j ≠ 0) :
    findMinFrom buffer n i ≤ length ∧ (∀ j < findMinFrom buffer n i, buffer j ≠ 0) ∧
      (findMinFrom buffer n i < length → buffer (findMinFrom buffer n i) = 0) := by
  induction n generalizing i with
  | zero =>
    rw [findMinFrom]
    exact ⟨by omega, hbefore, by omega⟩
  | succ n ih =>
    rw [findMinFrom]
    split_ifs with hzero
    · refine ih (by omega) fun j hj => ?_
      rcases Nat.lt_succ_iff_lt_or_eq.mp hj with hj | rfl
      · exact hbefore j hj
      · exact hzero
    · exact ⟨by omega, hbefore, fun _ => not_not.mp hzero⟩

theorem findMin_spec (buffer : Mem) (length : Nat) : findMinBitmaskLen buffer length ≤ length ∧
      (∀ j < findMinBitmaskLen buffer length, buffer j ≠ 0) ∧
      (findMinBitmaskLen buffer length < length → buffer (findMinBitmaskLen buffer length) = 0) :=
  findMinFrom_spec (Nat.zero_add _) (by simp)

theorem covers_iff (length : Nat) :
    (∀ j < length, buffer j ≠ 0 → j < findMinBitmaskLen buffer length) ↔ Gapless buffer length := by
  obtain ⟨hle, hused, hend⟩ := findMin_spec buffer length
  constructor
  · exact fun h j hj hne i hi => hused i (by have := h j hj hne; omega)
  · intro h j hj hne
    by_contra hge
    rcases Nat.lt_or_eq_of_le (Nat.not_lt.mp hge) with hlt | heq
    · exact h j hj hne _ hlt (hend (by omega))
    · exact hne (heq ▸ hend (by omega))

theorem smallest_iff (length : Nat) :
    Smallest buffer length (findMinBitmaskLen buffer length) ↔ Gapless buffer length := by
  rw [← covers_iff, Smallest, and_iff_left_iff_imp]
  intro _ r' hcover
  obtain ⟨hle, hused, -⟩ := findMin_spec buffer length
  rcases Nat.eq_zero_or_pos (findMinBitmaskLen buffer length) with hzero | hpos
  · omega
  · have := hcover (findMinBitmaskLen buffer length - 1) (by omega) (hused _ (by omega))
    omega

end Trimming

section Layout

/-- What the report says of a node: a bit of the 29 bytes at `off`, or one of the long-range mask,
inside the length in front of it. -/
def Says (off : Nat) (frame : Bytes) (id : Nat) : Prop :=
  isClassic id ∧ Marked (fun i => frame.getD (off + i) 0) (id - 1) ∨ isLr id ∧
      (id - 256) / 8 < (frame.getD (off + 29) 0).toNat * 256 + (frame.getD (off + 30) 0).toNat ∧
      Marked (fun i => frame.getD (off + 31 + i) 0) (id - 256)

def masks (classic lr : Mem) (lrLen : Nat) : Bytes :=
  classic.slice 0 maxClassicNodemaskLength ++ [UInt8.ofNat (lrLen / 256), UInt8.ofNat lrLen] ++
    lr.slice 0 lrLen

theorem marked_congr {m m' : Mem} {i : Nat} (h : m (i / 8) = m' (i / 8)) : Marked m i ↔ Marked m' i := by
  rw [Marked, h, Marked]

theorem length_masks (classic lr : Mem) (lrLen : Nat) : (masks classic lr lrLen).length = 31 + lrLen := by
  simp only [masks, maxClassicNodemaskLength, List.length_append, Mem.length_slice, List.length_cons, List.length_nil]

theorem says_iff (classic lr : Mem) {lrLen : Nat} (hlen : lrLen < 65536) (header rest : Bytes) (id : Nat) :
    Says header.length (header ++ (masks classic lr lrLen ++ rest)) id ↔ isClassic id ∧ Marked classic (id - 1) ∨
        isLr id ∧ (id - 256) / 8 < lrLen ∧ Marked lr (id - 256) := by
  have hgetD (i : Nat) (hi : i < 31 + lrLen) : (header ++ (masks classic lr lrLen ++ rest)).getD (header.length + i) 0 =
        (masks classic lr lrLen).getD i 0 := by
    rw [List.getD_append_right _ _ _ _ (by omega), Nat.add_sub_cancel_left,
      List.getD_append _ _ _ _ (by rw [length_masks]; exact hi)]
  have hclassic (i : Nat) (hi : i < 29) : (masks classic lr lrLen).getD i 0 = classic i := by
    rw [masks, List.append_assoc, List.getD_append _ _ _ _ (by rw [Mem.length_slice]; exact hi),
      List.getD_eq_getElem?_getD, Mem.getElem?_slice (n := maxClassicNodemaskLength) hi, Nat.zero_add]
    rfl
  have hword (i : Nat) : (masks classic lr lrLen).getD (29 + i) 0 =
      ([UInt8.ofNat (lrLen / 256), UInt8.ofNat lrLen] ++ lr.slice 0 lrLen).getD i 0 := by
    rw [masks, List.append_assoc, List.getD_append_right _ _ _ _ (by rw [Mem.length_slice]; exact Nat.le_add_right _ _),
      Mem.length_slice]
    congr 1
    exact Nat.add_sub_cancel_left _ _
  have hlr (i : Nat) (hi : i < lrLen) : (masks classic lr lrLen).getD (31 + i) 0 = lr i := by
    rw [show 31 + i = 29 + (2 + i) by omega, hword, List.getD_append_right _ _ _ _ (by simp),
      List.getD_eq_getElem?_getD]
    rw [show 2 + i - [UInt8.ofNat (lrLen / 256), UInt8.ofNat lrLen].length = i by simp,
      Mem.getElem?_slice hi, Nat.zero_add]
    rfl
  have hlength : ((header ++ (masks classic lr lrLen ++ rest)).getD (header.length + 29) 0).toNat * 256 +
      ((header ++ (masks classic lr lrLen ++ rest)).getD (header.length + 30) 0).toNat = lrLen := by
    rw [hgetD 29 (by omega), hgetD 30 (by omega), hword 0, hword 1]
    change (UInt8.ofNat (lrLen / 256)).toNat * 256 + (UInt8.ofNat lrLen).toNat = lrLen
    rw [UInt8.toNat_ofNat', UInt8.toNat_ofNat']
    omega
  rw [Says, hlength]
  refine or_congr (and_congr_right fun h => marked_congr ?_)
    (and_congr_right fun h => and_congr_right fun hlt => marked_congr ?_)
  · have hid : id ≤ 232 := of_decide_eq_true (Bool.and_eq_true_iff.mp h).2
    rw [hgetD _ (by omega), hclassic _ (by omega)]
  · rw [show header.length + 31 + (id - 256) / 8 = header.length + (31 + (id - 256) / 8) by omega,
      hgetD _ (by omega), hlr _ hlt]

end Layout

section Builders

structure Report where
  bytes : Bytes
  length : Nat
  lrLen : Nat

def isFailing (n : NodeHeader) : Bool :=
  n.failed && n.state = .failing || n.state = .probeFail && n.mode &&& 0xFF ≠ Directory.modeMailbox

variable (rd : Nat → Option NodeHeader) (myNodeId : Nat) (behind : Mem)

def markFailed (nlist : Mem) (i : Nat) : Mem :=
  match rd i with
  | none => nlist
  | some n => if i ≠ myNodeId ∧ isFailing n then addNode i nlist else nlist

/-- `nlist` of `BuildFailedNodeListFrame`, with what is behind it on the stack. -/
def failedMask : Mem :=
  (List.range' 1 maxNodes).foldl (markFailed rd myNodeId) fun i =>
    if i < nodemaskSize then 0 else behind i

def buildFailedNodeListFrame (seq : UInt8) : Report :=
  let nlist := failedMask rd myNodeId behind
  let lr : Mem := fun i => nlist (lrNodemaskOffset + i)
  let lrLen := findMinBitmaskLen lr maxNodemaskLength
  ⟨[commandClassNetworkManagementProxy, failedNodeListReport, seq] ++
      (masks nlist lr lrLen ++ if lrLen = 0 then [0] else []),
    35 + (if lrLen ≠ 0 then lrLen - 1 else 0), lrLen⟩

/-- What the chip reports, and who the controllers are. -/
structure Network where
  classic : Mem
  lr : Mem
  virtual : Mem
  sucNodeId : UInt8
  myNodeId : UInt16
  capabilities : UInt8

def Network.visible (net : Network) : Mem := fun i => net.classic i &&& ~~~net.virtual i

def buildNodeListFrame (net : Network) (seq : UInt8) : Report :=
  let lrLen := findMinBitmaskLen net.lr maxLrNodemaskLength
  let status := if net.sucNodeId.toUInt16 = net.myNodeId then nodeListReportLatestList
    else nodeListReportNoGuarantee
  -- without a SIS, and this is the primary controller
  let primary := net.sucNodeId = 0 ∧ net.capabilities &&& 0x04 = 0 ∧ net.capabilities &&& 0x01 = 0
  ⟨[commandClassNetworkManagementProxy, nodeListReport, seq,
      if primary then nodeListReportLatestList else status,
      if primary then net.myNodeId.toUInt8 else net.sucNodeId] ++
      (masks net.visible net.lr lrLen ++ []),
    maxClassicNodemaskLength + 9 - 2 + lrLen, lrLen⟩

end Builders

section Sets

def Used (nodes : Nat → Prop) (j : Nat) : Prop :=
  ∃ id, nodes id ∧ 256 + 8 * j ≤ id ∧ id < 264 + 8 * j

/-- The first `n` bytes of the long-range mask are used without a gap from the first one on. -/
def Compact (nodes : Nat → Prop) (n : Nat) : Prop :=
  ∀ j < n, Used nodes j → ∀ i < j, Used nodes i

def Failed (rd : Nat → Option NodeHeader) (myNodeId id : Nat) : Prop :=
  isValid id ∧ id ≠ myNodeId ∧ ∃ n, rd id = some n ∧ isFailing n

def Network.Listed (net : Network) (id : Nat) : Prop :=
  isClassic id ∧ Marked net.classic (id - 1) ∧ ¬ Marked net.virtual (id - 1) ∨ isLr id ∧ Marked net.lr (id - 256)

variable {m : Mem} {nodes : Nat → Prop}

theorem byte_ne_zero_iff (m : Mem) (j : Nat) : m j ≠ 0 ↔ ∃ i, i / 8 = j ∧ Marked m i := by
  constructor
  · intro h
    obtain ⟨k, hk, hbit⟩ := MulticastSplit.exists_bit h
    refine ⟨8 * j + k, by omega, ?_⟩
    rwa [Marked, show (8 * j + k) / 8 = j by omega, show (8 * j + k) % 8 = k by omega]
  · rintro ⟨i, rfl, hmarked⟩ hzero
    rw [Marked, hzero] at hmarked
    simp at hmarked

theorem used_iff {bytes : Nat} (hbits : ∀ id, 256 ≤ id → id < 256 + 8 * bytes → (Marked m (id - 256) ↔ nodes id))
    {j : Nat} (hj : j < bytes) : m j ≠ 0 ↔ Used nodes j := by
  rw [byte_ne_zero_iff]
  constructor
  · rintro ⟨i, hi, hmarked⟩
    refine ⟨256 + i, (hbits _ (by omega) (by omega)).mp ?_, by omega, by omega⟩
    rwa [Nat.add_sub_cancel_left]
  · rintro ⟨id, hid, hlo, hhi⟩
    exact ⟨id - 256, by omega, (hbits id (by omega) (by omega)).mpr hid⟩

theorem gapless_iff_compact {bytes : Nat} (h : ∀ j < bytes, (m j ≠ 0 ↔ Used nodes j)) :
    Gapless m bytes ↔ Compact nodes bytes := by
  unfold Gapless Compact
  constructor
  · exact fun hgap j hj hused i hi => (h i (by omega)).mp (hgap j hj ((h j hj).mpr hused) i hi)
  · exact fun hcompact j hj hne i hi => (h i (by omega)).mpr (hcompact j hj ((h j hj).mp hne) i hi)

theorem marked_iff_getLsbD (m : Mem) (i : Nat) : Marked m i ↔ (m (i / 8)).toBitVec.getLsbD (i % 8) := by
  have htwo : ∀ k : Fin 8, (1 <<< UInt8.ofNat k.val : UInt8).toBitVec = BitVec.twoPow 8 k.val := by decide
  have hk : i % 8 < 8 := Nat.mod_lt _ (by omega)
  rw [Marked, ne_eq, ← UInt8.toBitVec_inj, UInt8.toBitVec_and, htwo ⟨i % 8, hk⟩, BitVec.and_twoPow]
  split
  · rename_i hbit
    simp only [hbit, iff_true]
    exact fun hzero => absurd (congrArg (fun v => BitVec.getLsbD v (i % 8)) hzero) (by simp [hk])
  · rename_i hbit
    simp [hbit]

theorem marked_visible (net : Network) (i : Nat) :
    Marked net.visible i ↔ Marked net.classic i ∧ ¬ Marked net.virtual i := by
  have hk : i % 8 < 8 := Nat.mod_lt _ (by omega)
  rw [marked_iff_getLsbD, marked_iff_getLsbD, marked_iff_getLsbD, Network.visible, UInt8.toBitVec_and,
    UInt8.toBitVec_not, BitVec.getLsbD_and, BitVec.getLsbD_not]
  simp [hk]

theorem marked_failed (rd : Nat → Option NodeHeader) (myNodeId : Nat) (nlist : Mem) (l : List Nat) (i : Nat) :
    Marked (l.foldl (markFailed rd myNodeId) nlist) i ↔
      Marked nlist i ∨ ∃ id ∈ l, Failed rd myNodeId id ∧ bitOf id = i := by
  induction l generalizing nlist with
  | nil => simp
  | cons id l ih =>
    have hone : Marked (markFailed rd myNodeId nlist id) i ↔ Marked nlist i ∨ Failed rd myNodeId id ∧ bitOf id = i := by
      unfold markFailed Failed addNode
      cases hn : rd id with
      | none => simp
      | some n =>
        dsimp only
        by_cases hfail : id ≠ myNodeId ∧ isFailing n = true
        · rw [if_pos hfail]
          by_cases hvalid : isValid id = true
          · simp [hvalid, hfail, Bitmap.marked_mark, or_comm]
          · simp [hvalid]
        · rw [if_neg hfail]
          have hnot : ¬ (isValid id = true ∧ id ≠ myNodeId ∧ ∃ n', some n = some n' ∧ isFailing n' = true) := by
            rintro ⟨-, hne, n', hn', hfailing⟩
            exact hfail ⟨hne, Option.some.inj hn' ▸ hfailing⟩
          simp only [hnot, false_and, or_false]
    rw [List.foldl_cons, ih, hone, List.exists_mem_cons_iff, or_assoc]

theorem marked_failedMask (rd : Nat → Option NodeHeader) (myNodeId : Nat) (behind : Mem) {i : Nat}
    (hi : i / 8 < nodemaskSize) :
    Marked (failedMask rd myNodeId behind) i ↔ ∃ id, Failed rd myNodeId id ∧ bitOf id = i := by
  have hzero : ¬ Marked (fun i => if i < nodemaskSize then 0 else behind i) i := by
    rw [Marked, if_pos hi]
    simp
  rw [failedMask, marked_failed]
  simp only [hzero, false_or]
  constructor
  · rintro ⟨id, -, h⟩
    exact ⟨id, h⟩
  · rintro ⟨id, h⟩
    exact ⟨id, MulticastSplit.mem_range'_of_isValid h.1.1, h⟩

theorem failed_bit (rd : Nat → Option NodeHeader) (myNodeId : Nat) (behind : Mem) {id : Nat}
    (hvalid : isValid id = true) :
    Marked (failedMask rd myNodeId behind) (bitOf id) ↔ Failed rd myNodeId id := by
  rw [marked_failedMask rd myNodeId behind (MulticastSplit.bitOf_lt hvalid)]
  constructor
  · rintro ⟨id', hid', heq⟩
    exact MulticastSplit.bitOf_inj hid'.1 hvalid heq ▸ hid'
  · exact fun h => ⟨id, h, rfl⟩

end Sets

section Reports

/-- The frame says exactly the set, the length that is returned is that of the layout, and the buffer
holds it. -/
structure ReportsRight (off : Nat) (nodes : Nat → Prop) (r : Report) : Prop where
  nodes : ∀ id, Says off r.bytes id ↔ nodes id
  length : r.length = off + 31 + r.lrLen
  inside : r.bytes.length ≤ bufferSize

theorem classic_bounds {id : Nat} : isClassic id = true ↔ 0 < id ∧ id ≤ 232 := by
  rw [isClassic, Bool.and_eq_true, decide_eq_true_eq, decide_eq_true_eq]
  rfl

theorem lr_bounds {id : Nat} : isLr id = true ↔ 256 ≤ id ∧ id ≤ 4000 := by
  rw [isLr, Bool.and_eq_true, decide_eq_true_eq, decide_eq_true_eq]
  rfl

theorem nodeList_right_iff (net : Network) (seq : UInt8) : ReportsRight 5 net.Listed (buildNodeListFrame net seq) ↔
      ¬ net.Listed 4000 ∧ Compact net.Listed maxLrNodemaskLength := by
  have hbits : ∀ id, 256 ≤ id → id < 256 + 8 * maxLrNodemaskLength → (Marked net.lr (id - 256) ↔ net.Listed id) := by
    intro id hlo hhi
    have hhi : id < 256 + 8 * 468 := hhi
    simp only [Network.Listed, classic_bounds, lr_bounds]
    constructor
    · exact fun h => .inr ⟨by omega, h⟩
    · rintro (⟨hid, -⟩ | ⟨-, h⟩)
      · omega
      · exact h
  have hused := fun j (hj : j < maxLrNodemaskLength) => used_iff hbits hj
  obtain ⟨hle, -, -⟩ := findMin_spec net.lr maxLrNodemaskLength
  have hle' : findMinBitmaskLen net.lr maxLrNodemaskLength ≤ 468 := hle
  rw [← gapless_iff_compact hused, ← covers_iff]
  have htold (id : Nat) := says_iff net.visible net.lr
    (show findMinBitmaskLen net.lr maxLrNodemaskLength < 65536 by omega)
    [commandClassNetworkManagementProxy, nodeListReport, seq,
      if net.sucNodeId = 0 ∧ net.capabilities &&& 0x04 = 0 ∧ net.capabilities &&& 0x01 = 0 then
        nodeListReportLatestList
      else if net.sucNodeId.toUInt16 = net.myNodeId then nodeListReportLatestList
      else nodeListReportNoGuarantee,
      if net.sucNodeId = 0 ∧ net.capabilities &&& 0x04 = 0 ∧ net.capabilities &&& 0x01 = 0 then
        net.myNodeId.toUInt8
      else net.sucNodeId] [] id
  constructor
  · intro h
    have hnodes (id : Nat) := (htold id).symm.trans (h.nodes id)
    have hcut {id : Nat} (hid : net.Listed id) (hlo : 256 ≤ id) :
        (id - 256) / 8 < findMinBitmaskLen net.lr maxLrNodemaskLength := by
      rcases (hnodes id).mpr hid with ⟨hclassic, -⟩ | ⟨-, hlt, -⟩
      · have := (classic_bounds.mp hclassic).2
        omega
      · exact hlt
    refine ⟨fun hlast => ?_, fun j hj hne => ?_⟩
    · have := hcut hlast (by omega)
      omega
    · obtain ⟨id, hid, hlo, hhi⟩ := (hused j hj).mp hne
      have := hcut hid (by omega)
      omega
  · rintro ⟨hlast, hcover⟩
    refine ⟨fun id => (htold id).trans ?_, ?_, ?_⟩
    · rw [marked_visible]
      refine or_congr_right (and_congr_right fun hid => ?_)
      refine and_iff_right_of_imp fun hmarked => ?_
      obtain ⟨hlo, hhi⟩ := lr_bounds.mp hid
      have hne : id ≠ 4000 := by
        rintro rfl
        exact hlast (.inr ⟨hid, hmarked⟩)
      exact hcover _ (by change _ < 468; omega) ((byte_ne_zero_iff _ _).mpr ⟨_, rfl, hmarked⟩)
    · change 29 + 9 - 2 + _ = 5 + 31 + _
      rfl
    · simp only [buildNodeListFrame, List.length_append, length_masks, List.length_cons, List.length_nil]
      change _ ≤ 35 + 501
      omega

/-- Some byte of the long-range mask of the failing nodes is free, so that the search ends inside the
array; the first one is used; and there is no gap before the last one used. -/
def Trimmable (nodes : Nat → Prop) : Prop :=
  (∃ j < 469, ¬ Used nodes j) ∧ Used nodes 0 ∧ Compact nodes 469

/-- `find_min_bitmask_len` reads up to its result, and to the length it is given at most. -/
def ReadsInside (r : Report) : Prop :=
  ∀ i ≤ r.lrLen, i < maxNodemaskLength → lrNodemaskOffset + i < nodemaskSize

theorem failedNodeList_right_iff (rd : Nat → Option NodeHeader) (myNodeId : Nat) (behind : Mem) (seq : UInt8) :
    ReportsRight 3 (Failed rd myNodeId) (buildFailedNodeListFrame rd myNodeId behind seq) ∧
        ReadsInside (buildFailedNodeListFrame rd myNodeId behind seq) ↔
      Trimmable (Failed rd myNodeId) := by
  have hbits : ∀ id, 256 ≤ id → id < 256 + 8 * 469 →
      (Marked (fun i => failedMask rd myNodeId behind (lrNodemaskOffset + i)) (id - 256) ↔ Failed rd myNodeId id) := by
    intro id hlo hhi
    have hmove : Marked (fun i => failedMask rd myNodeId behind (lrNodemaskOffset + i)) (id - 256) ↔
        Marked (failedMask rd myNodeId behind) id := by
      rw [Marked, Marked, show (id - 256) % 8 = id % 8 by omega,
        show lrNodemaskOffset + (id - 256) / 8 = id / 8 by rw [lrNodemaskOffset]; omega]
    rw [hmove, marked_failedMask rd myNodeId behind (by change _ < 501; omega)]
    constructor
    · rintro ⟨id', hid', heq⟩
      obtain rfl : id' = id := by
        have hvalid := MulticastSplit.isValid_iff.mp hid'.1
        rw [MulticastSplit.bitOf_eq] at heq
        split_ifs at heq <;> omega
      exact hid'
    · intro hid
      have hvalid := MulticastSplit.isValid_iff.mp hid.1
      refine ⟨id, hid, ?_⟩
      rw [MulticastSplit.bitOf_eq, if_neg (by omega)]
  unfold buildFailedNodeListFrame
  dsimp only
  generalize (fun i => failedMask rd myNodeId behind (lrNodemaskOffset + i)) = lr at hbits ⊢
  have hused := fun j (hj : j < 469) => used_iff hbits hj
  obtain ⟨hle, hbefore, hend⟩ := findMin_spec lr maxNodemaskLength
  generalize findMinBitmaskLen lr maxNodemaskLength = r at hle hbefore hend ⊢
  have hle : r ≤ 500 := hle
  have htold (id : Nat) := says_iff (failedMask rd myNodeId behind) lr
    (show r < 65536 by omega) [commandClassNetworkManagementProxy, failedNodeListReport, seq]
    (if r = 0 then [0] else []) id
  have hsaid (id : Nat) : Says 3 ([commandClassNetworkManagementProxy, failedNodeListReport, seq] ++
      (masks (failedMask rd myNodeId behind) lr r ++ if r = 0 then [0] else [])) id ↔
      Failed rd myNodeId id ∧ (256 ≤ id → (id - 256) / 8 < r) := by
    refine (htold id).trans ?_
    constructor
    · rintro (⟨hclassic, hmarked⟩ | ⟨hid, hlt, hmarked⟩)
      · have hid := classic_bounds.mp hclassic
        refine ⟨(failed_bit rd myNodeId behind (MulticastSplit.isValid_iff.mpr (.inl hid))).mp ?_, by omega⟩
        rwa [MulticastSplit.bitOf_eq, if_pos hid]
      · obtain ⟨hlo, hhi⟩ := lr_bounds.mp hid
        exact ⟨(hbits id hlo (by omega)).mp hmarked, fun _ => hlt⟩
    · rintro ⟨hfailed, hlt⟩
      rcases MulticastSplit.isValid_iff.mp hfailed.1 with hid | hid
      · refine .inl ⟨classic_bounds.mpr hid, ?_⟩
        have hmarked := (failed_bit rd myNodeId behind hfailed.1).mpr hfailed
        rwa [MulticastSplit.bitOf_eq, if_pos hid] at hmarked
      · exact .inr ⟨lr_bounds.mpr hid, hlt hid.1, (hbits id hid.1 (by omega)).mpr hfailed⟩
  constructor
  · rintro ⟨hright, hinside⟩
    have hlt : r < 469 := by
      by_contra hge
      have h := hinside 469 (by simpa using hge) (by decide)
      revert h
      decide
    have hpos : r ≠ 0 := by
      rintro rfl
      have := hright.length
      simp at this
    have hcover : ∀ j < 469, Used (Failed rd myNodeId) j → j < r := by
      rintro j hj ⟨id, hid, hlo, hhi⟩
      have := ((hsaid id).mp ((hright.nodes id).mpr hid)).2 (by omega)
      omega
    refine ⟨⟨r, hlt, fun h => absurd (hcover r hlt h) (Nat.lt_irrefl r)⟩,
      (hused 0 (by omega)).mp (hbefore 0 (by omega)), fun j hj h i hi => ?_⟩
    have := hcover j hj h
    exact (hused i (by omega)).mp (hbefore i (by omega))
  · rintro ⟨⟨j, hj, hfree⟩, hfirst, hcompact⟩
    have hlt : r < 469 := by
      by_contra hge
      exact hfree ((hused j hj).mp (hbefore j (by omega)))
    have hnot : ¬ Used (Failed rd myNodeId) r := fun h =>
      (hused r hlt).mpr h (hend (by change r < 500; omega))
    have hpos : r ≠ 0 := fun h => hnot (h ▸ hfirst)
    refine ⟨⟨fun id => (hsaid id).trans (and_iff_left_of_imp fun hid hlo => ?_), ?_, ?_⟩, ?_⟩
    · by_contra hge
      have hvalid := MulticastSplit.isValid_iff.mp hid.1
      have hbyte : Used (Failed rd myNodeId) ((id - 256) / 8) := ⟨id, hid, by omega, by omega⟩
      rcases Nat.lt_or_eq_of_le (Nat.not_lt.mp hge) with hlt' | heq
      · exact hnot (hcompact _ (by omega) hbyte r hlt')
      · exact hnot (heq ▸ hbyte)
    · simp only [hpos, ne_eq, not_false_eq_true, if_true]
      omega
    · simp only [if_neg hpos, List.length_append, length_masks, List.length_cons, List.length_nil]
      change _ ≤ 35 + 501
      omega
    · intro i hi _
      change 32 + i < 501
      dsimp only at hi
      omega

end Reports

theorem node_lists_iff (buffer : Mem) (length : Nat) :
    (Smallest buffer length (findMinBitmaskLen buffer length) ↔ Gapless buffer length) ∧
    (∀ net seq, ReportsRight 5 net.Listed (buildNodeListFrame net seq) ↔
      ¬ net.Listed 4000 ∧ Compact net.Listed maxLrNodemaskLength) ∧
    ∀ rd myNodeId behind seq, ReportsRight 3 (Failed rd myNodeId) (buildFailedNodeListFrame rd myNodeId behind seq) ∧
          ReadsInside (buildFailedNodeListFrame rd myNodeId behind seq) ↔
        Trimmable (Failed rd myNodeId) :=
  ⟨smallest_iff length, nodeList_right_iff, failedNodeList_right_iff⟩

def lonelyNode : Network where
  classic _ := 0
  lr i := if i = 1 then 1 else 0
  virtual _ := 0
  sucNodeId := 1
  myNodeId := 1
  capabilities := 0

theorem node_lists_not : ¬ ReportsRight 5 lonelyNode.Listed (buildNodeListFrame lonelyNode 7) := by
  intro h
  have hlisted : lonelyNode.Listed 264 := .inr ⟨by decide, by decide⟩
  have hcut : findMinBitmaskLen lonelyNode.lr maxLrNodemaskLength = 0 := rfl
  have htold := (h.nodes 264).mpr hlisted
  rw [buildNodeListFrame, hcut] at htold
  rcases htold with ⟨hclassic, -⟩ | ⟨-, hlt, -⟩
  · exact absurd hclassic (by decide)
  · exact absurd hlt (by decide)

end ZipGateway.NodeLists

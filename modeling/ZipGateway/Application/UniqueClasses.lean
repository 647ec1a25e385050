import ZipGateway.Lib.Memory
import Mathlib.Tactic.Linarith
import Mathlib.Data.List.Sort

/-!
# Command classes without duplicates

`uniq_byte_array` sorts an array and copies it onto itself, and the classes of the gateway pass
through it whenever the configured ones are added.
-/

namespace ZipGateway.ZipApplication

def qsort (data : Mem) (dataLen : Nat) : Mem :=
  data.write 0 ((data.slice 0 dataLen).mergeSort fun a b => decide (a ≤ b))

structure Uniq where
  data : Mem
  len : Nat
  reads : List Nat

def lookAhead (data : Mem) (s d : Nat) : Nat :=
  if data (s + 1) = data d then s + 2 else s + 1

theorem lt_lookAhead (data : Mem) (s d : Nat) : s < lookAhead data s d := by
  unfold lookAhead
  split <;> omega

def uniqLoop (dataLen : Nat) (data : Mem) (s d : Nat) : Uniq :=
  if lookAhead (data.write d [data s]) s d < dataLen then
    let rest := uniqLoop dataLen (data.write d [data s]) (lookAhead (data.write d [data s]) s d) (d + 1)
    { rest with reads := s :: (s + 1) :: rest.reads }
  else ⟨data.write d [data s], d + 1, [s, s + 1]⟩
termination_by dataLen - s
decreasing_by
  have := lt_lookAhead (data.write d [data s]) s d
  omega

def uniqByteArray (data : Mem) (dataLen : Nat) : Uniq :=
  uniqLoop dataLen (qsort data dataLen) 0 0

def pairs : Bytes → Bytes
  | [] => []
  | [x] => [x]
  | x :: y :: rest => if x = y then x :: pairs rest else x :: pairs (y :: rest)

def EndsInPair : Bytes → Prop
  | [] => False
  | [_] => False
  | x :: y :: rest =>
    if x = y then rest = [] ∨ EndsInPair rest else EndsInPair (y :: rest)

example (l : Bytes) : (pairs l).length ≤ l.length := by
  fun_induction pairs l <;> simp only [List.length_cons, List.length_nil] at * <;> omega

example (x : UInt8) : ¬ EndsInPair [x] := by
  rw [EndsInPair]
  exact id

section Loop

variable {dataLen s d : Nat} {data : Mem}

theorem slice_write_ahead (h : d ≤ s) (b : UInt8) (n : Nat) :
    (data.write d [b]).slice (s + 1) n = data.slice (s + 1) n :=
  Mem.slice_congr fun _ hle _ => Mem.write_of_le (by simp only [List.length_singleton]; omega)

theorem write_self (b : UInt8) : (data.write d [b]) d = b := by
  rw [Mem.write_of_mem le_rfl (by simp)]
  simp

theorem slice_write_next (data : Mem) (d : Nat) (b : UInt8) :
    (data.write d [b]).slice 0 (d + 1) = data.slice 0 d ++ [b] := by
  simpa using Mem.slice_write_append data 0 d [b]

theorem uniqLoop_slice (hd : d ≤ s) (hs : s < dataLen) :
    (uniqLoop dataLen data s d).data.slice 0 (uniqLoop dataLen data s d).len =
      data.slice 0 d ++ pairs (data.slice s (dataLen - s)) := by
  induction hn : dataLen - s using Nat.strong_induction_on generalizing s d data with
  | _ n ih =>
    subst hn
    have hnext : (data.write d [data s]) (s + 1) = data (s + 1) :=
      Mem.write_of_le (by simp only [List.length_singleton]; omega)
    rw [uniqLoop]
    simp only [lookAhead, write_self, hnext]
    rw [Mem.slice_cons data hs]
    by_cases hlast : dataLen ≤ s + 1
    · rw [if_neg (by split <;> omega), show dataLen - (s + 1) = 0 by omega]
      simpa [pairs] using slice_write_next data d (data s)
    · rw [Mem.slice_cons data (s := s + 1) (by omega)]
      by_cases heq : data (s + 1) = data s
      · simp only [heq, if_true, pairs]
        by_cases hend : s + 2 < dataLen
        · rw [if_pos hend, ih (dataLen - (s + 2)) (by omega) (by omega) hend rfl,
            slice_write_next, slice_write_ahead (s := s + 1) (by omega), List.append_assoc]
          rfl
        · rw [if_neg hend, show dataLen - (s + 1 + 1) = 0 by omega]
          simpa [pairs] using slice_write_next data d (data s)
      · have hne : ¬ data s = data (s + 1) := fun h => heq h.symm
        simp only [heq, if_false, pairs, hne]
        rw [if_pos (by omega), ih (dataLen - (s + 1)) (by omega) (by omega) (by omega) rfl,
          slice_write_next, slice_write_ahead hd, ← Mem.slice_cons data (s := s + 1) (by omega),
          List.append_assoc]
        rfl

theorem uniqLoop_reads (hd : d ≤ s) (hs : s < dataLen) : (∀ i ∈ (uniqLoop dataLen data s d).reads, i < dataLen) ↔
      EndsInPair (data.slice s (dataLen - s)) := by
  induction hn : dataLen - s using Nat.strong_induction_on generalizing s d data with
  | _ n ih =>
    subst hn
    have hnext : (data.write d [data s]) (s + 1) = data (s + 1) :=
      Mem.write_of_le (by simp only [List.length_singleton]; omega)
    rw [uniqLoop]
    simp only [lookAhead, write_self, hnext]
    rw [Mem.slice_cons data hs]
    by_cases hlast : dataLen ≤ s + 1
    · rw [if_neg (by split <;> omega), show dataLen - (s + 1) = 0 by omega]
      simp [EndsInPair, hs, hlast]
    · rw [Mem.slice_cons data (s := s + 1) (by omega)]
      by_cases heq : data (s + 1) = data s
      · simp only [heq, if_true, EndsInPair]
        by_cases hend : s + 2 < dataLen
        · have hrest : data.slice (s + 1 + 1) (dataLen - (s + 1 + 1)) ≠ [] := by
            rw [Mem.slice_cons data (s := s + 1 + 1) hend]
            simp
          have hloop := @ih (dataLen - (s + 2)) (by omega) (s + 2) (d + 1) (data.write d [data s]) (by omega) hend rfl
          rw [slice_write_ahead (s := s + 1) (by omega)] at hloop
          rw [if_pos hend, ← hloop]
          simp only [List.mem_cons, forall_eq_or_imp, hrest, false_or]
          exact ⟨fun h => h.2.2, fun h => ⟨hs, by omega, h⟩⟩
        · rw [if_neg hend, show dataLen - (s + 1 + 1) = 0 by omega]
          simp [hs]
          omega
      · have hne : ¬ data s = data (s + 1) := fun h => heq h.symm
        have hloop := @ih (dataLen - (s + 1)) (by omega) (s + 1) (d + 1)
          (data.write d [data s]) (by omega) (by omega) rfl
        rw [slice_write_ahead hd] at hloop
        simp only [heq, if_false, EndsInPair, hne]
        rw [if_pos (by omega), ← Mem.slice_cons data (s := s + 1) (by omega), ← hloop]
        simp only [List.mem_cons, forall_eq_or_imp]
        exact ⟨fun h => h.2.2, fun h => ⟨hs, by omega, h⟩⟩

theorem lt_uniqLoop_len : d < (uniqLoop dataLen data s d).len := by
  fun_induction uniqLoop dataLen data s d with
  | case1 s d _ _ rest ih => exact Nat.lt_of_succ_lt ih
  | case2 => exact Nat.lt_succ_self _

end Loop

theorem pairs_sublist (l : Bytes) : (pairs l).Sublist l := by
  induction l using pairs.induct with
  | case1 => exact List.Sublist.refl _
  | case2 x => exact List.Sublist.refl _
  | case3 x rest ih =>
    rw [pairs, if_pos rfl]
    exact (ih.cons x).cons_cons x
  | case4 x y rest hne ih =>
    rw [pairs, if_neg hne]
    exact ih.cons_cons x

theorem not_mem_of_lt_head {x y : UInt8} {rest : Bytes}
    (h : (x :: y :: rest).Pairwise (· ≤ ·)) (hne : x ≠ y) : x ∉ y :: rest := by
  intro hmem
  have hxy : x ≤ y := (List.pairwise_cons.mp h).1 y List.mem_cons_self
  rcases List.mem_cons.mp hmem with heq | hmem
  · exact hne heq
  · have hyx := (List.pairwise_cons.mp (List.pairwise_cons.mp h).2).1 x hmem
    exact hne (UInt8.le_antisymm hxy hyx)

theorem count_pairs {l : Bytes} (h : l.Pairwise (· ≤ ·)) (v : UInt8) : (pairs l).count v = (l.count v + 1) / 2 := by
  induction l using pairs.induct with
  | case1 => simp [pairs]
  | case2 x =>
    rw [pairs, List.count_singleton]
    split <;> rfl
  | case3 x rest ih =>
    have hrest := ih (List.pairwise_cons.mp (List.pairwise_cons.mp h).2).2
    rw [pairs, if_pos rfl]
    simp only [List.count_cons, hrest]
    split <;> omega
  | case4 x y rest hne ih =>
    have hrest := ih (List.pairwise_cons.mp h).2
    rw [pairs, if_neg hne, List.count_cons, hrest, List.count_cons (b := x)]
    by_cases hv : x = v
    · have hzero : (y :: rest).count v = 0 :=
        List.count_eq_zero.mpr (hv ▸ not_mem_of_lt_head h hne)
      simp [hv, hzero]
    · simp [hv]

theorem endsInPair_iff {l : Bytes} (h : l.Pairwise (· ≤ ·)) :
    EndsInPair l ↔ ∃ v ∈ l, (∀ x ∈ l, x ≤ v) ∧ Even (l.count v) := by
  induction l using pairs.induct with
  | case1 => simp [EndsInPair]
  | case2 x => simp [EndsInPair]
  | case3 x rest ih =>
    have htail := (List.pairwise_cons.mp h).2
    have hle := (List.pairwise_cons.mp htail).1
    rw [EndsInPair, if_pos rfl, ih (List.pairwise_cons.mp htail).2]
    have hcount (v : UInt8) : Even ((x :: x :: rest).count v) ↔ Even (rest.count v) := by
      simp only [List.count_cons]
      split
      · rw [Nat.add_assoc, Nat.even_add]
        simp
      · rfl
    constructor
    · rintro (rfl | ⟨v, hmem, hmax, heven⟩)
      · exact ⟨x, by simp, by simp, by simp⟩
      · refine ⟨v, by simp [hmem], ?_, (hcount v).mpr heven⟩
        simpa using ⟨hle v hmem, hmax⟩
    · rintro ⟨v, hmem, hmax, heven⟩
      rcases rest with - | ⟨z, rest⟩
      · exact .inl rfl
      · have hmax' : ∀ y ∈ z :: rest, y ≤ v := fun y hy => hmax y (by simp [hy])
        refine .inr ⟨v, ?_, hmax', (hcount v).mp heven⟩
        by_cases hv : v = x
        · rw [hv, UInt8.le_antisymm (hle z (by simp)) (hv ▸ hmax' z (by simp))]
          exact List.mem_cons_self
        · exact (List.mem_cons.mp ((List.mem_cons.mp hmem).resolve_left hv)).resolve_left hv
  | case4 x y rest hne ih =>
    have hnot := not_mem_of_lt_head h hne
    have hle := (List.pairwise_cons.mp h).1
    rw [EndsInPair, if_neg hne, ih (List.pairwise_cons.mp h).2]
    constructor
    · rintro ⟨v, hmem, hmax, heven⟩
      refine ⟨v, List.mem_cons_of_mem _ hmem, ?_, ?_⟩
      · exact List.forall_mem_cons.mpr ⟨hle v hmem, hmax⟩
      · have hv : x ≠ v := by
          rintro rfl
          exact hnot hmem
        rwa [List.count_cons_of_ne hv]
    · rintro ⟨v, hmem, hmax, heven⟩
      have hv : v ≠ x := by
        rintro rfl
        exact hne (UInt8.le_antisymm (hle y (by simp)) (hmax y (by simp)))
      refine ⟨v, (List.mem_cons.mp hmem).resolve_left hv, fun z hz => hmax z (by simp [hz]), ?_⟩
      rwa [List.count_cons_of_ne hv.symm] at heven

section Unique

variable (data : Mem) (dataLen : Nat)

def uniqBytes : Bytes :=
  (uniqByteArray data dataLen).data.slice 0 (uniqByteArray data dataLen).len

/-- The result is the set of the values in ascending order, and only the given bytes are read. -/
structure Uniquely : Prop where
  increasing : (uniqBytes data dataLen).Pairwise (· < ·)
  values : ∀ v, v ∈ uniqBytes data dataLen ↔ v ∈ data.slice 0 dataLen
  reads : ∀ i ∈ (uniqByteArray data dataLen).reads, i < dataLen

/-- No value stands in the list more than twice, and the largest one exactly twice. -/
def Twinned (l : Bytes) : Prop :=
  (∀ v, l.count v ≤ 2) ∧ ∃ v ∈ l, (∀ x ∈ l, x ≤ v) ∧ l.count v = 2

def sorted : Bytes :=
  (data.slice 0 dataLen).mergeSort fun a b => decide (a ≤ b)

theorem sorted_perm : (sorted data dataLen).Perm (data.slice 0 dataLen) :=
  List.mergeSort_perm _ _

theorem sorted_sorted : (sorted data dataLen).Pairwise (· ≤ ·) := by
  have h := @List.pairwise_mergeSort UInt8 (fun a b => decide (a ≤ b))
    (fun a b c hab hbc => by simpa using UInt8.le_trans (by simpa using hab) (by simpa using hbc))
    (fun a b => by simpa using UInt8.le_total a b) (data.slice 0 dataLen)
  exact h.imp fun hle => by simpa using hle

theorem qsort_slice : (qsort data dataLen).slice 0 dataLen = sorted data dataLen := by
  have hlen : (sorted data dataLen).length = dataLen := by simp [sorted]
  have h := Mem.slice_write_self data 0 (sorted data dataLen)
  rwa [hlen] at h

theorem uniqBytes_eq (h : 0 < dataLen) : uniqBytes data dataLen = pairs (sorted data dataLen) := by
  have hloop := @uniqLoop_slice dataLen 0 0 (qsort data dataLen) le_rfl h
  rwa [Nat.sub_zero, qsort_slice] at hloop

theorem mem_uniqBytes (h : 0 < dataLen) (v : UInt8) : v ∈ uniqBytes data dataLen ↔ v ∈ data.slice 0 dataLen := by
  rw [uniqBytes_eq data dataLen h, ← List.count_pos_iff, count_pairs (sorted_sorted data dataLen),
    ← (sorted_perm data dataLen).mem_iff, ← List.count_pos_iff]
  omega

theorem uniqBytes_increasing_iff (h : 0 < dataLen) :
    (uniqBytes data dataLen).Pairwise (· < ·) ↔ ∀ v, (data.slice 0 dataLen).count v ≤ 2 := by
  have hsorted := sorted_sorted data dataLen
  have hcount (v : UInt8) : (uniqBytes data dataLen).count v ≤ 1 ↔ (data.slice 0 dataLen).count v ≤ 2 := by
    rw [uniqBytes_eq data dataLen h, count_pairs hsorted, (sorted_perm data dataLen).count_eq]
    omega
  simp only [← hcount, ← List.nodup_iff_count_le_one]
  constructor
  · exact fun hinc => hinc.imp fun hlt => UInt8.ne_of_lt hlt
  · intro hnodup
    have hle := hsorted.sublist (uniqBytes_eq data dataLen h ▸ pairs_sublist _)
    exact (hle.and hnodup).imp fun hlt => UInt8.lt_of_le_of_ne hlt.1 hlt.2

theorem uniqueBytes_reads_iff (h : 0 < dataLen) : (∀ i ∈ (uniqByteArray data dataLen).reads, i < dataLen) ↔
      ∃ v ∈ data.slice 0 dataLen, (∀ x ∈ data.slice 0 dataLen, x ≤ v) ∧ Even ((data.slice 0 dataLen).count v) := by
  have hloop := @uniqLoop_reads dataLen 0 0 (qsort data dataLen) le_rfl h
  rw [Nat.sub_zero, qsort_slice, endsInPair_iff (sorted_sorted data dataLen)] at hloop
  rw [uniqByteArray, hloop]
  simp only [(sorted_perm data dataLen).mem_iff, (sorted_perm data dataLen).count_eq]

theorem not_uniquely_zero : ¬ Uniquely data 0 := by
  intro h
  have hread : 0 < 0 := h.reads 0 (by simp [uniqByteArray, uniqLoop, lookAhead])
  omega

theorem uniquely_iff : Uniquely data dataLen ↔ Twinned (data.slice 0 dataLen) := by
  rcases Nat.eq_zero_or_pos dataLen with rfl | hpos
  · exact iff_of_false (not_uniquely_zero data) (by simp [Twinned])
  constructor
  · intro h
    have hcount := (uniqBytes_increasing_iff data dataLen hpos).mp h.increasing
    obtain ⟨v, hmem, hmax, heven⟩ := (uniqueBytes_reads_iff data dataLen hpos).mp h.reads
    refine ⟨hcount, v, hmem, hmax, ?_⟩
    have hle := hcount v
    have hge := List.count_pos_iff.mpr hmem
    obtain ⟨k, hk⟩ := heven
    omega
  · rintro ⟨hcount, v, hmem, hmax, htwo⟩
    exact
      { increasing := (uniqBytes_increasing_iff data dataLen hpos).mpr hcount
        values := mem_uniqBytes data dataLen hpos
        reads := (uniqueBytes_reads_iff data dataLen hpos).mpr ⟨v, hmem, hmax, htwo ▸ even_two⟩ }

end Unique

/-- `SecureClasses` with its counter, or `IPSecureClasses` with its own. -/
structure ClassArray where
  classes : Mem
  n : UInt8

namespace ClassArray

variable (a : ClassArray) (ccList : Bytes)

def bytes : Bytes := a.classes.slice 0 a.n.toNat

def push (cc : UInt8) : ClassArray := ⟨a.classes.write a.n.toNat [cc], a.n + 1⟩

def add : ClassArray :=
  let all := ccList.foldl push a
  let unique := uniqByteArray all.classes all.n.toNat
  ⟨unique.data, UInt8.ofNat unique.len⟩

/-- Both arrays have 64 bytes; there is room for the list, and for the list once more. -/
def HasRoom : Prop := a.n.toNat + 2 * ccList.length ≤ 64

variable {a ccList}

theorem length_bytes : a.bytes.length = a.n.toNat := Mem.length_slice _ _ _

theorem foldl_push (h : a.n.toNat + ccList.length < 256) : (ccList.foldl push a).bytes = a.bytes ++ ccList ∧
      (ccList.foldl push a).n.toNat = a.n.toNat + ccList.length := by
  induction ccList generalizing a with
  | nil => simp
  | cons cc rest ih =>
    rw [List.length_cons] at h
    have hn : (a.push cc).n.toNat = a.n.toNat + 1 := by
      simp only [push, UInt8.toNat_add, UInt8.reduceToNat]
      omega
    have hbytes : (a.push cc).bytes = a.bytes ++ [cc] := by
      rw [bytes, hn]
      exact slice_write_next _ _ cc
    obtain ⟨hall, hlen⟩ := ih (a := a.push cc) (by omega)
    rw [List.foldl_cons, hall, hlen, hbytes, hn, List.length_cons]
    exact ⟨by simp, by omega⟩

theorem foldl_push_classes (h : a.n.toNat + ccList.length < 256) :
    (ccList.foldl push a).classes.slice 0 (ccList.foldl push a).n.toNat = a.bytes ++ ccList :=
  (foldl_push h).1

theorem length_uniqBytes (data : Mem) (dataLen : Nat) :
    (uniqBytes data dataLen).length = (uniqByteArray data dataLen).len := Mem.length_slice _ _ _

theorem uniqByteArray_len_le (data : Mem) (dataLen : Nat) : (uniqByteArray data dataLen).len ≤ max dataLen 1 := by
  rcases Nat.eq_zero_or_pos dataLen with rfl | hpos
  · simp [uniqByteArray, uniqLoop]
  · have hle := (pairs_sublist (sorted data dataLen)).length_le
    rw [← uniqBytes_eq data dataLen hpos, length_uniqBytes,
      (sorted_perm data dataLen).length_eq, Mem.length_slice] at hle
    omega

/-- Without the byte that an empty array leaves, `add` is `uniq_byte_array` of all the classes. -/
theorem add_bytes (h : a.n.toNat + ccList.length < 256) :
    (a.add ccList).bytes = uniqBytes (ccList.foldl push a).classes (a.n.toNat + ccList.length) ∧
      (a.add ccList).n.toNat ≤ max (a.n.toNat + ccList.length) 1 := by
  have hlen := (foldl_push h).2
  have hle := uniqByteArray_len_le (ccList.foldl push a).classes (a.n.toNat + ccList.length)
  have hn : (a.add ccList).n.toNat = (uniqByteArray (ccList.foldl push a).classes (a.n.toNat + ccList.length)).len := by
    simp only [add, hlen, UInt8.toNat_ofNat']
    exact Nat.mod_eq_of_lt (by omega)
  refine ⟨?_, hn ▸ hle⟩
  rw [bytes, hn, uniqBytes]
  simp only [add, hlen]

theorem add_increasing_iff (h : a.n.toNat + ccList.length < 256) :
    (a.add ccList).bytes.Pairwise (· < ·) ↔ ∀ v, (a.bytes ++ ccList).count v ≤ 2 := by
  rw [(add_bytes h).1, ← foldl_push_classes h, (foldl_push h).2]
  rcases Nat.eq_zero_or_pos (a.n.toNat + ccList.length) with hzero | hpos
  · rw [hzero]
    refine iff_of_true ?_ (by simp)
    simp [uniqBytes, uniqByteArray, uniqLoop, Mem.slice, lookAhead]
  · exact uniqBytes_increasing_iff _ _ hpos

theorem mem_add (h : a.n.toNat + ccList.length < 256) (hpos : 0 < a.n.toNat + ccList.length)
    (v : UInt8) : v ∈ (a.add ccList).bytes ↔ v ∈ a.bytes ∨ v ∈ ccList := by
  rw [(add_bytes h).1, mem_uniqBytes _ _ hpos, ← (foldl_push h).2, foldl_push_classes h, List.mem_append]

/-- What follows from a list without a class given twice, and from no other: no class is there
twice, and giving the list again leaves the array as it is. -/
def Settles (a : ClassArray) (ccList : Bytes) : Prop :=
  (a.add ccList).bytes.Nodup ∧ ((a.add ccList).add ccList).bytes = (a.add ccList).bytes

theorem settles_iff (hroom : a.HasRoom ccList) (h : a.bytes.Nodup) : Settles a ccList ↔ ccList.Nodup := by
  unfold HasRoom at hroom
  have hfirst : a.n.toNat + ccList.length < 256 := by omega
  have hsecond : (a.add ccList).n.toNat + ccList.length < 256 := by
    have := (add_bytes hfirst).2
    omega
  have hmem : ∀ v ∈ ccList, v ∈ (a.add ccList).bytes := fun v hv =>
    (mem_add hfirst (by have := List.length_pos_of_mem hv; omega) v).mpr (.inr hv)
  constructor
  · rintro ⟨hnodup, hagain⟩
    have hle : (a.add ccList).bytes.Pairwise (· ≤ ·) := by
      rw [(add_bytes hfirst).1]
      rcases Nat.eq_zero_or_pos (a.n.toNat + ccList.length) with hzero | hpos
      · simp [hzero, uniqBytes, uniqByteArray, uniqLoop, Mem.slice, lookAhead]
      · rw [uniqBytes_eq _ _ hpos]
        exact (sorted_sorted _ _).sublist (pairs_sublist _)
    have hinc : ((a.add ccList).add ccList).bytes.Pairwise (· < ·) :=
      hagain ▸ (hle.and hnodup).imp fun hlt => UInt8.lt_of_le_of_ne hlt.1 hlt.2
    refine List.nodup_iff_count_le_one.mpr fun v => ?_
    have hcount := (add_increasing_iff hsecond).mp hinc v
    rw [List.count_append] at hcount
    by_cases hv : v ∈ ccList
    · have := List.count_pos_iff.mpr (hmem v hv)
      omega
    · simp [List.count_eq_zero.mpr hv]
  · intro hcc
    have htwice {l : Bytes} (hl : l.Nodup) (v : UInt8) : (l ++ ccList).count v ≤ 2 := by
      have := List.nodup_iff_count_le_one.mp hl v
      have := List.nodup_iff_count_le_one.mp hcc v
      rw [List.count_append]
      omega
    have hinc := (add_increasing_iff hfirst).mpr (htwice h)
    have hnodup : (a.add ccList).bytes.Nodup := hinc.imp fun hlt => UInt8.ne_of_lt hlt
    have hagain := (add_increasing_iff hsecond).mpr (htwice hnodup)
    refine ⟨hnodup, ?_⟩
    rcases Nat.eq_zero_or_pos ((a.add ccList).n.toNat + ccList.length) with hzero | hpos
    · have hlen : 0 < (a.add ccList).n.toNat := by
        rw [← length_bytes, (add_bytes hfirst).1, length_uniqBytes]
        exact lt_uniqLoop_len
      omega
    · have hperm := (List.perm_ext_iff_of_nodup (hagain.imp fun hlt => UInt8.ne_of_lt hlt)
        hnodup).mpr fun v => (mem_add hsecond hpos v).trans ⟨fun hv => hv.elim id (hmem v), .inl⟩
      exact hperm.eq_of_pairwise (fun v w _ _ hlt hgt => absurd hgt (UInt8.lt_asymm hlt)) hagain hinc

end ClassArray

structure Gateway where
  secure : ClassArray
  ipSecure : ClassArray

namespace Gateway

def addSecureUnsocDestCCsToGW (g : Gateway) (ccList : Bytes) : Gateway :=
  ⟨g.secure.add ccList, g.ipSecure.add ccList⟩

/-- No class stands in one of the arrays twice. -/
def Distinct (g : Gateway) : Prop := g.secure.bytes.Nodup ∧ g.ipSecure.bytes.Nodup

def Settles (g : Gateway) (ccList : Bytes) : Prop :=
  g.secure.Settles ccList ∧ g.ipSecure.Settles ccList

def HasRoom (g : Gateway) (ccList : Bytes) : Prop :=
  g.secure.HasRoom ccList ∧ g.ipSecure.HasRoom ccList

/-- The gateway after any number of calls, each with a list without duplicates that has room. -/
inductive Configured : Gateway → Prop
  | start {g : Gateway} (h : g.Distinct) : Configured g
  | add {g : Gateway} {ccList : Bytes} (h : Configured g) (hroom : g.HasRoom ccList)
      (hcc : ccList.Nodup) : Configured (g.addSecureUnsocDestCCsToGW ccList)

theorem settles_iff {g : Gateway} {ccList : Bytes} (h : g.Distinct) (hroom : g.HasRoom ccList) :
    g.Settles ccList ↔ ccList.Nodup :=
  (and_congr (ClassArray.settles_iff hroom.1 h.1) (ClassArray.settles_iff hroom.2 h.2)).trans (and_self_iff)

theorem Configured.distinct {g : Gateway} (h : Configured g) : g.Distinct := by
  induction h with
  | start h => exact h
  | add _ hroom hcc ih =>
    have hsettles := (settles_iff ih hroom).mpr hcc
    exact ⟨hsettles.1.1, hsettles.2.1⟩

end Gateway

/-- `uniq_byte_array` keeps its promise for exactly the lists whose values stand there at most
twice, the largest one twice; the arrays of the gateway keep theirs over every run of calls with
lists without duplicates, and a call with another list breaks it. -/
theorem classes_unique_iff (data : Mem) (dataLen : Nat) : (Uniquely data dataLen ↔ Twinned (data.slice 0 dataLen)) ∧
      ∀ g, Gateway.Configured g → g.Distinct ∧ ∀ ccList, g.HasRoom ccList → (g.Settles ccList ↔ ccList.Nodup) :=
  ⟨uniquely_iff data dataLen, fun _ h => ⟨h.distinct, fun _ hroom => Gateway.settles_iff h.distinct hroom⟩⟩

def sampleGateway : Gateway :=
  ⟨⟨Mem.ofBytes [0x98, 0x9F], 2⟩, ⟨Mem.ofBytes [0x20], 1⟩⟩

theorem sampleGateway_settles : (sampleGateway.addSecureUnsocDestCCsToGW [0x25, 0x98]).Settles [0x32, 0x20] := by
  have hconfigured : (sampleGateway.addSecureUnsocDestCCsToGW [0x25, 0x98]).Configured :=
    .add (.start ⟨by decide, by decide⟩) ⟨show 2 + 4 ≤ 64 by decide, show 1 + 4 ≤ 64 by decide⟩ (by decide)
  have hroom (a : ClassArray) (ha : a.n.toNat ≤ 2) : (a.add [0x25, 0x98]).HasRoom [0x32, 0x20] := by
    have hn := (@ClassArray.add_bytes a [0x25, 0x98] (show _ + 2 < 256 by omega)).2
    change _ ≤ max (_ + 2) 1 at hn
    show _ + 4 ≤ 64
    omega
  exact (((classes_unique_iff (Mem.ofBytes []) 0).2 _ hconfigured).2 _
    ⟨hroom _ (by decide), hroom _ (by decide)⟩).mpr (by decide)

theorem classes_unique_not : ¬ ∀ data dataLen, Uniquely data dataLen := by
  intro h
  have hcount := (uniqBytes_increasing_iff (Mem.ofBytes [0x5E, 0x5E, 0x5E]) 3 (by decide)).mp (h _ _).increasing 0x5E
  revert hcount
  decide

end ZipGateway.ZipApplication

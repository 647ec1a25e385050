import Mathlib.Tactic.Common

/-!
# Byte memories

A buffer is the memory behind a pointer, one byte per offset, without an end: what lies past the
bytes somebody wrote is whatever was there. `write` is a copy into it, `slice` a copy out of it.
-/

abbrev Bytes := List UInt8

abbrev Mem := Nat → UInt8

namespace Mem

def write (m : Mem) (off : Nat) (data : Bytes) : Mem :=
  fun i => if off ≤ i ∧ i < off + data.length then data.getD (i - off) 0 else m i

def slice (m : Mem) (off n : Nat) : Bytes :=
  (List.range n).map fun i => m (off + i)

def ofBytes (data : Bytes) : Mem :=
  fun i => data.getD i 0

variable (m : Mem)

@[simp]
theorem length_slice (off n : Nat) : (m.slice off n).length = n := by
  simp [slice]

@[simp]
theorem slice_zero (off : Nat) : m.slice off 0 = [] := rfl

theorem getElem_slice (off n i : Nat) (hi : i < (m.slice off n).length) : (m.slice off n)[i] = m (off + i) := by
  simp [slice]

theorem getElem?_slice {m : Mem} {off n i : Nat} (hi : i < n) : (m.slice off n)[i]? = some (m (off + i)) := by
  simp [slice, hi]

theorem slice_add (off n k : Nat) : m.slice off (n + k) = m.slice off n ++ m.slice (off + n) k := by
  simp [slice, List.range_add, Nat.add_assoc]

theorem slice_cons {s n : Nat} (h : s < n) : m.slice s (n - s) = m s :: m.slice (s + 1) (n - (s + 1)) := by
  obtain ⟨k, rfl⟩ := Nat.exists_eq_add_of_lt h
  rw [show s + k + 1 - s = 1 + k by omega, show s + k + 1 - (s + 1) = k by omega, slice_add]
  rfl

theorem slice_congr {m m' : Mem} {off n : Nat} (h : ∀ i, off ≤ i → i < off + n → m i = m' i) :
    m.slice off n = m'.slice off n := by
  refine List.map_congr_left fun i hi => h _ (by omega) ?_
  have := List.mem_range.mp hi
  omega

theorem write_of_lt {m : Mem} {off i : Nat} (data : Bytes) (h : i < off) : m.write off data i = m i := by
  simp only [write]
  rw [if_neg (by omega)]

theorem write_of_le {m : Mem} {off i : Nat} {data : Bytes} (h : off + data.length ≤ i) : m.write off data i = m i := by
  simp only [write]
  rw [if_neg (by omega)]

theorem write_of_mem {m : Mem} {off i : Nat} {data : Bytes} (hle : off ≤ i)
    (hlt : i < off + data.length) : m.write off data i = data.getD (i - off) 0 := by
  simp only [write]
  rw [if_pos ⟨hle, hlt⟩]

@[simp]
theorem slice_write_self (off : Nat) (data : Bytes) : (m.write off data).slice off data.length = data := by
  apply List.ext_getElem (by simp)
  intro i hi hi'
  rw [getElem_slice, write_of_mem (by omega) (by omega)]
  simp [hi']

theorem write_slice_self (off n : Nat) : m.write off (m.slice off n) = m := by
  funext i
  by_cases hmem : off ≤ i ∧ i < off + n
  · rw [write_of_mem hmem.1 (by rw [length_slice]; exact hmem.2), List.getD_eq_getElem?_getD,
      getElem?_slice (by omega), Option.getD_some, Nat.add_sub_cancel' hmem.1]
  · rcases Nat.lt_or_ge i off with hlt | hge
    · exact write_of_lt _ hlt
    · exact write_of_le (by rw [length_slice]; omega)

theorem slice_write_of_disjoint {m : Mem} {off n at_ : Nat} {data : Bytes}
    (h : off + n ≤ at_ ∨ at_ + data.length ≤ off) :
    (m.write at_ data).slice off n = m.slice off n := by
  apply slice_congr
  intro i hle hlt
  rcases h with h | h
  · exact write_of_lt data (by omega)
  · exact write_of_le (by omega)

theorem slice_write_append (off n : Nat) (data : Bytes) :
    (m.write (off + n) data).slice off (n + data.length) = m.slice off n ++ data := by
  rw [slice_add, slice_write_of_disjoint (.inl (Nat.le_refl _)), slice_write_self]

theorem slice_write_byte (off n at_ : Nat) (b : UInt8) :
    (m.write (off + at_) [b]).slice off n = (m.slice off n).set at_ b := by
  apply List.ext_getElem (by simp)
  intro i hi hi'
  rw [getElem_slice, List.getElem_set, getElem_slice]
  by_cases h : at_ = i
  · subst h
    rw [write_of_mem (Nat.le_refl _) (by simp)]
    simp
  · rw [if_neg h]
    rcases Nat.lt_or_gt_of_ne h with hlt | hgt
    · exact write_of_le (by simp; omega)
    · exact write_of_lt _ (by omega)

theorem slice_zero_write_byte (n at_ : Nat) (b : UInt8) : (m.write at_ [b]).slice 0 n = (m.slice 0 n).set at_ b := by
  have hwrite := slice_write_byte m 0 n at_ b
  rwa [Nat.zero_add] at hwrite

theorem drop_slice (off n k : Nat) : (m.slice off (k + n)).drop k = m.slice (off + k) n := by
  rw [slice_add, List.drop_left' (by simp)]

theorem take_slice (off n k : Nat) : (m.slice off (k + n)).take k = m.slice off k := by
  rw [slice_add, List.take_left' (by simp)]

theorem eq_of_slice {m : Mem} {off n i : Nat} {data : Bytes} {b : UInt8}
    (h : m.slice off n = data) (hb : data[i]? = some b) : m (off + i) = b := by
  have hi : i < n := by
    have := (List.getElem?_eq_some_iff.mp hb).1
    rw [← h, length_slice] at this
    exact this
  rw [← h, getElem?_slice hi] at hb
  exact Option.some.inj hb

theorem eq_of_slice_zero {m : Mem} {n i : Nat} {data : Bytes} {b : UInt8}
    (h : m.slice 0 n = data) (hb : data[i]? = some b) : m i = b := by
  have hbyte := eq_of_slice h hb
  rwa [Nat.zero_add] at hbyte

theorem slice_shift (off n : Nat) : slice (fun i => m (off + i)) 0 n = m.slice off n := by
  simp [slice]

theorem slice_ofBytes_append (front data back : Bytes) :
    (ofBytes (front ++ data ++ back)).slice front.length data.length = data := by
  apply List.ext_getElem (by simp)
  intro i hi hi'
  rw [getElem_slice, ofBytes, List.getD_eq_getElem?_getD, List.append_assoc,
    List.getElem?_append_right (by omega), Nat.add_sub_cancel_left, List.getElem?_append_left hi']
  simp [hi']

theorem ofBytes_append (front back : Bytes) (b : UInt8) : ofBytes (front ++ [b] ++ back) front.length = b := by
  simp [ofBytes]

theorem slice_ofBytes (data : Bytes) : (ofBytes data).slice 0 data.length = data := by
  apply List.ext_getElem (by simp)
  intro i hi hi'
  simp [getElem_slice, ofBytes, hi']

end Mem

import ZipGateway.Lib.Memory

/-!
# Chains of options

An option is a type, the length of its value in one byte, and the value. The lemmas are about options
that stand one behind the other in memory, with something behind the last of them.
-/

structure Tlv where
  type : UInt8
  value : Bytes
  short : value.length < 256
deriving DecidableEq

namespace Tlv

def size (o : Tlv) : Nat :=
  o.value.length + 2

def bytes (o : Tlv) : Bytes :=
  o.type :: UInt8.ofNat o.value.length :: o.value

def chain (opts : List Tlv) : Bytes :=
  opts.flatMap bytes

def read (m : Mem) (p : Nat) : Tlv where
  type := m p
  value := m.slice (p + 2) (m (p + 1)).toNat
  short := by
    rw [Mem.length_slice]
    exact (m (p + 1)).toNat_lt

variable {m : Mem} {p n : Nat} {o : Tlv} {opts : List Tlv} {rest : Bytes}

@[simp]
theorem chain_nil : chain [] = [] := rfl

theorem chain_cons : chain (o :: opts) = o.bytes ++ chain opts := rfl

theorem length_bytes (o : Tlv) : o.bytes.length = o.size := rfl

theorem size_read (m : Mem) (p : Nat) : (read m p).size = (m (p + 1)).toNat + 2 := by
  rw [size, read, Mem.length_slice]

theorem two_le_size (o : Tlv) : 2 ≤ o.size :=
  Nat.le_add_left _ _

theorem slice_size (m : Mem) (p : Nat) (o : Tlv) :
    m.slice p o.size = m p :: m (p + 1) :: m.slice (p + 2) o.value.length := by
  have hsplit : o.size = 1 + (1 + o.value.length) := by
    unfold size
    omega
  rw [hsplit, Mem.slice_add, Mem.slice_add]
  rfl

theorem bytes_read (m : Mem) (p : Nat) : (read m p).bytes = m.slice p (read m p).size := by
  rw [slice_size, bytes]
  have hlength : (read m p).value.length = (m (p + 1)).toNat := Mem.length_slice _ _ _
  rw [hlength, UInt8.ofNat_toNat]
  rfl

theorem read_eq (h : o.bytes = m.slice p o.size) : read m p = o := by
  rw [slice_size, bytes] at h
  obtain ⟨htype, hlength, hvalue⟩ : o.type = m p ∧ UInt8.ofNat o.value.length = m (p + 1) ∧
      o.value = m.slice (p + 2) o.value.length := by
    simpa using h
  have hsame : (m (p + 1)).toNat = o.value.length := by
    rw [← hlength]
    exact UInt8.toNat_ofNat_of_lt' o.short
  obtain ⟨type, value, short⟩ := o
  rw [read, Tlv.mk.injEq, hsame]
  exact ⟨htype.symm, hvalue.symm⟩

theorem chain_cons_append : chain (o :: opts) ++ rest = m.slice p n ↔
      read m p = o ∧ o.size ≤ n ∧ chain opts ++ rest = m.slice (p + o.size) (n - o.size) := by
  rw [chain_cons, List.append_assoc]
  constructor
  · intro h
    have hle : o.size ≤ n := by
      have hlength := congrArg List.length h
      rw [List.length_append, length_bytes, Mem.length_slice] at hlength
      omega
    have hsplit := Mem.slice_add m p o.size (n - o.size)
    rw [Nat.add_sub_cancel' hle] at hsplit
    rw [hsplit] at h
    obtain ⟨hhead, htail⟩ := List.append_inj h (by rw [length_bytes, Mem.length_slice])
    exact ⟨read_eq hhead, hle, htail⟩
  · rintro ⟨rfl, hle, h⟩
    have hsplit := Mem.slice_add m p (read m p).size (n - (read m p).size)
    rw [Nat.add_sub_cancel' hle] at hsplit
    rw [hsplit, h, bytes_read]

end Tlv

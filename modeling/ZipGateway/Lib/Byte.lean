import Mathlib.Logic.Basic

/-!
# Bytes as sets of bits

A statement about every byte is decided by trying them all. A byte is also the set of its bits, and
`Byte.bits` lists the bytes with a single one.
-/

set_option maxRecDepth 8000

namespace Byte

instance decidableForall {p : UInt8 → Prop} [DecidablePred p] : Decidable (∀ x, p x) :=
  decidable_of_iff (∀ n : Fin 256, p (UInt8.ofFin n)) ⟨fun h x => h x.toFin, fun h n => h (UInt8.ofFin n)⟩

/-- What is said of the members of a list is tried on these, and not on every value of a finite type. -/
instance (priority := 1100) decidableForallMem {α : Type*} {p : α → Prop} [DecidablePred p] (l : List α) :
    Decidable (∀ x ∈ l, p x) :=
  List.decidableBAll p l

def bits : List UInt8 :=
  [0x01, 0x02, 0x04, 0x08, 0x10, 0x20, 0x40, 0x80]

theorem mem_bits_of_single : ∀ x : UInt8, x ≠ 0 → x &&& (x - 1) = 0 → x ∈ bits := by
  decide

theorem bits_disjoint : ∀ x ∈ bits, ∀ y ∈ bits, x ≠ y → x &&& y = 0 := by
  decide

theorem and_or (x y z : UInt8) : x &&& (y ||| z) = x &&& y ||| x &&& z := by
  rw [← UInt8.toBitVec_inj]
  exact BitVec.and_or_distrib_left

theorem and_or_eq_zero_iff (x y z : UInt8) : x &&& (y ||| z) = 0 ↔ x &&& y = 0 ∧ x &&& z = 0 := by
  rw [and_or]
  exact UInt8.or_eq_zero_iff

end Byte

import ZipGateway.Lib.Memory

/-!
# Bit maps

A set of small numbers kept as the bits of a byte memory: number `i` is bit `i % 8` of byte `i / 8`.
-/

namespace Bitmap

def Marked (mask : Mem) (i : Nat) : Prop :=
  mask (i / 8) &&& (1 <<< UInt8.ofNat (i % 8)) ≠ 0

instance (mask : Mem) (i : Nat) : Decidable (Marked mask i) :=
  inferInstanceAs (Decidable (_ ≠ _))

def mark (mask : Mem) (i : Nat) : Mem :=
  Function.update mask (i / 8) (mask (i / 8) ||| (1 <<< UInt8.ofNat (i % 8)))

theorem not_marked_zero (i : Nat) : ¬ Marked (fun _ => 0) i := by
  simp [Marked]

theorem or_bit_and_bit (x : UInt8) {j k : Nat} (hj : j < 8) (hk : k < 8) :
    (x ||| (1 <<< UInt8.ofNat j)) &&& (1 <<< UInt8.ofNat k) ≠ 0 ↔ j = k ∨ x &&& (1 <<< UInt8.ofNat k) ≠ 0 := by
  have hbits : ∀ (j k : Fin 8), (1 <<< UInt8.ofNat j.val) &&& (1 <<< UInt8.ofNat k.val) =
      if j = k then (1 <<< UInt8.ofNat k.val : UInt8) else 0 := by
    decide
  have hbit := hbits ⟨j, hj⟩ ⟨k, hk⟩
  have hne : ∀ k : Fin 8, (1 <<< UInt8.ofNat k.val : UInt8) ≠ 0 := by decide
  have hor : (x ||| (1 <<< UInt8.ofNat j)) &&& (1 <<< UInt8.ofNat k) = 0 ↔ x &&& (1 <<< UInt8.ofNat k) = 0 ∧
        (1 <<< UInt8.ofNat j : UInt8) &&& (1 <<< UInt8.ofNat k) = 0 := by
    rw [← UInt8.toBitVec_inj, ← UInt8.toBitVec_inj, ← UInt8.toBitVec_inj, UInt8.toBitVec_and,
      UInt8.toBitVec_or, BitVec.and_or_distrib_right]
    exact BitVec.or_eq_zero_iff
  rw [Ne, hor, hbit]
  by_cases heq : j = k
  · subst heq
    have := hne ⟨j, hj⟩
    simp_all
  · simp [heq]

theorem marked_mark (mask : Mem) (i k : Nat) : Marked (mark mask i) k ↔ i = k ∨ Marked mask k := by
  have hi : i % 8 < 8 := Nat.mod_lt _ (by omega)
  have hk : k % 8 < 8 := Nat.mod_lt _ (by omega)
  unfold Marked mark
  by_cases hbyte : k / 8 = i / 8
  · rw [hbyte, Function.update_self, or_bit_and_bit _ hi hk]
    have hiff : i % 8 = k % 8 ↔ i = k := by omega
    rw [hiff]
  · rw [Function.update_of_ne hbyte]
    have hne : i ≠ k := fun h => hbyte (h ▸ rfl)
    simp [hne]

end Bitmap

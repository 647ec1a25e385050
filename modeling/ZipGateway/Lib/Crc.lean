import ZipGateway.Lib.Memory

/-!
# Cyclic redundancy checks

A bitwise CRC with a shift register of `w` bits, most significant bit first. A message followed by its
own check sequence leaves the register at zero, whatever the polynomial and the initial value are, and
a burst of errors that is no longer than the register never goes unseen.
-/

namespace Crc

variable {w : Nat}

def bit (poly crc : BitVec w) (b : Bool) : BitVec w :=
  if b ^^ crc.msb then (crc <<< 1) ^^^ poly else crc <<< 1

def byte (poly crc : BitVec w) (b : UInt8) : BitVec w :=
  [7, 6, 5, 4, 3, 2, 1, 0].foldl (fun crc i => bit poly crc (b.toBitVec.getLsbD i)) crc

def bytes (poly crc : BitVec w) (data : Bytes) : BitVec w :=
  data.foldl (byte poly) crc

def split (crc : BitVec 16) : Bytes :=
  [UInt8.ofBitVec (crc.extractLsb' 8 8), UInt8.ofBitVec (crc.extractLsb' 0 8)]

/-! ### The residue -/

theorem bit_msb (poly crc : BitVec w) : bit poly crc crc.msb = crc <<< 1 := by
  simp [bit]

theorem byte_shiftLeft (poly crc : BitVec 16) {k : Nat} (hk : k ≤ 8) :
    byte poly (crc <<< k) (UInt8.ofBitVec (crc.extractLsb' (8 - k) 8)) = crc <<< (k + 8) := by
  have hbit (n i : Nat) (hi : n + i = 7) : bit poly (crc <<< (k + n))
      ((crc.extractLsb' (8 - k) 8).getLsbD i) = crc <<< (k + n + 1) := by
    have hmsb : (crc.extractLsb' (8 - k) 8).getLsbD i = (crc <<< (k + n)).msb := by
      rw [BitVec.msb_eq_getLsbD_last, BitVec.getLsbD_shiftLeft, BitVec.getLsbD_extractLsb',
        show 8 - k + i = 16 - 1 - (k + n) by omega]
      simp [show i < 8 by omega, show ¬15 < k + n by omega]
    rw [hmsb, bit_msb, ← BitVec.shiftLeft_add]
  have hzero := hbit 0 7 rfl
  rw [Nat.add_zero] at hzero
  simp only [byte, List.foldl_cons, List.foldl_nil, hzero, hbit 1 6, hbit 2 5, hbit 3 4, hbit 4 3,
    hbit 5 2, hbit 6 1, hbit 7 0]

theorem bytes_split (poly crc : BitVec 16) : bytes poly crc (split crc) = 0 := by
  have hhigh := byte_shiftLeft poly crc (Nat.zero_le 8)
  have hlow := byte_shiftLeft poly crc (Nat.le_refl 8)
  rw [BitVec.shiftLeft_zero] at hhigh
  calc bytes poly crc (split crc)
    _ = byte poly (crc <<< 8) (UInt8.ofBitVec (crc.extractLsb' 0 8)) := congrArg (byte poly · _) hhigh
    _ = crc <<< 16 := hlow
    _ = 0 := BitVec.shiftLeft_eq_zero (Nat.le_refl 16)

/-! ### Bursts -/

section Odd

variable {poly : BitVec w} (hodd : poly.getLsbD 0 = true)
include hodd

theorem low_of_bit {crc crc' : BitVec w} {b b' : Bool} {n : Nat} (hn : n < w)
    (h : ∀ i ≤ n, (bit poly crc b).getLsbD i = (bit poly crc' b').getLsbD i) :
    (b ^^ crc.msb) = (b' ^^ crc'.msb) ∧ ∀ i < n, crc.getLsbD i = crc'.getLsbD i := by
  have hzero (crc : BitVec w) (b : Bool) : (bit poly crc b).getLsbD 0 = (b ^^ crc.msb) := by
    cases hb : b ^^ crc.msb <;> simp [bit, hb, hodd, Nat.zero_lt_of_lt hn]
  have hfed : (b ^^ crc.msb) = (b' ^^ crc'.msb) := by
    rw [← hzero, ← hzero]
    exact h 0 (Nat.zero_le n)
  refine ⟨hfed, fun i hi => ?_⟩
  have hnext := h (i + 1) hi
  have hlt : i + 1 < w := by omega
  rw [bit, bit, hfed] at hnext
  split at hnext <;> simpa [hlt, ← BitVec.getLsbD_eq_getElem] using hnext

theorem low_of_foldl {xs ys : List Bool} (hlen : xs.length = ys.length) {crc crc' : BitVec w}
    (h : xs.foldl (bit poly) crc = ys.foldl (bit poly) crc') :
    ∀ i, i + xs.length < w → crc.getLsbD i = crc'.getLsbD i := by
  induction xs generalizing ys crc crc' with
  | nil =>
    rw [List.eq_nil_of_length_eq_zero hlen.symm] at h
    exact fun i _ => congrArg (·.getLsbD i) h
  | cons x xs ih =>
    obtain ⟨y, ys, rfl⟩ := List.exists_cons_of_length_eq_add_one hlen.symm
    intro i hi
    rw [List.length_cons] at hi
    have hlow := ih (Nat.succ.inj hlen) h
    exact (low_of_bit hodd (n := i + 1) (by omega) fun j hj => hlow j (by omega)).2 i (Nat.lt_succ_self i)

theorem foldl_bit_inj {xs ys : List Bool} (hlen : xs.length = ys.length) (hshort : xs.length ≤ w)
    {crc : BitVec w} (h : xs.foldl (bit poly) crc = ys.foldl (bit poly) crc) : xs = ys := by
  induction xs generalizing ys crc with
  | nil => exact (List.eq_nil_of_length_eq_zero hlen.symm).symm
  | cons x xs ih =>
    obtain ⟨y, ys, rfl⟩ := List.exists_cons_of_length_eq_add_one hlen.symm
    rw [List.length_cons] at hshort
    have hlow := low_of_foldl hodd (Nat.succ.inj hlen) h
    have hfed := (low_of_bit hodd (Nat.zero_lt_of_lt hshort) fun i hi => hlow i (by omega)).1
    obtain rfl : x = y := by simpa using hfed
    rw [ih (Nat.succ.inj hlen) (Nat.le_of_succ_le hshort) h]

theorem bit_inj {crc crc' : BitVec w} {b : Bool} (h : bit poly crc b = bit poly crc' b) : crc = crc' := by
  rcases Nat.eq_zero_or_pos w with rfl | hw
  · exact Subsingleton.elim crc crc'
  obtain ⟨hmsb, hlow⟩ := low_of_bit hodd (Nat.sub_one_lt_of_lt hw) fun i _ => congrArg (·.getLsbD i) h
  apply BitVec.eq_of_getLsbD_eq
  intro i hi
  rcases Nat.lt_or_ge i (w - 1) with hlt | hge
  · exact hlow i hlt
  · rw [BitVec.msb_eq_getLsbD_last, BitVec.msb_eq_getLsbD_last, Bool.xor_right_inj] at hmsb
    rwa [show i = w - 1 by omega]

end Odd

def bits (b : UInt8) : List Bool :=
  [7, 6, 5, 4, 3, 2, 1, 0].map b.toBitVec.getLsbD

theorem bytes_eq_foldl (poly crc : BitVec w) (data : Bytes) :
    bytes poly crc data = (data.flatMap bits).foldl (bit poly) crc := by
  rw [List.foldl_flatMap]
  rfl

theorem flatMap_bits_inj {x y : Bytes} (h : x.flatMap bits = y.flatMap bits) : x = y := by
  induction x generalizing y with
  | nil =>
    cases y with
    | nil => rfl
    | cons b y => cases h
  | cons a x ih =>
    cases y with
    | nil => cases h
    | cons b y =>
      obtain ⟨hhead, htail⟩ := List.append_inj h rfl
      have hbyte : a.toBitVec = b.toBitVec := BitVec.eq_of_getLsbD_eq fun i hi =>
        List.map_inj_left.mp hhead i (by simp; omega)
      rw [UInt8.toBitVec_inj.mp hbyte, ih htail]

/-- Two messages that differ in one stretch that is no longer than the register have different check
sequences, where the polynomial has its lowest term. -/
theorem eq_of_burst {poly crc : BitVec w} (hodd : poly.getLsbD 0 = true) {before x y after : Bytes}
    (hlen : x.length = y.length) (hshort : 8 * x.length ≤ w)
    (h : bytes poly crc (before ++ x ++ after) = bytes poly crc (before ++ y ++ after)) : x = y := by
  have hbits (data : Bytes) : (data.flatMap bits).length = 8 * data.length := by
    simp [List.length_flatMap, bits, List.map_const', Nat.mul_comm]
  have hafter {crc crc' : BitVec w} (heq : bytes poly crc after = bytes poly crc' after) : crc = crc' := by
    rw [bytes_eq_foldl, bytes_eq_foldl] at heq
    generalize after.flatMap bits = bs at heq
    induction bs generalizing crc crc' with
    | nil => exact heq
    | cons b bs ih => exact bit_inj hodd (ih heq)
  have hburst : bytes poly (bytes poly crc before) x = bytes poly (bytes poly crc before) y :=
    hafter (by simpa only [bytes, List.foldl_append] using h)
  rw [bytes_eq_foldl _ (bytes poly crc before), bytes_eq_foldl _ (bytes poly crc before)] at hburst
  exact flatMap_bits_inj (foldl_bit_inj hodd (by rw [hbits, hbits, hlen]) (by rwa [hbits]) hburst)

end Crc

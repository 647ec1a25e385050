import ZipGateway.Lib.Byte
import ZipGateway.Lib.Cmac
import ZipGateway.Security0.Context

/-!
# AES-CMAC

`aes_cmac.c`, over any block cipher. The number of blocks is kept in a byte, so that a message of 4081 bytes or
more is not authenticated as a whole.
-/

set_option maxRecDepth 8000

namespace ZipGateway.AesCmac

def constZero : Bytes := List.replicate 16 0

def constRb : Bytes := List.replicate 15 0 ++ [0x87]

def xor128 (a b : Bytes) : Bytes :=
  BigEndian.xor a b

/-- The bytes from the last to the first, with the bit that is carried into the next. -/
def leftshiftOnebit : Bytes → Bytes × UInt8
  | [] => ([], 0)
  | b :: rest =>
    let (output, overflow) := leftshiftOnebit rest
    ((b <<< 1 ||| overflow) :: output, if b &&& 0x80 ≠ 0 then 1 else 0)

def shifted (L : Bytes) : Bytes :=
  if L.getD 0 0 &&& 0x80 = 0 then (leftshiftOnebit L).1 else xor128 (leftshiftOnebit L).1 constRb

def generateSubkey (aes : BlockCipher) (key : Bytes) : Bytes × Bytes :=
  let K1 := shifted (aes.encrypt key constZero)
  (K1, shifted K1)

def padding (lastb : Mem) (off length : Nat) : Bytes :=
  (List.range 16).map fun j => if j < length then lastb (off + j) else if j = length then 0x80 else 0

/-- `X` after `i` rounds. -/
def rounds (aes : BlockCipher) (key : Bytes) (message : Mem) : Nat → Bytes
  | 0 => constZero
  | i + 1 => aes.encrypt key (xor128 (rounds aes key message i) (message.slice (16 * i) 16))

def aesCmacCalculate (aes : BlockCipher) (key : Bytes) (message : Mem) (messageLength : Nat) : Bytes :=
  let (K1, K2) := generateSubkey aes key
  let rounded := (messageLength + 15) / 16 % 256
  let n := if rounded = 0 then 1 else rounded
  let flag := rounded ≠ 0 ∧ messageLength % 16 = 0
  let mLast :=
    if flag then xor128 (message.slice (16 * (n - 1)) 16) K1
    else xor128 (padding message (16 * (n - 1)) (messageLength % 16)) K2
  aes.encrypt key (xor128 (rounds aes key message (n - 1)) mLast)

/-! ### Blocks as numbers -/

open Cmac BigEndian

def cipher (aes : BlockCipher) (key : Bytes) (x : BitVec 128) : BitVec 128 :=
  word (aes.encrypt key (bytes x))

variable (aes : BlockCipher) (key : Bytes) (message : Mem) {a : Bytes}

theorem word_encrypt (h : a.length = 16) : word (aes.encrypt key a) = cipher aes key (word a) := by
  rw [cipher, bytes_word h]

theorem carry_shift (x c : UInt8) (hc : c.toNat ≤ 1) :
    (x <<< 1 ||| c).toNat + (if x &&& 0x80 ≠ 0 then 1 else 0 : UInt8).toNat * 256 = 2 * x.toNat + c.toNat := by
  have hbit : c = 0 ∨ c = 1 := by
    rcases Nat.le_one_iff_eq_zero_or_eq_one.mp hc with h | h
    · exact .inl (UInt8.toNat_inj.mp h)
    · exact .inr (UInt8.toNat_inj.mp h)
  clear hc
  revert x
  rcases hbit with rfl | rfl <;> decide

theorem leftshiftOnebit_spec (a : Bytes) : (leftshiftOnebit a).1.length = a.length ∧ (leftshiftOnebit a).2.toNat ≤ 1 ∧
    BigEndian.value (leftshiftOnebit a).1 + (leftshiftOnebit a).2.toNat * 256 ^ a.length = 2 * BigEndian.value a := by
  induction a with
  | nil => exact ⟨rfl, by decide, rfl⟩
  | cons x a ih =>
    obtain ⟨hlen, hle, hvalue⟩ := ih
    have hcarry := carry_shift x (leftshiftOnebit a).2 hle
    refine ⟨by simp [leftshiftOnebit, hlen], by simp only [leftshiftOnebit]; split <;> decide, ?_⟩
    simp only [leftshiftOnebit, BigEndian.value, List.length_cons, Nat.pow_succ', hlen]
    generalize (x <<< 1 ||| (leftshiftOnebit a).2).toNat = high at hcarry ⊢
    generalize (if x &&& 0x80 ≠ 0 then 1 else 0 : UInt8).toNat = out at hcarry ⊢
    calc high * 256 ^ a.length + BigEndian.value (leftshiftOnebit a).1 + out * (256 * 256 ^ a.length)
        = (high + out * 256) * 256 ^ a.length + BigEndian.value (leftshiftOnebit a).1 := by ring
      _ = 2 * x.toNat * 256 ^ a.length + (BigEndian.value (leftshiftOnebit a).1 +
            (leftshiftOnebit a).2.toNat * 256 ^ a.length) := by rw [hcarry]; ring
      _ = 2 * (x.toNat * 256 ^ a.length + BigEndian.value a) := by rw [hvalue]; ring

theorem length_leftshiftOnebit (h : a.length = 16) : (leftshiftOnebit a).1.length = 16 :=
  (leftshiftOnebit_spec a).1.trans h

theorem word_leftshiftOnebit (h : a.length = 16) : word (leftshiftOnebit a).1 = word a <<< 1 := by
  have hvalue := (leftshiftOnebit_spec a).2.2
  rw [h] at hvalue
  apply BitVec.eq_of_toNat_eq
  rw [BitVec.toNat_shiftLeft, word, word, BitVec.toNat_ofNat, BitVec.toNat_ofNat, Nat.shiftLeft_eq]
  omega

theorem length_shifted (h : a.length = 16) : (shifted a).length = 16 := by
  unfold shifted
  split
  · exact length_leftshiftOnebit h
  · simp [xor128, length_leftshiftOnebit h, constRb]

theorem and_msb (x : UInt8) : x &&& 0x80 = 0 ↔ ¬128 ≤ x.toNat := by
  revert x
  decide

/-- A subkey is the double of the block before it. -/
theorem word_shifted (h : a.length = 16) : word (shifted a) = double (word a) := by
  obtain ⟨x, rest, rfl, hrest⟩ := List.length_eq_succ_iff.mp h
  rw [shifted, double, msb_word x hrest]
  by_cases hx : 128 ≤ x.toNat
  · rw [if_neg (by simpa [and_msb] using hx), if_pos (by simpa using hx), xor128,
      word_xor (by simp [length_leftshiftOnebit h, constRb]), word_leftshiftOnebit h]
    rfl
  · rw [if_pos (by simpa [and_msb] using hx), if_neg (by simpa using hx), word_leftshiftOnebit h]

theorem padding_eq (off : Nat) {length : Nat} (h : length < 16) :
    padding message off length = message.slice off length ++ 0x80 :: List.replicate (15 - length) 0 := by
  apply List.ext_getElem
  · simp [padding]
    omega
  intro i hi _
  have hi : i < 16 := by simpa [padding] using hi
  simp only [padding, List.getElem_map, List.getElem_range]
  rcases Nat.lt_trichotomy i length with hlt | rfl | hgt
  · rw [if_pos hlt, List.getElem_append_left (by simpa using hlt), Mem.getElem_slice]
  · rw [if_neg (lt_irrefl i), if_pos rfl, List.getElem_append_right (by simp)]
    simp
  · rw [if_neg (by omega), if_neg (by omega), List.getElem_append_right (by simpa using hgt.le)]
    rw [List.getElem_cons]
    simp [show i - length ≠ 0 by omega]

theorem length_rounds (i : Nat) : (rounds aes key message i).length = 16 := by
  cases i with
  | zero => rfl
  | succ i => exact aes.length_encrypt ..

/-- The rounds are steps of the chain, as long as more than one block is left. -/
theorem chain_rounds (len i : Nat) (h : i = 0 ∨ 16 * i < len) :
    chain (cipher aes key) (word (rounds aes key message i)) (message.slice (16 * i) (len - 16 * i)) =
      cmac (cipher aes key) (message.slice 0 len) := by
  induction i with
  | zero => rfl
  | succ i ih =>
    have hlt : 16 * (i + 1) < len := by omega
    rw [← ih (.inr (by omega))]
    conv_rhs => rw [chain, if_pos (by rw [Mem.length_slice]; omega)]
    congr 1
    · rw [rounds, xor128, word_encrypt _ _ (by simp [length_rounds]), word_xor (by simp [length_rounds])]
      rw [show len - 16 * i = 16 + (len - 16 * (i + 1)) by omega, Mem.take_slice]
    · rw [show len - 16 * i = 16 + (len - 16 * (i + 1)) by omega, Mem.drop_slice]
      rfl

/-- How much of a message of the length is authenticated. -/
def covered (messageLength : Nat) : Nat :=
  if messageLength % 4096 ≤ 4080 then messageLength % 4096 else messageLength % 16

/-- The last block as the code has it, of `k` bytes that begin at `off`. -/
theorem mLast_spec (off : Nat) {k : Nat} (hk : k ≤ 16) (mLast : Bytes)
    (h : mLast = if k = 16 then xor128 (message.slice off 16) (generateSubkey aes key).1
      else xor128 (padding message off k) (generateSubkey aes key).2) :
    mLast.length = 16 ∧ word mLast = lastBlock (cipher aes key) (message.slice off k) := by
  have hL : (aes.encrypt key constZero).length = 16 := aes.length_encrypt ..
  have hzero : word constZero = 0 := rfl
  have hk1 : word (generateSubkey aes key).1 = double (cipher aes key 0) := by
    rw [generateSubkey, word_shifted hL, word_encrypt _ _ rfl, hzero]
  have hk2 : word (generateSubkey aes key).2 = double (double (cipher aes key 0)) := by
    rw [generateSubkey, word_shifted (length_shifted hL), ← hk1]
    rfl
  have hlen1 : (generateSubkey aes key).1.length = 16 := length_shifted hL
  have hlen2 : (generateSubkey aes key).2.length = 16 := length_shifted hlen1
  rw [lastBlock, Mem.length_slice, h]
  by_cases hfull : k = 16
  · rw [if_pos hfull, if_pos hfull, xor128, word_xor (by simp [hlen1]), hk1, hfull]
    exact ⟨by simp [hlen1], rfl⟩
  · rw [if_neg hfull, if_neg hfull, xor128, word_xor (by simp [padding, hlen2]), hk2]
    exact ⟨by simp [padding, hlen2], by rw [padding_eq _ _ (by omega)]⟩

theorem aesCmacCalculate_eq (messageLength : Nat) : aesCmacCalculate aes key message messageLength =
    bytes (cmac (cipher aes key) (message.slice 0 (covered messageLength))) := by
  unfold aesCmacCalculate
  rw [← word_inj (aes.length_encrypt ..) (length_bytes _), word_bytes]
  generalize hn : (if (messageLength + 15) / 16 % 256 = 0 then 1 else (messageLength + 15) / 16 % 256) = n
  obtain ⟨k, hcovered, hk, hflag, hrest, hlast⟩ : ∃ k, covered messageLength = 16 * (n - 1) + k ∧ k ≤ 16 ∧
      ((messageLength + 15) / 16 % 256 ≠ 0 ∧ messageLength % 16 = 0 ↔ k = 16) ∧
      (k ≠ 16 → messageLength % 16 = k) ∧ (n - 1 = 0 ∨ 0 < k) := by
    refine ⟨covered messageLength - 16 * (n - 1), ?_⟩
    unfold covered
    split at hn <;> split <;> omega
  generalize hmLast : (if (messageLength + 15) / 16 % 256 ≠ 0 ∧ messageLength % 16 = 0 then _ else _) = mLast
  obtain ⟨hlength, hword⟩ := mLast_spec aes key message (16 * (n - 1)) hk mLast <| by
    rw [← hmLast]
    simp only [hflag]
    split
    · rfl
    · rw [hrest ‹_›]
  have hchain := chain_rounds aes key message (covered messageLength) (n - 1) (by omega)
  rw [← hchain, hcovered, Nat.add_sub_cancel_left, chain, if_neg (by rw [Mem.length_slice]; omega), ← hword,
    word_encrypt _ _ (by rw [xor128, length_xor ((length_rounds ..).trans hlength.symm), hlength]),
    xor128, word_xor ((length_rounds ..).trans hlength.symm)]

/-- The MAC is the CMAC of the part of the message that is covered: of all of it exactly up to 4080 bytes. -/
theorem aes_cmac_covers (messageLength : Nat) : aesCmacCalculate aes key message messageLength =
      bytes (cmac (cipher aes key) (message.slice 0 (covered messageLength))) ∧
    (covered messageLength = messageLength ↔ messageLength ≤ 4080) :=
  ⟨aesCmacCalculate_eq aes key message messageLength, by unfold covered; split <;> omega⟩

end ZipGateway.AesCmac

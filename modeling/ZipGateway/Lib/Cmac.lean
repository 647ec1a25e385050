import ZipGateway.Lib.BigEndian

/-!
# CMAC and the CTR_DRBG

CMAC as NIST SP 800-38B defines it, over a block cipher with blocks of 128 bits, key derivation in feedback mode,
and the CTR_DRBG of SP 800-90A without a derivation function.
-/

namespace Cmac

/-- The number that sixteen bytes stand for. -/
def word (bytes : List UInt8) : BitVec 128 :=
  BitVec.ofNat 128 (BigEndian.value bytes)

def bytes (x : BitVec 128) : List UInt8 :=
  BigEndian.octets 16 x.toNat

/-- The product with `x` in the field of 2¹²⁸ elements. -/
def double (x : BitVec 128) : BitVec 128 :=
  if x.msb then x <<< 1 ^^^ 0x87 else x <<< 1

variable (ciph : BitVec 128 → BitVec 128)

/-- The last block, complete or not, with its subkey. -/
def lastBlock (m : List UInt8) : BitVec 128 :=
  let k1 := double (ciph 0)
  if m.length = 16 then word m ^^^ k1
  else word (m ++ 0x80 :: List.replicate (15 - m.length) 0) ^^^ double k1

/-- The chain from `x` on over what is left of the message. -/
def chain (x : BitVec 128) (m : List UInt8) : BitVec 128 :=
  if 16 < m.length then chain (ciph (x ^^^ word (m.take 16))) (m.drop 16)
  else ciph (x ^^^ lastBlock ciph m)
termination_by m.length

def cmac (m : List UInt8) : BitVec 128 :=
  chain ciph 0 m

/-- The blocks of a key that is derived in feedback mode: each is the MAC of the one before it, the constant and
its own number. -/
def feedback (constant : List UInt8) (first : List UInt8) : Nat → List UInt8
  | 0 => first
  | i + 1 => bytes (cmac ciph (feedback constant first i ++ constant ++ [UInt8.ofNat (i + 1)]))

variable {a b : List UInt8}

theorem word_xor (h : a.length = b.length) : word (BigEndian.xor a b) = word a ^^^ word b := by
  rw [word, BigEndian.value_xor h]
  exact BitVec.ofNat_xor ..

@[simp]
theorem length_bytes (x : BitVec 128) : (bytes x).length = 16 := by simp [bytes]

@[simp]
theorem word_bytes (x : BitVec 128) : word (bytes x) = x := by
  rw [word, bytes, BigEndian.value_octets]
  exact BitVec.eq_of_toNat_eq (by simpa using Nat.mod_eq_of_lt x.isLt)

theorem bytes_word (h : a.length = 16) : bytes (word a) = a := by
  have hlt := BigEndian.value_lt a
  rw [h] at hlt
  rw [bytes, word, BitVec.toNat_ofNat, Nat.mod_eq_of_lt (by simpa using hlt), ← h]
  exact BigEndian.octets_value a

/-- Blocks are their numbers. -/
theorem word_inj (ha : a.length = 16) (hb : b.length = 16) : word a = word b ↔ a = b :=
  ⟨fun h => by rw [← bytes_word ha, h, bytes_word hb], congrArg word⟩

theorem msb_word (x : UInt8) (h : a.length = 15) : (word (x :: a)).msb = decide (128 ≤ x.toNat) := by
  have hlt := BigEndian.value_lt (x :: a)
  have hrest := BigEndian.value_lt a
  rw [BitVec.msb_eq_decide, word, BitVec.toNat_ofNat, Nat.mod_eq_of_lt (by simpa [h] using hlt)]
  rw [BigEndian.value]
  rw [h] at hrest ⊢
  simp only [decide_eq_decide]
  omega

end Cmac

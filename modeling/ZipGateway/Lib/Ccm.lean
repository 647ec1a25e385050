import ZipGateway.Lib.Endian

/-!
# The formatting of CCM

The blocks over which CCM computes its MAC, as NIST SP 800-38C prescribes them in A.2: the block of the flags, the
nonce and the length of the payload, the associated data behind its own length, and the payload. The last two are
filled up with zeros to whole blocks.
-/

namespace Ccm

def block (data : Bytes) (i : Nat) : Bytes :=
  let b := (data.drop (16 * i)).take 16
  b ++ List.replicate (16 - b.length) 0

def blocks (data : Bytes) : List Bytes :=
  (List.range ((data.length + 15) / 16)).map (block data)

def octets (n x : Nat) : Bytes :=
  (Endian.toBytes n x).reverse

def flags (q t adataLen : Nat) : UInt8 :=
  UInt8.ofNat ((if adataLen = 0 then 0 else 64) + 8 * ((t - 2) / 2) + (q - 1))

def firstBlock (q t : Nat) (nonce : Bytes) (adataLen payloadLen : Nat) : Bytes :=
  flags q t adataLen :: nonce ++ octets q payloadLen

def encodeLength (a : Nat) : Bytes :=
  if a < 2 ^ 16 - 2 ^ 8 then octets 2 a
  else if a < 2 ^ 32 then 0xff :: 0xfe :: octets 4 a
  else 0xff :: 0xff :: octets 8 a

def adataBlocks (adata : Bytes) : List Bytes :=
  if adata.length = 0 then [] else blocks (encodeLength adata.length ++ adata)

/-- `B_0, …, B_r` for a nonce, the associated data and the payload. -/
def format (q t : Nat) (nonce adata payload : Bytes) : List Bytes :=
  firstBlock q t nonce adata.length payload.length :: (adataBlocks adata ++ blocks payload)

def xor (block block' : Bytes) : Bytes :=
  List.zipWith (· ^^^ ·) block block'

def cbcMac (ciph : Bytes → Bytes) : List Bytes → Bytes
  | [] => []
  | b :: bs => bs.foldl (fun y b => ciph (xor b y)) (ciph b)

section Blocks

variable {data : Bytes}

theorem block_drop (i : Nat) : block (data.drop 16) i = block data (i + 1) := by
  have hdrop : (data.drop 16).drop (16 * i) = data.drop (16 * (i + 1)) := by
    rw [List.drop_drop]
    congr 1
    omega
  rw [block, block, hdrop]

theorem blocks_nil : blocks [] = [] := rfl

theorem blocks_cons (h : data ≠ []) : blocks data = block data 0 :: blocks (data.drop 16) := by
  have hpos := List.length_pos_iff.mpr h
  have hcount : (data.length + 15) / 16 = ((data.drop 16).length + 15) / 16 + 1 := by
    rw [List.length_drop]
    omega
  rw [blocks, hcount, List.range_succ_eq_map, List.map_cons, List.map_map]
  congr 1
  apply List.map_congr_left
  intro i _
  exact (block_drop i).symm

theorem block_zero_of_length (h : data.length = 16) : block data 0 = data := by
  rw [block]
  simp [h, List.take_of_length_le]

theorem block_zero_of_lt (h : data.length < 16) : block data 0 = data ++ List.replicate (16 - data.length) 0 := by
  have htake : data.take 16 = data := List.take_of_length_le (Nat.le_of_lt h)
  rw [block]
  simp only [Nat.mul_zero, List.drop_zero, htake]

theorem block_zero_append {front : Bytes} (back : Bytes) (h : 16 ≤ front.length) :
    block (front ++ back) 0 = block front 0 := by
  have htake : (front ++ back).take 16 = front.take 16 := List.take_append_of_le_length h
  rw [block, block]
  simp only [Nat.mul_zero, List.drop_zero, htake]

theorem getElem?_block_zero {i : Nat} (hi : i < 16) (hdata : i < data.length) : (block data 0)[i]? = data[i]? := by
  have hlen : i < ((data.drop (16 * 0)).take 16).length := by
    rw [Nat.mul_zero, List.drop_zero, List.length_take]
    omega
  rw [block, List.getElem?_append_left hlen, Nat.mul_zero, List.drop_zero, List.getElem?_take_of_lt hi]

end Blocks

theorem cbcMac_append (ciph : Bytes → Bytes) {bs : List Bytes} (h : bs ≠ []) (b : Bytes) :
    cbcMac ciph (bs ++ [b]) = ciph (xor b (cbcMac ciph bs)) := by
  cases bs with
  | nil => exact absurd rfl h
  | cons first bs =>
    simp only [cbcMac, List.cons_append, List.foldl_append, List.foldl_cons, List.foldl_nil]

end Ccm

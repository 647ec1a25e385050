import ZipGateway.Lib.Ccm
import ZipGateway.Security0.Context

/-!
# CCM

`ccm.c` over any block cipher, with the predefined `q`, `n` and `t`. The two blocks that the functions pass around
are memories; each byte of them is written before it is read. The blocks that went into the MAC are kept beside
them, the code has no such list. An `aad_len` is below 2^31, so that the signed lengths made of it are not
negative; the branch for what does not fit a `uint32_t` is never taken.
-/

namespace ZipGateway

def qDef : Nat := 2
def nDef : Nat := 15 - qDef
def tDef : Nat := 8
def blockSize : Nat := 16
def b0Aad : UInt8 := 0x40

def convertToOctetString (len q : Nat) : Bytes :=
  List.replicate (q - 2) (0 : UInt8) ++ [UInt8.ofNat ((len &&& 0xff00) >>> 8), UInt8.ofNat (len &&& 0xff)]

def formatB0 (t len : Nat) (nonce : Mem) : Bytes :=
  ((0 : UInt8) ||| b0Aad ||| UInt8.ofNat ((((t - 2) / 2) &&& 0x7) <<< 3) ||| UInt8.ofNat ((qDef - 1) &&& 0x7)) ::
    nonce.slice 0 nDef ++ convertToOctetString len qDef

def bitXor (block next : Mem) (off size : Nat) : Mem :=
  fun i => if off ≤ i ∧ i < off + size then block (i - off) ^^^ next i else next i

def ciphBlock (aes : BlockCipher) (key : Bytes) (block : Mem) : Mem :=
  block.write 0 (aes.encrypt key (block.slice 0 blockSize))

structure CcmMac where
  block0 : Mem
  block1 : Mem
  absorbed : List Bytes

namespace CcmMac

def start (aes : BlockCipher) (key b0 : Bytes) : CcmMac where
  block0 := ciphBlock aes key (Mem.write (fun _ => 0) 0 b0)
  block1 := fun _ => 0
  absorbed := [b0]

/-- `bit_xor(blocks[1], blocks[0], BLOCK_SIZE)` and `ciph_block(blocks[0], key)`. -/
def absorb (aes : BlockCipher) (key : Bytes) (m : CcmMac) : CcmMac :=
  { m with
    block0 := ciphBlock aes key (bitXor m.block1 m.block0 0 blockSize)
    absorbed := m.absorbed ++ [m.block1.slice 0 blockSize] }

def load (m : CcmMac) (off : Nat) (data : Bytes) : CcmMac :=
  { m with block1 := m.block1.write off data }

end CcmMac

def noBlocks (len : Nat) : Nat :=
  len / blockSize + if len % blockSize ≠ 0 then 1 else 0

def formatLoop (aes : BlockCipher) (key : Bytes) (src : Mem) (len : Nat) : Nat → Nat → Nat → CcmMac → CcmMac
  | 0, _, _, m => m
  | rounds + 1, i, offset, m =>
    if i = noBlocks len - 1 ∧ len % blockSize ≠ 0 then
      ((m.load 0 (src.slice offset (len % blockSize))).load (len % blockSize)
        (List.replicate (blockSize - len % blockSize) 0)).absorb aes key
    else
      formatLoop aes key src len rounds (i + 1) (offset + blockSize)
        ((m.load 0 (src.slice offset blockSize)).absorb aes key)

/-- The length of the associated data, as it is written into the first block: a length below 65280 in one byte,
and a longer one as 65536. -/
def aadHeader (aadLen : Nat) : Bytes :=
  if aadLen < 65280 then [0, UInt8.ofNat aadLen] else [0xff, 0xfe, 0, 1, 0, 0]

/-- `format_aad` behind the choice of the encoding: the associated data starts at `aadStart` of the first block. -/
def formatAadFrom (aes : BlockCipher) (key : Bytes) (m : CcmMac) (aad : Mem) (aadLen inFirst aadStart : Nat) :
    CcmMac :=
  let m := (m.load 0 (aadHeader aadLen)).load aadStart (aad.slice 0 (min aadLen inFirst))
  if aadLen < inFirst then
    (m.load (aadStart + aadLen) (List.replicate (inFirst - aadLen) 0)).absorb aes key
  else if inFirst < aadLen then
    formatLoop aes key aad (aadLen - inFirst) (noBlocks (aadLen - inFirst)) 0 inFirst (m.absorb aes key)
  else m.absorb aes key

def formatAad (aes : BlockCipher) (key : Bytes) (m : CcmMac) (aad : Mem) (aadLen : Nat) : CcmMac :=
  if aadLen < 65280 then formatAadFrom aes key m aad aadLen 14 2 else formatAadFrom aes key m aad aadLen 10 6

def formatPayloadBlock (aes : BlockCipher) (key : Bytes) (m : CcmMac) (P : Mem) (len : Nat) : CcmMac :=
  formatLoop aes key P len (noBlocks len) 0 0 m

def ccmMac (aes : BlockCipher) (key : Bytes) (nonce aad : Mem) (aadLen : Nat) (P : Mem) (len : Nat) : CcmMac :=
  let m := CcmMac.start aes key (formatB0 tDef len nonce)
  formatPayloadBlock aes key (formatAad aes key m aad aadLen) P len

inductive CcmMode where
  | encrypt
  | decrypt

structure CcmCtr where
  data : Mem
  block : Mem
  length : Nat

def ctrBlock (nonce : Mem) (i : Nat) : Mem :=
  ((Mem.write (fun _ => 0) 0 [0 ||| UInt8.ofNat ((qDef - 1) &&& 0x7)]).write 1 (nonce.slice 0 nDef)).write 14
    [UInt8.ofNat ((i &&& 0xff00) >>> 8), UInt8.ofNat (i &&& 0xff)]

/-- One round of the loop; the last takes more from `length` than there is. -/
def ctrRound (aes : BlockCipher) (key : Bytes) (nonce : Mem) (macLen : Nat) (mode : CcmMode) (i : Nat)
    (c : CcmCtr) : CcmCtr :=
  let ctr := ciphBlock aes key (ctrBlock nonce i)
  if i = 0 then
    match mode with
    | .encrypt => { c with block := bitXor ctr c.block 0 macLen }
    | .decrypt => { c with block := c.block.write 0 (ctr.slice 0 blockSize) }
  else
    { c with
      data := bitXor ctr c.data ((i - 1) * blockSize) (if blockSize ≤ c.length then blockSize else c.length)
      length := (c.length + 65536 - blockSize) % 65536 }

def ctrLoop (aes : BlockCipher) (key : Bytes) (nonce : Mem) (macLen : Nat) (mode : CcmMode) :
    Nat → Nat → CcmCtr → CcmCtr
  | 0, _, c => c
  | rounds + 1, i, c =>
    ctrLoop aes key nonce macLen mode rounds (i + 1) (ctrRound aes key nonce macLen mode i c)

def encryptOrDecrypt (aes : BlockCipher) (key : Bytes) (nonce : Mem) (mode : CcmMode) (data : Mem)
    (dataLen numCtrBlks : Nat) (block : Mem) : CcmCtr :=
  ctrLoop aes key nonce tDef mode numCtrBlks 0 { data := data, block := block, length := dataLen }

structure CcmResult where
  ret : Nat
  buf : Mem
  macBlocks : List Bytes

def ccmEncryptAndAuth (aes : BlockCipher) (key : Bytes) (nonce aad : Mem) (aadLen : Nat) (plainCiphertext : Mem)
    (len : Nat) : CcmResult :=
  let counterBlocks := (len / blockSize + 1 + if len % blockSize ≠ 0 then 1 else 0) % 65536
  let m := ccmMac aes key nonce aad aadLen plainCiphertext len
  let c := encryptOrDecrypt aes key nonce .encrypt plainCiphertext len counterBlocks m.block0
  { ret := len + tDef
    buf := c.data.write len (c.block.slice 0 tDef)
    macBlocks := m.absorbed }

def ccmDecryptAndAuth (aes : BlockCipher) (key : Bytes) (nonce aad : Mem) (aadLen : Nat) (cipherPlaintext : Mem)
    (ciphertextLen : Nat) : CcmResult :=
  if ciphertextLen < tDef then { ret := 0, buf := cipherPlaintext, macBlocks := [] }
  else
    let len := (ciphertextLen - tDef) % 65536
    let numCounterBlocks :=
      ((ciphertextLen - tDef) / blockSize + 1 + if (ciphertextLen - tDef) % blockSize ≠ 0 then 1 else 0) % 65536
    let c := encryptOrDecrypt aes key nonce .decrypt cipherPlaintext len numCounterBlocks fun _ => 0
    let mac := bitXor (fun i => c.data (ciphertextLen - tDef + i)) c.block 0 tDef
    let m := ccmMac aes key nonce aad aadLen c.data len
    { ret := if m.block0.slice 0 tDef = mac.slice 0 tDef then len else 0
      buf := c.data
      macBlocks := m.absorbed }

end ZipGateway

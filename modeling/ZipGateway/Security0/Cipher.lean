import ZipGateway.Security0.Context

/-!
# OFB and the authentication tag

`aes_ofb` and `aes_cbc_mac` of `Security_Scheme0.c`, over any block cipher. The key and the
initialization vector, which `aes_set_key_tpt` stores in two globals, are arguments here.
-/

namespace ZipGateway

def BlockCipher.ofbBlock (aes : BlockCipher) (key iv : Bytes) : Nat → Bytes
  | 0 => aes.encrypt key iv
  | n + 1 => aes.encrypt key (aes.ofbBlock key iv n)

def aesOfb (aes : BlockCipher) (key iv data : Bytes) : Bytes :=
  data.mapIdx fun i b => b ^^^ (aes.ofbBlock key iv (i / 16)).getD (i % 16) 0

def macByte (aes : BlockCipher) (key : Bytes) (mac : Bytes) (i : Nat) (b : UInt8) : Bytes :=
  let mac := mac.set (i % 16) (mac.getD (i % 16) 0 ^^^ b)
  if i % 16 = 15 then aes.encrypt key mac else mac

def macLoop (aes : BlockCipher) (key : Bytes) : Bytes → Nat → Bytes → Bytes
  | mac, _, [] => mac
  | mac, i, b :: data => macLoop aes key (macByte aes key mac i b) (i + 1) data

def aesCbcMac (aes : BlockCipher) (key iv data : Bytes) : Bytes :=
  let mac := macLoop aes key (aes.encrypt key iv) 0 data
  if data.length % 16 ≠ 0 then aes.encrypt key mac else mac

def sec0SetKey (aes : BlockCipher) (netkey : Bytes) : S0Keys where
  authkey := aes.encrypt netkey (List.replicate 16 0x55)
  enckey := aes.encrypt netkey (List.replicate 16 0xAA)
  authkeyz := aes.encrypt (List.replicate 16 0) (List.replicate 16 0x55)
  enckeyz := aes.encrypt (List.replicate 16 0) (List.replicate 16 0xAA)

variable (aes : BlockCipher) (key iv : Bytes)

variable (data : Bytes)

@[simp]
theorem length_aesOfb : (aesOfb aes key iv data).length = data.length := by
  simp [aesOfb]

theorem aesOfb_aesOfb : aesOfb aes key iv (aesOfb aes key iv data) = data := by
  apply List.ext_getElem (by simp)
  intro i hi hi'
  simp only [aesOfb, List.getElem_mapIdx, UInt8.xor_assoc, UInt8.xor_self, UInt8.xor_zero]

theorem length_macLoop (mac : Bytes) (i : Nat) (data : Bytes) (h : mac.length = 16) :
    (macLoop aes key mac i data).length = 16 := by
  induction data generalizing mac i with
  | nil => exact h
  | cons b data ih =>
    apply ih
    unfold macByte
    dsimp only
    split
    · exact aes.length_encrypt _ _
    · simpa using h

theorem length_aesCbcMac : (aesCbcMac aes key iv data).length = 16 := by
  unfold aesCbcMac
  dsimp only
  split
  · exact aes.length_encrypt _ _
  · exact length_macLoop _ _ _ _ _ (aes.length_encrypt _ _)

end ZipGateway

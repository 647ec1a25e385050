import ZipGateway.S2.Ccm

/-!
# The round trip of CCM, and its formatting

Decryption undoes encryption for any block cipher: the counter blocks are the same, so the second pass gives the
plaintext back, and the MAC over it is the one that was encrypted. The blocks of the MAC are those of the standard
only for associated data of 1 to 255 bytes. Without any the code formats a block of zeros, and the length of a
longer one is not written as two bytes.
-/

namespace ZipGateway

variable (src : Mem)

section Blocks

variable (aes : BlockCipher) (key : Bytes)

theorem slice_ciphBlock (block : Mem) :
    (ciphBlock aes key block).slice 0 blockSize = aes.encrypt key (block.slice 0 blockSize) := by
  have hself := Mem.slice_write_self block 0 (aes.encrypt key (block.slice 0 blockSize))
  rwa [aes.length_encrypt] at hself

theorem slice_bitXor (block next : Mem) (n : Nat) :
    (bitXor block next 0 n).slice 0 n = Ccm.xor (block.slice 0 n) (next.slice 0 n) := by
  apply List.ext_getElem
  · simp [Ccm.xor]
  · intro i hi hi'
    have hlt : 0 ≤ 0 + i ∧ 0 + i < 0 + n := by simpa using hi
    simp only [Ccm.xor, List.getElem_zipWith, Mem.getElem_slice, bitXor]
    rw [if_pos hlt, Nat.sub_zero]

theorem block_slice (base : Nat) {len i : Nat} (h : 16 * i ≤ len) : Ccm.block (src.slice base len) i =
      src.slice (base + 16 * i) (min 16 (len - 16 * i)) ++ List.replicate (16 - min 16 (len - 16 * i)) 0 := by
  have hdrop : (src.slice base len).drop (16 * i) = src.slice (base + 16 * i) (len - 16 * i) := by
    have hdrop := Mem.drop_slice src base (len - 16 * i) (16 * i)
    rwa [Nat.add_sub_cancel' h] at hdrop
  have htake : (src.slice (base + 16 * i) (len - 16 * i)).take 16 =
      src.slice (base + 16 * i) (min 16 (len - 16 * i)) := by
    by_cases hfull : 16 ≤ len - 16 * i
    · have htake := Mem.take_slice src (base + 16 * i) (len - 16 * i - 16) 16
      rw [Nat.add_sub_cancel' hfull] at htake
      rw [htake, Nat.min_eq_left hfull]
    · rw [Nat.min_eq_right (by omega), List.take_of_length_le]
      rw [Mem.length_slice]
      omega
  rw [Ccm.block, hdrop, htake, Mem.length_slice]

theorem noBlocks_eq (len : Nat) : noBlocks len = (len + 15) / 16 := by
  unfold noBlocks blockSize
  split <;> omega

end Blocks

namespace CcmMac

variable (aes : BlockCipher) (key : Bytes)

theorem slice_load_load (m : CcmMac) (front back : Bytes) :
    ((m.load 0 front).load front.length back).block1.slice 0 (front.length + back.length) = front ++ back := by
  have happend := Mem.slice_write_append (m.block1.write 0 front) 0 front.length back
  rw [Nat.zero_add, Mem.slice_write_self] at happend
  exact happend

theorem slice_load (m : CcmMac) (data : Bytes) : (m.load 0 data).block1.slice 0 data.length = data :=
  Mem.slice_write_self m.block1 0 data

structure Computes (m : CcmMac) : Prop where
  mac : m.block0.slice 0 blockSize = Ccm.cbcMac (aes.encrypt key) m.absorbed
  absorbed : m.absorbed ≠ []

variable {aes key} {m : CcmMac}

theorem computes_start {b0 : Bytes} (h : b0.length = blockSize) : (start aes key b0).Computes aes key := by
  refine ⟨?_, List.cons_ne_nil b0 []⟩
  have hself := Mem.slice_write_self (fun _ => 0) 0 b0
  rw [h] at hself
  change (ciphBlock aes key (Mem.write (fun _ => 0) 0 b0)).slice 0 blockSize = aes.encrypt key b0
  rw [slice_ciphBlock, hself]

theorem Computes.load (h : m.Computes aes key) (off : Nat) (data : Bytes) : (m.load off data).Computes aes key :=
  ⟨h.mac, h.absorbed⟩

theorem Computes.absorb (h : m.Computes aes key) : (m.absorb aes key).Computes aes key := by
  refine ⟨?_, List.append_ne_nil_of_right_ne_nil _ (List.cons_ne_nil _ [])⟩
  change (ciphBlock aes key (bitXor m.block1 m.block0 0 blockSize)).slice 0 blockSize =
    Ccm.cbcMac (aes.encrypt key) (m.absorbed ++ [m.block1.slice 0 blockSize])
  rw [slice_ciphBlock, slice_bitXor, h.mac, Ccm.cbcMac_append (aes.encrypt key) h.absorbed]

theorem computes_formatLoop (len rounds i offset : Nat) (h : m.Computes aes key) :
    (formatLoop aes key src len rounds i offset m).Computes aes key := by
  induction rounds generalizing i offset m with
  | zero => exact h
  | succ rounds ih =>
    rw [formatLoop]
    split
    · exact ((h.load _ _).load _ _).absorb
    · exact ih _ _ (h.load _ _).absorb

theorem computes_formatAadFrom (aad : Mem) (aadLen inFirst aadStart : Nat) (h : m.Computes aes key) :
    (formatAadFrom aes key m aad aadLen inFirst aadStart).Computes aes key := by
  have hloaded := (h.load 0 (aadHeader aadLen)).load aadStart (aad.slice 0 (min aadLen inFirst))
  unfold formatAadFrom
  dsimp only
  split
  · exact (hloaded.load _ _).absorb
  split
  · exact computes_formatLoop _ _ _ _ _ hloaded.absorb
  · exact hloaded.absorb

theorem computes_formatAad (aad : Mem) (aadLen : Nat) (h : m.Computes aes key) :
    (formatAad aes key m aad aadLen).Computes aes key := by
  unfold formatAad
  split <;> exact computes_formatAadFrom _ _ _ _ h

/-! ## The blocks that are absorbed -/

theorem absorbed_formatLoop (base len rounds i : Nat) (m : CcmMac) (h : i + rounds = noBlocks len) :
    (formatLoop aes key src len rounds i (base + 16 * i) m).absorbed =
      m.absorbed ++ (List.range' i rounds).map (Ccm.block (src.slice base len)) := by
  induction rounds generalizing i m with
  | zero =>
    rw [List.range'_zero, List.map_nil, List.append_nil]
    rfl
  | succ rounds ih =>
    rw [noBlocks_eq] at h
    have hstart : 16 * i ≤ len := by omega
    have hblock := block_slice src base hstart
    rw [formatLoop, noBlocks_eq]
    split
    next hlast =>
      obtain ⟨hi, hmod⟩ := hlast
      unfold blockSize at hmod
      have hrounds : rounds = 0 := by omega
      have hrest : min 16 (len - 16 * i) = len % 16 := by omega
      have hfill : len % 16 + (16 - len % 16) = 16 := by omega
      have hloaded := slice_load_load m (src.slice (base + 16 * i) (len % 16)) (List.replicate (16 - len % 16) 0)
      rw [Mem.length_slice, List.length_replicate, hfill] at hloaded
      rw [hrest] at hblock
      subst hrounds
      rw [List.range'_one, List.map_cons, List.map_nil, hblock, ← hloaded]
      rfl
    next hlast =>
      have hfull : 16 ≤ len - 16 * i := by
        unfold blockSize at hlast
        omega
      rw [Nat.min_eq_left hfull, Nat.sub_self, List.replicate_zero, List.append_nil] at hblock
      have hloaded := slice_load m (src.slice (base + 16 * i) 16)
      rw [Mem.length_slice] at hloaded
      have hoffset : base + 16 * i + blockSize = base + 16 * (i + 1) := by
        unfold blockSize
        omega
      rw [hoffset, ih (i + 1) _ (by rw [noBlocks_eq]; omega), List.range'_succ, List.map_cons, hblock]
      change m.absorbed ++ [(m.load 0 (src.slice (base + 16 * i) 16)).block1.slice 0 16] ++ _ = _
      rw [hloaded, List.append_assoc, List.singleton_append]

theorem absorbed_blocks (base len : Nat) (m : CcmMac) : (formatLoop aes key src len (noBlocks len) 0 base m).absorbed =
      m.absorbed ++ Ccm.blocks (src.slice base len) := by
  have hloop : (formatLoop aes key src len (noBlocks len) 0 (base + 16 * 0) m).absorbed =
      m.absorbed ++ (List.range' 0 (noBlocks len)).map (Ccm.block (src.slice base len)) :=
    absorbed_formatLoop src base len (noBlocks len) 0 m (Nat.zero_add _)
  rw [Nat.mul_zero, Nat.add_zero, ← List.range_eq_range', noBlocks_eq] at hloop
  rw [noBlocks_eq, hloop, Ccm.blocks, Mem.length_slice]

theorem slice_load_load_load (m : CcmMac) (front mid back : Bytes) :
    (((m.load 0 front).load front.length mid).load (front.length + mid.length) back).block1.slice 0
      (front.length + mid.length + back.length) = front ++ mid ++ back := by
  have happend := Mem.slice_write_append ((m.load 0 front).load front.length mid).block1 0
    (front.length + mid.length) back
  rw [Nat.zero_add, slice_load_load] at happend
  exact happend

theorem absorbed_formatAadFrom (aad : Mem) (aadLen : Nat) (m : CcmMac) {inFirst aadStart : Nat}
    (hstart : (aadHeader aadLen).length = aadStart) (hblock : aadStart + inFirst = 16) (hpos : 0 < aadStart) :
    (formatAadFrom aes key m aad aadLen inFirst aadStart).absorbed =
      m.absorbed ++ Ccm.blocks (aadHeader aadLen ++ aad.slice 0 aadLen) := by
  have hne : aadHeader aadLen ++ aad.slice 0 aadLen ≠ [] := by
    rw [← List.length_pos_iff, List.length_append, hstart]
    omega
  have hlen : (aadHeader aadLen ++ aad.slice 0 aadLen).length = aadStart + aadLen := by
    rw [List.length_append, hstart, Mem.length_slice]
  unfold formatAadFrom
  dsimp only
  rw [Ccm.blocks_cons hne]
  rcases Nat.lt_trichotomy aadLen inFirst with hlt | heq | hgt
  · have hfill : aadStart + aadLen + (inFirst - aadLen) = 16 := by omega
    have hdrop : (aadHeader aadLen ++ aad.slice 0 aadLen).drop 16 = [] := by
      rw [List.drop_eq_nil_iff, hlen]
      omega
    have hloaded := slice_load_load_load m (aadHeader aadLen) (aad.slice 0 aadLen) (List.replicate (inFirst - aadLen) 0)
    rw [hstart, Mem.length_slice, List.length_replicate, hfill] at hloaded
    have hzeros : 16 - (aadHeader aadLen ++ aad.slice 0 aadLen).length = inFirst - aadLen := by omega
    rw [if_pos hlt, hdrop, Ccm.blocks_nil, Ccm.block_zero_of_lt (by omega), hzeros, ← hloaded,
      Nat.min_eq_left (Nat.le_of_lt hlt)]
    rfl
  · subst heq
    have hdrop : (aadHeader aadLen ++ aad.slice 0 aadLen).drop 16 = [] := by
      rw [List.drop_eq_nil_iff, hlen]
      omega
    have hloaded := slice_load_load m (aadHeader aadLen) (aad.slice 0 aadLen)
    rw [hstart, Mem.length_slice, hblock] at hloaded
    rw [if_neg (Nat.lt_irrefl _), if_neg (Nat.lt_irrefl _), hdrop, Ccm.blocks_nil,
      Ccm.block_zero_of_length (by omega), ← hloaded, Nat.min_self]
    rfl
  · have hsplit : aad.slice 0 aadLen = aad.slice 0 inFirst ++ aad.slice inFirst (aadLen - inFirst) := by
      have hadd := Mem.slice_add aad 0 inFirst (aadLen - inFirst)
      rwa [Nat.add_sub_cancel' (Nat.le_of_lt hgt), Nat.zero_add] at hadd
    have hfirst : (aadHeader aadLen ++ aad.slice 0 inFirst).length = 16 := by
      rw [List.length_append, hstart, Mem.length_slice]
      exact hblock
    have hloaded := slice_load_load m (aadHeader aadLen) (aad.slice 0 inFirst)
    rw [hstart, Mem.length_slice, hblock] at hloaded
    rw [if_neg (Nat.not_lt.mpr (Nat.le_of_lt hgt)), if_pos hgt, absorbed_blocks, hsplit, ← List.append_assoc,
      Ccm.block_zero_append _ (Nat.le_of_eq hfirst.symm), Ccm.block_zero_of_length hfirst,
      List.drop_left' hfirst, Nat.min_eq_right (Nat.le_of_lt hgt), ← hloaded]
    exact List.append_assoc _ _ _

theorem absorbed_formatAad (aad : Mem) (aadLen : Nat) (m : CcmMac) : (formatAad aes key m aad aadLen).absorbed =
      m.absorbed ++ Ccm.blocks (aadHeader aadLen ++ aad.slice 0 aadLen) := by
  unfold formatAad
  split
  next hshort => exact absorbed_formatAadFrom aad aadLen m (by simp [aadHeader, hshort]) rfl (by decide)
  next hlong => exact absorbed_formatAadFrom aad aadLen m (by simp [aadHeader, hlong]) rfl (by decide)

end CcmMac

section Mac

variable (aes : BlockCipher) (key : Bytes) (nonce aad : Mem) (aadLen : Nat) (P : Mem) (len : Nat)

theorem length_formatB0 : (formatB0 tDef len nonce).length = blockSize := by
  simp [formatB0, convertToOctetString, nDef, qDef, blockSize]

theorem absorbed_ccmMac : (ccmMac aes key nonce aad aadLen P len).absorbed = formatB0 tDef len nonce ::
      (Ccm.blocks (aadHeader aadLen ++ aad.slice 0 aadLen) ++ Ccm.blocks (P.slice 0 len)) := by
  unfold ccmMac formatPayloadBlock
  dsimp only
  rw [CcmMac.absorbed_blocks, CcmMac.absorbed_formatAad, List.append_assoc]
  rfl

theorem mac_ccmMac : (ccmMac aes key nonce aad aadLen P len).block0.slice 0 blockSize =
    Ccm.cbcMac (aes.encrypt key) (ccmMac aes key nonce aad aadLen P len).absorbed := by
  have hstart : (CcmMac.start aes key (formatB0 tDef len nonce)).Computes aes key :=
    CcmMac.computes_start (length_formatB0 nonce len)
  exact (CcmMac.computes_formatLoop P len _ 0 0 (CcmMac.computes_formatAad aad aadLen hstart)).mac

end Mac

/-! ## The counter blocks -/

section Counter

variable (aes : BlockCipher) (key : Bytes) (nonce : Mem)

def keystream (j : Nat) : UInt8 :=
  ciphBlock aes key (ctrBlock nonce (j / 16 + 1)) (j % 16)

theorem ctrLoop_data (mode : CcmMode) (rounds i : Nat) (c : CcmCtr) (hrounds : rounds = noBlocks c.length)
    (hlen : c.length < 65536) (j : Nat) :
    (ctrLoop aes key nonce tDef mode rounds (i + 1) c).block = c.block ∧
      (ctrLoop aes key nonce tDef mode rounds (i + 1) c).data j =
        if 16 * i ≤ j ∧ j < 16 * i + c.length then keystream aes key nonce j ^^^ c.data j else c.data j := by
  induction rounds generalizing i c with
  | zero =>
    rw [noBlocks_eq] at hrounds
    refine ⟨rfl, ?_⟩
    rw [if_neg (by omega)]
    rfl
  | succ rounds ih =>
    rw [noBlocks_eq] at hrounds
    rw [ctrLoop]
    generalize hround : ctrRound aes key nonce tDef mode (i + 1) c = next
    have hblock : next.block = c.block := by rw [← hround]; rfl
    have hdata (j : Nat) : next.data j =
        if i * 16 ≤ j ∧ j < i * 16 + (if 16 ≤ c.length then 16 else c.length) then
          ciphBlock aes key (ctrBlock nonce (i + 1)) (j - i * 16) ^^^ c.data j
        else c.data j := by
      rw [← hround]
      rfl
    have hnext : next.length = (c.length + 65536 - 16) % 65536 := by rw [← hround]; rfl
    have hkey (hj : i * 16 ≤ j ∧ j < i * 16 + 16) :
        ciphBlock aes key (ctrBlock nonce (i + 1)) (j - i * 16) = keystream aes key nonce j := by
      have hdiv : j / 16 = i := by omega
      have hmod : j % 16 = j - i * 16 := by omega
      rw [keystream, hdiv, hmod]
    by_cases hfull : 16 ≤ c.length
    · have hrest : next.length = c.length - 16 := by omega
      have hloop := ih (i + 1) next (by rw [hrest, noBlocks_eq]; omega) (by omega)
      refine ⟨hloop.1.trans hblock, ?_⟩
      rw [hloop.2, hdata, hrest, if_pos hfull]
      by_cases hin : i * 16 ≤ j ∧ j < i * 16 + 16
      · rw [if_neg (by omega), if_pos hin, if_pos (by omega), hkey hin]
      · rw [if_neg hin]
        by_cases hlater : 16 * (i + 1) ≤ j ∧ j < 16 * (i + 1) + (c.length - 16)
        · rw [if_pos hlater, if_pos (by omega)]
        · rw [if_neg hlater, if_neg (by omega)]
    · have hlast : rounds = 0 := by omega
      subst hlast
      refine ⟨hblock, ?_⟩
      change next.data j = _
      rw [hdata, if_neg hfull]
      by_cases hin : i * 16 ≤ j ∧ j < i * 16 + c.length
      · rw [if_pos hin, if_pos (by omega), hkey (by omega)]
      · rw [if_neg hin, if_neg (by omega)]

theorem encryptOrDecrypt_data (mode : CcmMode) (data block : Mem) {len : Nat} (hlen : len < 65536) (j : Nat) :
    (encryptOrDecrypt aes key nonce mode data len (noBlocks len + 1) block).block =
        (ctrRound aes key nonce tDef mode 0 ⟨data, block, len⟩).block ∧
      (encryptOrDecrypt aes key nonce mode data len (noBlocks len + 1) block).data j =
        if j < len then keystream aes key nonce j ^^^ data j else data j := by
  have hfirst : (ctrRound aes key nonce tDef mode 0 ⟨data, block, len⟩).data = data ∧
      (ctrRound aes key nonce tDef mode 0 ⟨data, block, len⟩).length = len := by
    cases mode <;> exact ⟨rfl, rfl⟩
  have hloop := ctrLoop_data aes key nonce mode (noBlocks len) 0
    (ctrRound aes key nonce tDef mode 0 ⟨data, block, len⟩) (by rw [hfirst.2]) (by omega) j
  rw [hfirst.1, hfirst.2] at hloop
  refine ⟨hloop.1, ?_⟩
  unfold encryptOrDecrypt
  rw [ctrLoop, hloop.2]
  simp only [Nat.mul_zero, Nat.zero_le, true_and, Nat.zero_add]

end Counter

/-! ## The round trip -/

section RoundTrip

variable (aes : BlockCipher) (key : Bytes) (nonce aad : Mem) (aadLen : Nat) (buf : Mem) {len : Nat}

theorem counterBlocks_eq (hlen : len < 65536) :
    (len / blockSize + 1 + if len % blockSize ≠ 0 then 1 else 0) % 65536 = noBlocks len + 1 := by
  unfold noBlocks blockSize
  split <;> omega

theorem buf_ccmEncryptAndAuth (hlen : len < 65536) (j : Nat) :
    (ccmEncryptAndAuth aes key nonce aad aadLen buf len).buf j =
      if j < len then keystream aes key nonce j ^^^ buf j
      else if j < len + tDef then
        ciphBlock aes key (ctrBlock nonce 0) (j - len) ^^^ (ccmMac aes key nonce aad aadLen buf len).block0 (j - len)
      else buf j := by
  unfold ccmEncryptAndAuth
  dsimp only
  rw [counterBlocks_eq hlen]
  obtain ⟨hblock, hdata⟩ := encryptOrDecrypt_data aes key nonce .encrypt buf
    (ccmMac aes key nonce aad aadLen buf len).block0 hlen j
  generalize encryptOrDecrypt aes key nonce .encrypt buf len (noBlocks len + 1) _ = c at hblock hdata ⊢
  by_cases hin : j < len
  · rw [Mem.write_of_lt _ hin, hdata, if_pos hin, if_pos hin]
  rw [if_neg hin]
  by_cases htag : j < len + tDef
  · have hlt : j - len < tDef := by omega
    rw [Mem.write_of_mem (Nat.le_of_not_lt hin) (by rwa [Mem.length_slice]), if_pos htag,
      List.getD_eq_getElem?_getD, Mem.getElem?_slice hlt, Option.getD_some, Nat.zero_add, hblock]
    change bitXor (ciphBlock aes key (ctrBlock nonce 0)) _ 0 tDef (j - len) = _
    rw [bitXor, if_pos ⟨Nat.zero_le _, by omega⟩, Nat.sub_zero]
  · rw [Mem.write_of_le (by rw [Mem.length_slice]; omega), hdata, if_neg hin, if_neg htag]

theorem mac_congr {P P' : Mem} (h : P.slice 0 len = P'.slice 0 len) :
    (ccmMac aes key nonce aad aadLen P len).absorbed = (ccmMac aes key nonce aad aadLen P' len).absorbed ∧
      (ccmMac aes key nonce aad aadLen P len).block0.slice 0 blockSize =
        (ccmMac aes key nonce aad aadLen P' len).block0.slice 0 blockSize := by
  have habsorbed : (ccmMac aes key nonce aad aadLen P len).absorbed =
      (ccmMac aes key nonce aad aadLen P' len).absorbed := by
    rw [absorbed_ccmMac, absorbed_ccmMac, h]
  exact ⟨habsorbed, by rw [mac_ccmMac, mac_ccmMac, habsorbed]⟩

theorem ccm_roundTrip (hlen : len < 65536) :
    let enc := ccmEncryptAndAuth aes key nonce aad aadLen buf len
    let dec := ccmDecryptAndAuth aes key nonce aad aadLen enc.buf enc.ret
    dec.ret = len ∧ dec.buf.slice 0 len = buf.slice 0 len ∧ dec.macBlocks = enc.macBlocks := by
  intro enc dec
  have henc := buf_ccmEncryptAndAuth aes key nonce aad aadLen buf hlen
  change ∀ j, enc.buf j = _ at henc
  have hret : enc.ret = len + tDef := rfl
  have hsub : enc.ret - tDef = len := by omega
  have hmod : len % 65536 = len := Nat.mod_eq_of_lt hlen
  generalize hc : encryptOrDecrypt aes key nonce .decrypt enc.buf len (noBlocks len + 1) (fun _ => 0) = c
  have hdata (j : Nat) : c.data j = if j < len then keystream aes key nonce j ^^^ enc.buf j else enc.buf j := by
    rw [← hc]
    exact (encryptOrDecrypt_data aes key nonce .decrypt enc.buf (fun _ => 0) hlen j).2
  have hblock : c.block = (ctrRound aes key nonce tDef .decrypt 0 ⟨enc.buf, fun _ => 0, len⟩).block := by
    rw [← hc]
    exact (encryptOrDecrypt_data aes key nonce .decrypt enc.buf (fun _ => 0) hlen 0).1
  have hplain : c.data.slice 0 len = buf.slice 0 len := by
    apply Mem.slice_congr
    intro j _ hj
    have hj : j < len := by omega
    rw [hdata, if_pos hj, henc, if_pos hj, ← UInt8.xor_assoc, UInt8.xor_self, UInt8.zero_xor]
  obtain ⟨habsorbed, hmac⟩ := mac_congr aes key nonce aad aadLen hplain
  have htag : (bitXor (fun i => c.data (len + i)) c.block 0 tDef).slice 0 tDef =
      (ccmMac aes key nonce aad aadLen c.data len).block0.slice 0 tDef := by
    apply Mem.slice_congr
    intro j _ hj
    have hj : j < tDef := by omega
    have hbyte := congrArg (fun bytes => bytes[j]?) hmac
    have hj16 : j < blockSize := Nat.lt_trans hj (by decide)
    simp only [Mem.getElem?_slice hj16, Nat.zero_add, Option.some.injEq] at hbyte
    have hfirst : c.block j = ciphBlock aes key (ctrBlock nonce 0) j := by
      rw [hblock]
      change Mem.write (fun _ => 0) 0 ((ciphBlock aes key (ctrBlock nonce 0)).slice 0 blockSize) j = _
      rw [Mem.write_of_mem (Nat.zero_le j) (by rw [Mem.length_slice]; omega), List.getD_eq_getElem?_getD,
        Nat.sub_zero, Mem.getElem?_slice hj16, Option.getD_some, Nat.zero_add]
    rw [hbyte, bitXor, if_pos ⟨Nat.zero_le j, by omega⟩, Nat.sub_zero, hfirst, hdata, if_neg (by omega), henc,
      if_neg (by omega), if_pos (by omega), Nat.add_sub_cancel_left, UInt8.xor_comm, ← UInt8.xor_assoc,
      UInt8.xor_self, UInt8.zero_xor]
  have hdec : dec = ⟨len, c.data, (ccmMac aes key nonce aad aadLen c.data len).absorbed⟩ := by
    change ccmDecryptAndAuth aes key nonce aad aadLen enc.buf enc.ret = _
    unfold ccmDecryptAndAuth
    rw [if_neg (by omega)]
    dsimp only
    rw [hsub, hmod, counterBlocks_eq hlen, hc, htag, if_pos rfl]
  rw [hdec]
  exact ⟨rfl, hplain, habsorbed⟩

end RoundTrip

/-! ## The formatting of the standard -/

section Format

variable (nonce : Mem) (aadLen len : Nat)

theorem convertToOctetString_eq : convertToOctetString len qDef = Ccm.octets qDef len := by
  have hhigh : (len &&& 0xff00) >>> 8 = len / 256 % 256 := by
    have hmask : (len &&& 0xff00) >>> 8 = (len >>> 8) &&& (2 ^ 8 - 1) := Nat.shiftRight_and_distrib
    rw [hmask, Nat.and_two_pow_sub_one_eq_mod, Nat.shiftRight_eq_div_pow]
  have hlow : len &&& 0xff = len % 256 := Nat.and_two_pow_sub_one_eq_mod len 8
  have hoctets : Ccm.octets qDef len = [UInt8.ofNat (len / 256), UInt8.ofNat len] := rfl
  have hcode : convertToOctetString len qDef = [UInt8.ofNat ((len &&& 0xff00) >>> 8), UInt8.ofNat (len &&& 0xff)] := rfl
  rw [hcode, hoctets, hhigh, hlow, UInt8.ofNat_mod_size, UInt8.ofNat_mod_size]

theorem formatB0_eq : formatB0 tDef len nonce = 0x59 :: nonce.slice 0 nDef ++ Ccm.octets qDef len := by
  rw [← convertToOctetString_eq]
  rfl

theorem flags_eq : Ccm.flags qDef tDef aadLen = if aadLen = 0 then 0x19 else 0x59 := by
  unfold Ccm.flags
  split <;> rfl

theorem encodeLength_short (h : aadLen < 65280) :
    Ccm.encodeLength aadLen = [UInt8.ofNat (aadLen / 256), UInt8.ofNat aadLen] := by
  unfold Ccm.encodeLength
  rw [if_pos (show aadLen < 2 ^ 16 - 2 ^ 8 by omega)]
  rfl

theorem encodeLength_long (h : 65280 ≤ aadLen) (hlt : aadLen < 65536) :
    ∃ low, Ccm.encodeLength aadLen = 0xff :: 0xfe :: 0 :: 0 :: low := by
  have hhigh : aadLen / 256 / 256 = 0 := by omega
  have hoctets : Ccm.octets 4 aadLen = [UInt8.ofNat (aadLen / 256 / 256 / 256), UInt8.ofNat (aadLen / 256 / 256),
      UInt8.ofNat (aadLen / 256), UInt8.ofNat aadLen] := rfl
  refine ⟨[UInt8.ofNat (aadLen / 256), UInt8.ofNat aadLen], ?_⟩
  unfold Ccm.encodeLength
  rw [if_neg (by omega), if_pos (by omega), hoctets, hhigh]
  rfl

theorem blocks_ne {data data' : Bytes} {i : Nat} (hi : i < 16) (hdata : i < data.length) (hdata' : i < data'.length)
    (hne : data[i]? ≠ data'[i]?) : Ccm.blocks data ≠ Ccm.blocks data' := by
  intro heq
  have hnil : data ≠ [] := List.ne_nil_of_length_pos (Nat.zero_lt_of_lt hdata)
  have hnil' : data' ≠ [] := List.ne_nil_of_length_pos (Nat.zero_lt_of_lt hdata')
  rw [Ccm.blocks_cons hnil, Ccm.blocks_cons hnil', List.cons.injEq] at heq
  have hbyte := congrArg (fun bytes => bytes[i]?) heq.1
  simp only [Ccm.getElem?_block_zero hi hdata, Ccm.getElem?_block_zero hi hdata'] at hbyte
  exact hne hbyte

theorem blocks_aadHeader_iff (hlt : aadLen < 65536) (adata : Bytes) :
    Ccm.blocks (aadHeader aadLen ++ adata) = Ccm.blocks (Ccm.encodeLength aadLen ++ adata) ↔ aadLen ≤ 255 := by
  by_cases hshort : aadLen < 65280
  · have hheader : aadHeader aadLen = [0, UInt8.ofNat aadLen] := if_pos hshort
    rw [hheader, encodeLength_short aadLen hshort]
    constructor
    · intro heq
      by_contra hlong
      refine blocks_ne (i := 0) (by decide) (by simp) (by simp) ?_ heq
      have hhigh : (UInt8.ofNat (aadLen / 256)).toNat = aadLen / 256 := 
        UInt8.toNat_ofNat_of_lt (show aadLen / 256 < 256 by omega)
      intro hbyte
      have hzero : (0 : UInt8) = UInt8.ofNat (aadLen / 256) := by simpa using hbyte
      rw [← hzero] at hhigh
      have hnone : (0 : UInt8).toNat = 0 := rfl
      omega
    · intro hle
      have hhigh : aadLen / 256 = 0 := by omega
      rw [hhigh]
      rfl
  · have hheader : aadHeader aadLen = [0xff, 0xfe, 0, 1, 0, 0] := if_neg hshort
    obtain ⟨low, hlow⟩ := encodeLength_long aadLen (Nat.le_of_not_lt hshort) hlt
    rw [hheader, hlow]
    refine iff_of_false ?_ (by omega)
    exact blocks_ne (i := 3) (by decide) (by simp) (by simp) (by simp)

variable (aes : BlockCipher) (key : Bytes) (aad P : Mem)

theorem macBlocks_iff (hlt : aadLen < 65536) : (ccmMac aes key nonce aad aadLen P len).absorbed =
        Ccm.format qDef tDef (nonce.slice 0 nDef) (aad.slice 0 aadLen) (P.slice 0 len) ↔
      1 ≤ aadLen ∧ aadLen ≤ 255 := by
  rw [absorbed_ccmMac, formatB0_eq, Ccm.format, Ccm.firstBlock, Mem.length_slice, Mem.length_slice, flags_eq]
  by_cases hnone : aadLen = 0
  · rw [if_pos hnone]
    refine iff_of_false (fun heq => ?_) (by omega)
    have hflags := (List.cons.inj (List.cons.inj heq).1).1
    exact absurd hflags (by decide)
  · rw [if_neg hnone, Ccm.adataBlocks, Mem.length_slice, if_neg hnone, List.cons.injEq]
    have hiff := blocks_aadHeader_iff aadLen hlt (aad.slice 0 aadLen)
    constructor
    · rintro ⟨-, htail⟩
      exact ⟨Nat.pos_of_ne_zero hnone, hiff.mp (List.append_cancel_right htail)⟩
    · rintro ⟨-, hle⟩
      exact ⟨rfl, by rw [hiff.mpr hle]⟩

end Format

/-- Encryption and then decryption in place give the plaintext and its length back, and both compute the MAC over
the blocks of the standard. -/
structure CcmAgrees (nonce aad : Mem) (aadLen : Nat) (buf : Mem) (len : Nat) (enc dec : CcmResult) : Prop where
  ret : dec.ret = len
  plaintext : dec.buf.slice 0 len = buf.slice 0 len
  encBlocks : enc.macBlocks = Ccm.format qDef tDef (nonce.slice 0 nDef) (aad.slice 0 aadLen) (buf.slice 0 len)
  decBlocks : dec.macBlocks = Ccm.format qDef tDef (nonce.slice 0 nDef) (aad.slice 0 aadLen) (buf.slice 0 len)

section Agreement

variable (aes : BlockCipher) (key : Bytes) (nonce aad : Mem) (aadLen : Nat) (buf : Mem) (len : Nat)

/-- What `CCM_decrypt_and_auth` makes of the output of `CCM_encrypt_and_auth`. -/
def ccmDecrypted : CcmResult :=
  let enc := ccmEncryptAndAuth aes key nonce aad aadLen buf len
  ccmDecryptAndAuth aes key nonce aad aadLen enc.buf enc.ret

theorem agrees_iff_macBlocks (hlen : len < 65536) :
    CcmAgrees nonce aad aadLen buf len (ccmEncryptAndAuth aes key nonce aad aadLen buf len)
        (ccmDecrypted aes key nonce aad aadLen buf len) ↔
      (ccmMac aes key nonce aad aadLen buf len).absorbed =
        Ccm.format qDef tDef (nonce.slice 0 nDef) (aad.slice 0 aadLen) (buf.slice 0 len) := by
  obtain ⟨hret, hplain, hblocks⟩ := ccm_roundTrip aes key nonce aad aadLen buf hlen
  constructor
  · exact fun h => h.encBlocks
  · exact fun h => ⟨hret, hplain, h, hblocks.trans h⟩

end Agreement

/-- For any block cipher, the round trip and the formatting are right exactly for associated data of 1 to 255
bytes. -/
theorem ccm_agrees_iff (aes : BlockCipher) (key : Bytes) (nonce aad : Mem) (aadLen : Nat) (buf : Mem) (len : Nat)
    (haad : aadLen < 2 ^ 16) (hlen : len < 2 ^ 16) :
    CcmAgrees nonce aad aadLen buf len (ccmEncryptAndAuth aes key nonce aad aadLen buf len)
        (ccmDecrypted aes key nonce aad aadLen buf len) ↔
      1 ≤ aadLen ∧ aadLen ≤ 255 := by
  rw [agrees_iff_macBlocks aes key nonce aad aadLen buf len hlen]
  exact macBlocks_iff nonce aadLen len aes key aad buf haad

def plainCipher : BlockCipher where
  encrypt := fun _ block => (block ++ List.replicate 16 0).take 16
  length_encrypt := fun _ block => by simp

theorem ccm_agrees_sample : CcmAgrees (fun _ => 1) (fun _ => 2) 20 (fun _ => 3) 33
      (ccmEncryptAndAuth plainCipher [] (fun _ => 1) (fun _ => 2) 20 (fun _ => 3) 33)
      (ccmDecrypted plainCipher [] (fun _ => 1) (fun _ => 2) 20 (fun _ => 3) 33) :=
  (ccm_agrees_iff plainCipher [] (fun _ => 1) (fun _ => 2) 20 (fun _ => 3) 33 (by decide) (by decide)).mpr (by decide)

/-- Associated data of 256 bytes is formatted as if it were none, but for the bytes themselves. -/
theorem not_ccm_agrees : ¬∀ (aes : BlockCipher) (key : Bytes) (nonce aad : Mem) (aadLen : Nat) (buf : Mem)
    (len : Nat), aadLen < 2 ^ 16 → 1 ≤ len → len < 2 ^ 16 →
      CcmAgrees nonce aad aadLen buf len (ccmEncryptAndAuth aes key nonce aad aadLen buf len)
        (ccmDecrypted aes key nonce aad aadLen buf len) := by
  intro hall
  have hagrees := hall plainCipher [] (fun _ => 1) (fun _ => 2) 256 (fun _ => 3) 1 (by decide) (by decide) (by decide)
  have hblocks := (agrees_iff_macBlocks plainCipher [] (fun _ => 1) (fun _ => 2) 256 (fun _ => 3) 1 (by decide)).mp
    hagrees
  have hbounds := (macBlocks_iff (fun _ => 1) 256 1 plainCipher [] (fun _ => 2) (fun _ => 3) (by decide)).mp hblocks
  exact absurd hbounds.2 (by decide)

end ZipGateway

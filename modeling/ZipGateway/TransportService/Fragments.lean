import ZipGateway.TransportService.Receive

/-!
# Fragments

The receiver takes from a fragment what the sender put into it. If one or two bytes next to each other are
damaged on the way, it drops the frame.
-/

namespace ZipGateway.TransportService

/-! ### The frame check -/

theorem fcsOk_addCrc (buf : Mem) {len : Nat} (hlen : len < 256) : fcsOk (addCrc buf len) (len + 2) = true := by
  have happend := buf.slice_write_append 0 len (Crc.split (zgwCrc16 crcInitValue (buf.slice 0 len)))
  rw [Nat.zero_add] at happend
  apply decide_eq_true
  rw [addCrc, Nat.mod_eq_of_lt hlen]
  calc zgwCrc16 crcInitValue _
    _ = zgwCrc16 crcInitValue (buf.slice 0 len ++ _) := congrArg (zgwCrc16 crcInitValue) happend
    _ = Crc.bytes crcPoly (zgwCrc16 crcInitValue (buf.slice 0 len)) (Crc.split _) := List.foldl_append
    _ = 0 := Crc.bytes_split crcPoly _

/-- A fragment that was damaged in one or two bytes next to each other is dropped. The sender's own
transmission is given up if a tie was broken, as it is for every fragment. -/
theorem damaged_dropped (env : TsEnv) (s : TransportService) {f f' : Mem} {i len : Nat} (hi : i + 2 ≤ len)
    (hsame : ∀ j < len, j ≠ i → j ≠ i + 1 → f' j = f j) (hdiffers : f'.slice 0 len ≠ f.slice 0 len)
    (hok : fcsOk f len = true) (hclass : f' 0 = commandClassTransportService)
    (hfragment : cmdType f' = commandFirstFragment ∨ cmdType f' = commandSubsequentFragment) :
    receive env s f' len = s.abortIfTieBroken.t2SmPostEvent .recvNewFrag := by
  obtain ⟨k, rfl⟩ := Nat.exists_eq_add_of_le hi
  have hsplit (f : Mem) : f.slice 0 (i + 2 + k) = f.slice 0 i ++ f.slice i 2 ++ f.slice (i + 2) k := by
    rw [Mem.slice_add, Mem.slice_add, Nat.zero_add, Nat.zero_add]
  have hbefore : f'.slice 0 i = f.slice 0 i :=
    Mem.slice_congr fun j _ hj => hsame j (by omega) (by omega) (by omega)
  have hafter : f'.slice (i + 2) k = f.slice (i + 2) k :=
    Mem.slice_congr fun j hle hj => hsame j (by omega) (by omega) (by omega)
  have hbad : fcsOk f' (i + 2 + k) = false := by
    apply decide_eq_false
    intro hzero
    have hcrc := hzero.trans (of_decide_eq_true hok).symm
    rw [hsplit, hsplit, hbefore, hafter] at hcrc hdiffers
    exact hdiffers (by rw [Crc.eq_of_burst (by decide) (by simp) (by simp) hcrc])
  unfold receive
  rw [if_neg (not_not.mpr hclass)]
  rcases hfragment with hfirst | hsubseq
  · rw [if_pos hfirst]
    exact if_pos (.inr hbad)
  · rw [if_neg (by rw [hsubseq]; decide), if_pos hsubseq]
    exact if_pos (.inr hbad)

/-- One bit of the payload is damaged, and a tie was broken. -/
theorem damaged_dropped_sixty :
    let s := { init with
      scb.datagramLen := 80, scb.cmn.sessionId := 3, scb.datalenToSend := 20, flagTieBroken := true }
    let f := (s.fillSubseqFrag 60).t2TxBuf
    receive ⟨1, fun _ => 4, fun _ => true, fun _ => 0⟩ s (Function.update f 7 (f 7 ^^^ 1)) 27 =
      s.abortIfTieBroken.t2SmPostEvent .recvNewFrag := by
  intro s f
  refine damaged_dropped _ s (f := f) (i := 7) (by decide) ?_ ?_ (fcsOk_addCrc _ (by decide)) rfl (.inr (by decide))
  · intro j _ hj _
    exact Function.update_of_ne hj _ _
  · intro hslice
    have hseven := congrArg (·[7]?) hslice
    rw [Mem.getElem?_slice (by decide), Mem.getElem?_slice (by decide), Nat.zero_add,
      Function.update_self, Option.some.injEq] at hseven
    have hone : (1 : UInt8) = 0 := by
      have hzero := UInt8.xor_eq_zero_iff.mpr hseven
      rwa [UInt8.xor_comm (f 7) 1, UInt8.xor_assoc, UInt8.xor_self, UInt8.xor_zero] at hzero
    exact absurd hone (by decide)

/-! ### The fields -/

/-- A byte whose three low bits are free beside `code`. -/
abbrev Holds (code : UInt8) : Prop :=
  ∀ x : Fin 8, (code ||| UInt8.ofNat x) &&& 0xf8 = code ∧ (code ||| UInt8.ofNat x) &&& 0x07 = UInt8.ofNat x

theorem eleven_bits {code : UInt8} (hcode : Holds code) {n : Nat} (hn : n < 2048) :
    (code ||| UInt8.ofNat ((n >>> 8) &&& 0x07)) &&& 0xf8 = code ∧
      ((code ||| UInt8.ofNat ((n >>> 8) &&& 0x07)) &&& 0x07).toNat <<< 8 + (UInt8.ofNat (n &&& 0xff)).toNat = n := by
  have hhigh : n >>> 8 &&& 0x07 = n / 256 :=
    calc n >>> 8 &&& 0x07
      _ = n / 256 % 8 := by rw [Nat.shiftRight_eq_div_pow]; exact Nat.and_two_pow_sub_one_eq_mod _ 3
      _ = n / 256 := Nat.mod_eq_of_lt (by omega)
  have hlow : n &&& 0xff = n % 256 := Nat.and_two_pow_sub_one_eq_mod n 8
  obtain ⟨hkept, hput⟩ := hcode ⟨n / 256, by omega⟩
  rw [hhigh, hlow]
  refine ⟨hkept, ?_⟩
  rw [hput, UInt8.toNat_ofNat', UInt8.toNat_ofNat', Nat.shiftLeft_eq]
  dsimp only
  omega

/-- What the receiver takes from a fragment of `len` bytes is what `s` sends from `offset` on. -/
structure Carries (s : TransportService) (f : Mem) (cmd : UInt8) (hdrLen offset len : Nat) : Prop where
  cmd : cmdType f = cmd
  size : fragDatagramSize f = s.scb.datagramLen
  session : fragSession f = s.scb.cmn.sessionId
  payload : f.slice hdrLen (len - (hdrLen + 2)) = s.scb.datagram.slice offset s.scb.datalenToSend
  fcs : fcsOk f len = true

section Built

variable {s : TransportService} {header : Bytes}

def built (s : TransportService) (header : Bytes) (offset : Nat) : Mem :=
  addCrc ((s.t2TxBuf.write 0 header).write header.length (s.scb.datagram.slice offset s.scb.datalenToSend))
    (s.scb.datalenToSend + header.length)

variable (hlen : s.scb.datalenToSend + header.length < 256) (offset : Nat)
include hlen

theorem built_header {i : Nat} (hi : i < header.length) : built s header offset i = header.getD i 0 := by
  rw [built, addCrc, Nat.mod_eq_of_lt hlen, Mem.write_of_lt _ (by omega), Mem.write_of_lt _ hi,
    Mem.write_of_mem (Nat.zero_le i) (by omega), Nat.sub_zero]

theorem built_payload : (built s header offset).slice header.length s.scb.datalenToSend =
    s.scb.datagram.slice offset s.scb.datalenToSend := by
  have hself := (s.t2TxBuf.write 0 header).slice_write_self header.length
    (s.scb.datagram.slice offset s.scb.datalenToSend)
  rw [Mem.length_slice] at hself
  rw [built, addCrc, Nat.mod_eq_of_lt hlen, Mem.slice_write_of_disjoint (.inl (by omega)), hself]

theorem built_carries {code : UInt8} (hcode : Holds code) (hsize : s.scb.datagramLen < 2048)
    (hsession : s.scb.cmn.sessionId < 16) (high : Fin 8) (hfour : 4 ≤ header.length)
    (hsecond : header.getD 1 0 = code ||| UInt8.ofNat ((s.scb.datagramLen >>> 8) &&& 0x07))
    (hthird : header.getD 2 0 = UInt8.ofNat (s.scb.datagramLen &&& 0xff))
    (hfourth : header.getD 3 0 = UInt8.ofNat (s.scb.cmn.sessionId <<< 4) ||| UInt8.ofNat high) :
    Carries s (built s header offset) code header.length offset (s.scb.datalenToSend + (header.length + 2)) := by
  have hread {i : Nat} (hi : i < 4) : built s header offset i = header.getD i 0 :=
    built_header hlen offset (Nat.lt_of_lt_of_le hi hfour)
  have hnibble : ∀ (session : Fin 16) (high : Fin 8),
      (((UInt8.ofNat (session.val <<< 4) ||| UInt8.ofNat high) &&& 0xf0) >>> 4).toNat = session := by decide
  obtain ⟨hcmd, hfield⟩ := eleven_bits hcode hsize
  exact {
    cmd := by rw [cmdType, hread (by decide), hsecond, hcmd]
    size := by rw [fragDatagramSize, hread (by decide), hread (by decide), hsecond, hthird, hfield]
    session := by rw [fragSession, hread (by decide), hfourth]; exact hnibble ⟨_, hsession⟩ high
    payload := by rw [Nat.add_sub_cancel]; exact built_payload hlen offset
    fcs := fcsOk_addCrc _ hlen }

end Built

/-- A fragment is read as it was built, if its numbers fit into their fields. -/
theorem fragments_read_back (s : TransportService) (hsize : s.scb.datagramLen < 2048)
    (hsession : s.scb.cmn.sessionId < 16) (hlen : s.scb.datalenToSend < 251) :
    Carries s s.fillFirstFrag.t2TxBuf commandFirstFragment firstHdrLen 0
        (s.scb.datalenToSend + firstFragNonpayloadLength) ∧
      ∀ offset < 2048, Carries s (s.fillSubseqFrag offset).t2TxBuf commandSubsequentFragment subseqHdrLen offset
            (s.scb.datalenToSend + subseqFragNonpayloadLength) ∧
          fragDatagramOffset (s.fillSubseqFrag offset).t2TxBuf = offset := by
  have hfirst : s.scb.datalenToSend + (firstFragHeader s.scb.datagramLen s.scb.cmn.sessionId).length < 256 :=
    Nat.lt_of_succ_lt (Nat.add_lt_add_right hlen 5)
  refine ⟨built_carries hfirst 0 (by decide) hsize hsession 0 (Nat.le_refl 4) rfl rfl UInt8.or_zero.symm,
    fun offset hoffset => ?_⟩
  have hsubseq : s.scb.datalenToSend + (subseqFragHeader s.scb.datagramLen s.scb.cmn.sessionId offset).length < 256 :=
    Nat.add_lt_add_right hlen 5
  have hhigh : (offset >>> 8) &&& 0x07 < 8 := Nat.and_lt_two_pow _ (show 0x07 < 2 ^ 3 by decide)
  refine ⟨built_carries hsubseq offset (by decide) hsize hsession ⟨_, hhigh⟩ (Nat.le_succ 4) rfl rfl rfl, ?_⟩
  have hcode : ∀ session : Fin 16, Holds (UInt8.ofNat (session.val <<< 4)) := by decide
  have hthird := built_header hsubseq offset (show 3 < 5 by decide)
  have hfourth := built_header hsubseq offset (show 4 < 5 by decide)
  change ((built s _ offset 3 &&& 0x07).toNat <<< 8) + (built s _ offset 4).toNat = offset
  rw [hthird, hfourth]
  exact (eleven_bits (hcode ⟨_, hsession⟩) hoffset).2

theorem fragments_read_back_sixty :
    let s := { init with scb.datagramLen := 80, scb.cmn.sessionId := 3, scb.datalenToSend := 20 }
    fragDatagramOffset (s.fillSubseqFrag 60).t2TxBuf = 60 := by
  intro s
  exact ((fragments_read_back s (by decide) (by decide) (by decide)).2 60 (by decide)).2

end ZipGateway.TransportService

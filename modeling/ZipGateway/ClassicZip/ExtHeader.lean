import ZipGateway.ClassicZip.Options
import ZipGateway.Lib.Byte
import ZipGateway.Lib.OptionField

/-!
# Building the extended header

`add_ext_header` of `multicast_tlv.c` appends an option to the extended header of a Z/IP packet. The
header begins with its own length in one byte. A header of more than 255 bytes begins with 255 instead,
and its first option is the length in two bytes, for which the options that are there already are moved
four bytes back.
-/

set_option maxRecDepth 8000

namespace ZipGateway.ClassicZip

open OptionField
open Udp (zipHeaderSize)

def extZipPacketHeaderLength : UInt8 := 6

structure ZipPacket where
  flags1 : UInt8
  payload : Mem

namespace ZipPacket

def HdrExtIncl (p : ZipPacket) : Prop :=
  p.flags1 &&& zipPacketFlags1HdrExtIncl ≠ 0

instance (p : ZipPacket) : Decidable p.HdrExtIncl :=
  inferInstanceAs (Decidable (_ ≠ _))

def HasLengthOption (p : ZipPacket) : Prop :=
  p.HdrExtIncl ∧ p.payload 0 = 0xFF ∧ p.payload 1 &&& zipExtHdrOptionTypeMask = extZipPacketHeaderLength

instance (p : ZipPacket) : Decidable p.HasLengthOption :=
  inferInstanceAs (Decidable (_ ∧ _ ∧ _))

/-- `payload_size_before`. -/
def headerSize (p : ZipPacket) : Nat :=
  if p.HdrExtIncl then
    if p.HasLengthOption then 256 * (p.payload 3).toNat + (p.payload 4).toNat
    else (p.payload 0).toNat
  else 0

def newOptionOffset (p : ZipPacket) : Nat :=
  if p.HdrExtIncl then p.headerSize else 1

section AddExtHeader

variable (bufsize : Int) (p : ZipPacket) (o : OptionField)

def payloadSizeAfter : Nat :=
  (p.newOptionOffset + o.size) % 65536

def NeedsLengthOption : Prop :=
  255 < p.payloadSizeAfter o ∧ ¬p.HasLengthOption

instance : Decidable (p.NeedsLengthOption o) :=
  inferInstanceAs (Decidable (_ ∧ _))

def requiredBufferSize : Nat :=
  if p.NeedsLengthOption o then ((zipHeaderSize + p.payloadSizeAfter o) % 65536 + 4) % 65536
  else (zipHeaderSize + p.payloadSizeAfter o) % 65536

def sizeWritten : Nat :=
  if p.NeedsLengthOption o then (p.payloadSizeAfter o + 4) % 65536 else p.payloadSizeAfter o

def lengthOption (n : Nat) : Bytes :=
  [0xFF, zipExtHdrOptionCriticalFlag ||| extZipPacketHeaderLength, 2, UInt8.ofNat (n / 256), UInt8.ofNat n]

def writeOption : Mem :=
  p.payload.write p.newOptionOffset o.bytes

def moveOptions : Mem :=
  if p.NeedsLengthOption o then
    (p.writeOption o).write 5 ((p.writeOption o).slice 1 (p.payloadSizeAfter o - 1))
  else p.writeOption o

def writeHeader : Mem :=
  if 255 < p.payloadSizeAfter o then (p.moveOptions o).write 0 (lengthOption (p.sizeWritten o))
  else (p.writeOption o).write 0 [UInt8.ofNat (p.payloadSizeAfter o)]

def withOption : ZipPacket where
  flags1 := p.flags1 ||| zipPacketFlags1HdrExtIncl
  payload := p.writeHeader o

def addExtHeader : Nat × ZipPacket :=
  if o.form = .short ∧ 255 < o.value.length then (0, p)
  else if bufsize < p.requiredBufferSize o then (0, p)
  else ((p.sizeWritten o + 65536 - p.headerSize) % 65536, p.withOption o)

end AddExtHeader

def optionsOffset (p : ZipPacket) : Nat :=
  if p.HasLengthOption then 5 else if p.HdrExtIncl then 1 else 0

/-- The extended header lies in the buffer, has the size it says it has and consists of these options. -/
structure Holds (bufsize : Int) (opts : List OptionField) (p : ZipPacket) : Prop where
  decodes : decode (opts.map (·.form)) (p.payload.slice p.optionsOffset (p.headerSize - p.optionsOffset)) = some opts
  size : p.headerSize = p.optionsOffset + (encode opts).length
  optionLength : p.HasLengthOption → p.payload 2 = 2
  fits : (zipHeaderSize + p.headerSize : Nat) ≤ bufsize

section Calls

variable (bufsize : Int)

structure Building where
  packet : ZipPacket
  added : List OptionField
  grown : Nat

def add (b : Building) (o : OptionField) : Building :=
  let (grown, packet) := b.packet.addExtHeader bufsize o
  { packet, added := if grown = 0 then b.added else b.added ++ [o], grown := b.grown + grown }

def start (p : ZipPacket) : Building :=
  ⟨p, [], 0⟩

def Building.Right (opts : List OptionField) (p : ZipPacket) (b : Building) : Prop :=
  b.packet.Holds bufsize (opts ++ b.added) ∧ b.packet.headerSize = p.headerSize + b.grown

def Building.Keeps (b : Building) (o : OptionField) : Prop :=
  (b.packet.addExtHeader bufsize o).1 = 0 → (b.packet.addExtHeader bufsize o).2 = b.packet

/-- At every point of a sequence of calls. -/
def BuildsRight (opts : List OptionField) (p : ZipPacket) (calls : List OptionField) : Prop :=
  ∀ done, done <+: calls → (Machine.run (add bufsize) (start p) done).Right bufsize opts p ∧
      ∀ o, done ++ [o] <+: calls → (Machine.run (add bufsize) (start p) done).Keeps bufsize o

end Calls

section Conditions

variable (bufsize : Int) (p : ZipPacket) (o : OptionField)

def Refuses : Prop :=
  (o.form = .short ∧ 255 < o.value.length) ∨ bufsize < p.requiredBufferSize o

def sizeWith : Nat :=
  if 255 < p.newOptionOffset + o.size ∧ ¬p.HasLengthOption then p.newOptionOffset + o.size + 4
  else p.newOptionOffset + o.size

def firstType : UInt8 :=
  if p.newOptionOffset = 1 then o.type else p.payload 1

/-- The header with the option is below 65536 bytes and lies in the buffer, it keeps the option for the
length if there is one, and a header of 255 bytes does not begin with an option that would be taken for it. -/
structure Fits : Prop where
  size : p.sizeWith o < 65536
  buffer : (zipHeaderSize + p.sizeWith o : Nat) ≤ bufsize
  long : p.HasLengthOption → 255 < p.newOptionOffset + o.size
  plain : ¬p.HasLengthOption → p.newOptionOffset + o.size = 255 →
    p.firstType o &&& zipExtHdrOptionTypeMask ≠ extZipPacketHeaderLength

/-- The option has 65536 bytes, so that the sizes wrap to what they were, and they stand behind the header
already. -/
structure Present : Prop where
  included : p.HdrExtIncl
  size : o.size = 65536
  bytes : p.payload.slice p.headerSize o.size = o.bytes
  header : p.HasLengthOption → p.headerSize = 255 ∨
    255 < p.headerSize ∧ p.payload 1 = zipExtHdrOptionCriticalFlag ||| extZipPacketHeaderLength

def Admits : Prop :=
  p.Refuses bufsize o ∨ p.Fits bufsize o ∨ p.Present o

instance : Decidable (p.Refuses bufsize o) :=
  inferInstanceAs (Decidable ((_ ∧ _) ∨ _))

instance : Decidable (p.Fits bufsize o) :=
  decidable_of_iff (p.sizeWith o < 65536 ∧ (zipHeaderSize + p.sizeWith o : Nat) ≤ bufsize ∧
      (p.HasLengthOption → 255 < p.newOptionOffset + o.size) ∧
      (¬p.HasLengthOption → p.newOptionOffset + o.size = 255 →
        p.firstType o &&& zipExtHdrOptionTypeMask ≠ extZipPacketHeaderLength))
    ⟨fun ⟨hsize, hbuffer, hlong, hplain⟩ => ⟨hsize, hbuffer, hlong, hplain⟩,
      fun ⟨hsize, hbuffer, hlong, hplain⟩ => ⟨hsize, hbuffer, hlong, hplain⟩⟩

instance : Decidable (p.Present o) :=
  decidable_of_iff (p.HdrExtIncl ∧ o.size = 65536 ∧ p.payload.slice p.headerSize o.size = o.bytes ∧
      (p.HasLengthOption → p.headerSize = 255 ∨
        255 < p.headerSize ∧ p.payload 1 = zipExtHdrOptionCriticalFlag ||| extZipPacketHeaderLength))
    ⟨fun ⟨hincl, hsize, hbytes, hheader⟩ => ⟨hincl, hsize, hbytes, hheader⟩,
      fun ⟨hincl, hsize, hbytes, hheader⟩ => ⟨hincl, hsize, hbytes, hheader⟩⟩

instance : Decidable (p.Admits bufsize o) :=
  inferInstanceAs (Decidable (_ ∨ _ ∨ _))

end Conditions

section Facts

variable {bufsize : Int} {p : ZipPacket} {o : OptionField} {opts : List OptionField}

theorem holds_iff : p.Holds bufsize opts ↔
    (∀ o ∈ opts, o.Valid) ∧ p.payload.slice p.optionsOffset (encode opts).length = encode opts ∧
      p.headerSize = p.optionsOffset + (encode opts).length ∧ (p.HasLengthOption → p.payload 2 = 2) ∧
      (zipHeaderSize + p.headerSize : Nat) ≤ bufsize := by
  constructor
  · intro h
    obtain ⟨-, hvalid, hcontents⟩ := decode_eq_some.mp h.decodes
    have hlength : p.headerSize - p.optionsOffset = (encode opts).length := by
      have hsize := h.size
      omega
    rw [hlength] at hcontents
    exact ⟨hvalid, hcontents, h.size, h.optionLength, h.fits⟩
  · rintro ⟨hvalid, hcontents, hsize, hoption, hfits⟩
    have hlength : p.headerSize - p.optionsOffset = (encode opts).length := by omega
    refine ⟨decode_eq_some.mpr ⟨rfl, hvalid, ?_⟩, hsize, hoption, hfits⟩
    rw [hlength, hcontents]

theorem headerSize_lt (p : ZipPacket) : p.headerSize < 65536 := by
  have hlow := (p.payload 0).toNat_lt
  have hhi := (p.payload 3).toNat_lt
  have hlo := (p.payload 4).toNat_lt
  unfold headerSize
  split_ifs <;> omega

theorem headerSize_of_not_hdrExtIncl (h : ¬p.HdrExtIncl) : p.headerSize = 0 :=
  if_neg h

theorem headerSize_of_hasLengthOption (h : p.HasLengthOption) :
    p.headerSize = 256 * (p.payload 3).toNat + (p.payload 4).toNat := by
  rw [headerSize, if_pos h.1, if_pos h]

theorem headerSize_of_not_hasLengthOption (hincl : p.HdrExtIncl) (h : ¬p.HasLengthOption) :
    p.headerSize = (p.payload 0).toNat := by
  rw [headerSize, if_pos hincl, if_neg h]

theorem hdrExtIncl_withOption (p : ZipPacket) (o : OptionField) : (p.withOption o).HdrExtIncl := by
  show (p.flags1 ||| zipPacketFlags1HdrExtIncl) &&& zipPacketFlags1HdrExtIncl ≠ 0
  rw [UInt8.and_comm, ne_eq, Byte.and_or_eq_zero_iff]
  exact fun hnone => absurd hnone.2 (by decide)

def front (p : ZipPacket) : Nat :=
  if p.HasLengthOption then 5 else 1

/-- Where a header has been, its options begin behind its length; where none was, the first is put there. -/
theorem Holds.newOptionOffset_eq (h : p.Holds bufsize opts) : p.newOptionOffset = p.front + (encode opts).length := by
  have hsize := h.size
  by_cases hincl : p.HdrExtIncl
  · rw [newOptionOffset, if_pos hincl, hsize, optionsOffset, front, if_pos hincl]
  · have hnone : ¬p.HasLengthOption := fun hlength => hincl hlength.1
    rw [headerSize_of_not_hdrExtIncl hincl, optionsOffset, if_neg hnone, if_neg hincl] at hsize
    rw [newOptionOffset, front, if_neg hincl, if_neg hnone]
    omega

theorem Holds.contents (h : p.Holds bufsize opts) : p.payload.slice p.front (encode opts).length = encode opts := by
  obtain ⟨-, hcontents, hsize, -⟩ := holds_iff.mp h
  by_cases hincl : p.HdrExtIncl
  · rwa [optionsOffset, if_pos hincl] at hcontents
  · rw [headerSize_of_not_hdrExtIncl hincl] at hsize
    have hnil : encode opts = [] := List.length_eq_zero_iff.mp (by omega)
    rw [hnil]
    rfl

theorem headerSize_of_hdrExtIncl (hincl : p.HdrExtIncl) : p.headerSize = p.newOptionOffset := by
  rw [newOptionOffset, if_pos hincl]

theorem Holds.front_le (h : p.Holds bufsize opts) : p.front ≤ p.newOptionOffset := by
  rw [h.newOptionOffset_eq]
  exact Nat.le_add_right _ _

theorem front_pos (p : ZipPacket) : 1 ≤ p.front := by
  unfold front
  split_ifs <;> decide

theorem Holds.slice_writeOption (h : p.Holds bufsize opts) (o : OptionField) :
    (p.writeOption o).slice p.front ((encode opts).length + o.size) = encode (opts ++ [o]) := by
  rw [writeOption, h.newOptionOffset_eq, ← length_bytes o, Mem.slice_write_append, h.contents, encode_concat]

theorem length_lengthOption (n : Nat) : (lengthOption n).length = 5 := rfl

theorem hasLengthOption_write {q : ZipPacket} {m : Mem} {n : Nat} (hincl : q.HdrExtIncl)
    (hpayload : q.payload = m.write 0 (lengthOption n)) (hn : n < 65536) :
    q.HasLengthOption ∧ q.headerSize = n ∧ q.payload 2 = 2 := by
  have hbytes : ∀ i b, (lengthOption n)[i]? = some b → q.payload i = b := by
    intro i b hb
    have hslice := Mem.slice_write_self m 0 (lengthOption n)
    rw [← hpayload] at hslice
    exact Mem.eq_of_slice_zero hslice hb
  have hlength : q.HasLengthOption := by
    refine ⟨hincl, hbytes 0 _ rfl, ?_⟩
    rw [hbytes 1 _ rfl]
    rfl
  have hhi : (UInt8.ofNat (n / 256)).toNat = n / 256 := UInt8.toNat_ofNat_of_lt' (by
    show n / 256 < 256
    omega)
  have hlo : (UInt8.ofNat n).toNat = n % 256 := UInt8.toNat_ofNat
  refine ⟨hlength, ?_, hbytes 2 _ rfl⟩
  rw [headerSize_of_hasLengthOption hlength, hbytes 3 _ rfl, hbytes 4 _ rfl, hhi, hlo]
  omega

theorem payloadSizeAfter_lt (p : ZipPacket) (o : OptionField) : p.payloadSizeAfter o < 65536 :=
  Nat.mod_lt _ (by decide)

theorem sizeWritten_lt (p : ZipPacket) (o : OptionField) : p.sizeWritten o < 65536 := by
  unfold sizeWritten
  split_ifs
  · exact Nat.mod_lt _ (by decide)
  · exact p.payloadSizeAfter_lt o

theorem withOption_long (h : 255 < p.payloadSizeAfter o) :
    (p.withOption o).HasLengthOption ∧ (p.withOption o).headerSize = p.sizeWritten o ∧ (p.withOption o).payload 2 = 2 :=
  hasLengthOption_write (p.hdrExtIncl_withOption o) (if_pos h) (p.sizeWritten_lt o)

theorem payload_withOption_short (h : p.payloadSizeAfter o ≤ 255) :
    (p.withOption o).payload = (p.writeOption o).write 0 [UInt8.ofNat (p.payloadSizeAfter o)] :=
  if_neg (by omega)

theorem byte_withOption_short (h : p.payloadSizeAfter o ≤ 255) {i : Nat} (hpos : 1 ≤ i) (hi : i < p.newOptionOffset) :
    (p.withOption o).payload i = p.payload i := by
  rw [payload_withOption_short h, Mem.write_of_le (by simpa using hpos), writeOption, Mem.write_of_lt _ hi]

theorem firstByte_withOption_short (h : p.payloadSizeAfter o ≤ 255) :
    ((p.withOption o).payload 0).toNat = p.payloadSizeAfter o := by
  rw [payload_withOption_short h, Mem.write_of_mem (Nat.le_refl _) (by simp)]
  exact UInt8.toNat_ofNat_of_lt' (by
    show p.payloadSizeAfter o < 256
    omega)

theorem secondByte_withOption_short (h : p.payloadSizeAfter o ≤ 255) (hoffset : 1 ≤ p.newOptionOffset) :
    (p.withOption o).payload 1 = p.firstType o := by
  by_cases hone : p.newOptionOffset = 1
  · have hsize := o.two_le_size
    rw [payload_withOption_short h, Mem.write_of_le (by simp), writeOption, firstType, if_pos hone, hone,
      Mem.write_of_mem (Nat.le_refl _) (by rw [length_bytes]; omega)]
    rfl
  · rw [byte_withOption_short h (Nat.le_refl _) (by omega), firstType, if_neg hone]

theorem hasLengthOption_withOption_short (h : p.payloadSizeAfter o ≤ 255) (hoffset : 1 ≤ p.newOptionOffset) :
    (p.withOption o).HasLengthOption ↔ p.payloadSizeAfter o = 255 ∧
      p.firstType o &&& zipExtHdrOptionTypeMask = extZipPacketHeaderLength := by
  have hfirst := firstByte_withOption_short h
  have hfull : (p.withOption o).payload 0 = 0xFF ↔ p.payloadSizeAfter o = 255 := by
    rw [← hfirst]
    exact UInt8.toNat_inj.symm
  rw [HasLengthOption, hfull, secondByte_withOption_short h hoffset]
  exact and_iff_right (p.hdrExtIncl_withOption o)

theorem headerSize_withOption_short (h : p.payloadSizeAfter o ≤ 255) (hplain : ¬(p.withOption o).HasLengthOption) :
    (p.withOption o).headerSize = p.payloadSizeAfter o := by
  rw [headerSize_of_not_hasLengthOption (p.hdrExtIncl_withOption o) hplain, firstByte_withOption_short h]

theorem headerSize_withOption_stale (h : p.payloadSizeAfter o ≤ 255) (hlength : p.HasLengthOption)
    (hlength' : (p.withOption o).HasLengthOption) (hoffset : 5 ≤ p.newOptionOffset) :
    (p.withOption o).headerSize = p.headerSize := by
  rw [headerSize_of_hasLengthOption hlength, headerSize_of_hasLengthOption hlength',
    byte_withOption_short h (by decide) (by omega), byte_withOption_short h (by decide) (by omega)]

theorem payloadSizeAfter_eq (h : p.newOptionOffset + o.size < 65536) :
    p.payloadSizeAfter o = p.newOptionOffset + o.size :=
  Nat.mod_eq_of_lt h

theorem Holds.slice_long (h : p.Holds bufsize opts) (hsize : p.newOptionOffset + o.size < 65536)
    (hlong : 255 < p.newOptionOffset + o.size) :
    (p.withOption o).payload.slice 5 ((encode opts).length + o.size) = encode (opts ++ [o]) := by
  have hafter := payloadSizeAfter_eq hsize
  have hpayload : (p.withOption o).payload = (p.moveOptions o).write 0 (lengthOption (p.sizeWritten o)) :=
    if_pos (by omega)
  have hoffset := h.newOptionOffset_eq
  have hslice := h.slice_writeOption o
  rw [hpayload, Mem.slice_write_of_disjoint (.inr (by rw [length_lengthOption]))]
  by_cases hlength : p.HasLengthOption
  · rw [front, if_pos hlength] at hslice
    rwa [moveOptions, if_neg (fun hneeds => hneeds.2 hlength)]
  · rw [front, if_neg hlength] at hslice hoffset
    have hmoved : p.payloadSizeAfter o - 1 = (encode opts).length + o.size := by omega
    have hself := Mem.slice_write_self (p.writeOption o) 5 (encode (opts ++ [o]))
    rw [encode_concat, List.length_append, length_bytes, ← encode_concat] at hself
    rwa [moveOptions, if_pos ⟨by omega, hlength⟩, hmoved, hslice]

theorem Holds.slice_short (h : p.Holds bufsize opts) (hafter : p.payloadSizeAfter o ≤ 255) (hlength : ¬p.HasLengthOption) :
    (p.withOption o).payload.slice 1 ((encode opts).length + o.size) = encode (opts ++ [o]) := by
  have hslice := h.slice_writeOption o
  rw [front, if_neg hlength] at hslice
  rw [payload_withOption_short hafter, Mem.slice_write_of_disjoint (.inr (by simp)), hslice]

theorem optionsOffset_of_hasLengthOption (h : p.HasLengthOption) : p.optionsOffset = 5 :=
  if_pos h

theorem optionsOffset_of_not_hasLengthOption (hincl : p.HdrExtIncl) (h : ¬p.HasLengthOption) : p.optionsOffset = 1 := by
  rw [optionsOffset, if_neg h, if_pos hincl]

/-- The header after a call that writes the option, where nothing wraps or is mistaken. -/
theorem Fits.holds (hfits : p.Fits bufsize o) (h : p.Holds bufsize opts) (hvalid : o.Valid) :
    (p.withOption o).Holds bufsize (opts ++ [o]) ∧ (p.withOption o).headerSize = p.sizeWith o ∧
      p.sizeWritten o = p.sizeWith o := by
  obtain ⟨hsize, hbuffer, hlong, hplain⟩ := hfits
  have hall : ∀ o' ∈ opts ++ [o], o'.Valid := by
    intro o' ho'
    rcases List.mem_append.mp ho' with hold | hnew
    · exact (holds_iff.mp h).1 o' hold
    · exact List.mem_singleton.mp hnew ▸ hvalid
  have hlength : (encode (opts ++ [o])).length = (encode opts).length + o.size := by
    rw [encode_concat, List.length_append, length_bytes]
  have hoffset := h.newOptionOffset_eq
  have htotal : p.newOptionOffset + o.size ≤ p.sizeWith o := by
    unfold sizeWith
    split_ifs <;> omega
  have hafter := payloadSizeAfter_eq (p := p) (o := o) (by omega)
  have hwritten : p.sizeWritten o = p.sizeWith o := by
    unfold sizeWith at hsize ⊢
    rw [← hafter] at hsize ⊢
    split_ifs at hsize ⊢ with hneeds
    · have hneeds' : p.NeedsLengthOption o := hneeds
      rw [sizeWritten, if_pos hneeds', Nat.mod_eq_of_lt hsize]
    · have hneeds' : ¬p.NeedsLengthOption o := hneeds
      rw [sizeWritten, if_neg hneeds']
  by_cases hbig : 255 < p.newOptionOffset + o.size
  · obtain ⟨hlength', hheader, htwo⟩ := withOption_long (p := p) (o := o) (by omega)
    refine ⟨holds_iff.mpr ⟨hall, ?_, ?_, fun _ => htwo, ?_⟩, by omega, hwritten⟩
    · rw [optionsOffset_of_hasLengthOption hlength', hlength]
      exact h.slice_long (by omega) hbig
    · rw [optionsOffset_of_hasLengthOption hlength', hlength, hheader, hwritten, sizeWith]
      unfold front at hoffset
      by_cases hhad : p.HasLengthOption
      · rw [if_pos hhad] at hoffset
        rw [if_neg (fun hneeds => hneeds.2 hhad)]
        omega
      · rw [if_neg hhad] at hoffset
        rw [if_pos ⟨hbig, hhad⟩]
        omega
    · rwa [hheader, hwritten]
  · have hnone : ¬p.HasLengthOption := fun hhad => hbig (hlong hhad)
    have hshort : p.payloadSizeAfter o ≤ 255 := by omega
    have hpos : 1 ≤ p.newOptionOffset := by
      have hfront := p.front_pos
      omega
    have hnone' : ¬(p.withOption o).HasLengthOption := by
      rw [hasLengthOption_withOption_short hshort hpos, hafter]
      exact fun hboth => hplain hnone hboth.1 hboth.2
    have hheader := headerSize_withOption_short hshort hnone'
    have hwith : p.sizeWith o = p.newOptionOffset + o.size := if_neg (fun hneeds => hbig hneeds.1)
    have hstart := optionsOffset_of_not_hasLengthOption (p.hdrExtIncl_withOption o) hnone'
    refine ⟨holds_iff.mpr ⟨hall, ?_, ?_, fun hhas => absurd hhas hnone', ?_⟩, by omega, hwritten⟩
    · rw [hstart, hlength]
      exact h.slice_short hshort hnone
    · rw [hstart, hlength, hheader, hafter, hoffset, front, if_neg hnone]
      omega
    · rw [hheader, hafter, ← hwith]
      exact hbuffer

theorem headerSize_le_of_not_hasLengthOption (h : ¬p.HasLengthOption) : p.headerSize ≤ 255 := by
  have hbyte := (p.payload 0).toNat_lt
  by_cases hincl : p.HdrExtIncl
  · rw [headerSize_of_not_hasLengthOption hincl h]
    omega
  · rw [headerSize_of_not_hdrExtIncl hincl]
    omega

theorem Holds.fits_of_withOption (h : p.Holds bufsize opts) (h' : (p.withOption o).Holds bufsize (opts ++ [o]))
    (hreturned : (p.sizeWritten o + 65536 - p.headerSize) % 65536 ≠ 0)
    (hgrown : (p.withOption o).headerSize = p.headerSize + (p.sizeWritten o + 65536 - p.headerSize) % 65536) :
    p.Fits bufsize o := by
  have hsize := h'.size
  have hbuffer := h'.fits
  rw [encode_concat, List.length_append, length_bytes] at hsize
  have hoffset := h.newOptionOffset_eq
  have hpos := p.front_pos
  have hafter : p.payloadSizeAfter o = (p.newOptionOffset + o.size) % 65536 := rfl
  by_cases hbig : 255 < p.payloadSizeAfter o
  · obtain ⟨hlength', hheader, -⟩ := withOption_long hbig
    rw [optionsOffset_of_hasLengthOption hlength', hheader] at hsize
    rw [hheader] at hbuffer
    by_cases hhad : p.HasLengthOption
    · rw [front, if_pos hhad] at hoffset
      rw [sizeWritten, if_neg (fun hneeds => hneeds.2 hhad)] at hsize hbuffer
      have hwith : p.sizeWith o = p.payloadSizeAfter o := by
        rw [sizeWith, if_neg (fun hneeds => hneeds.2 hhad)]
        omega
      refine ⟨by omega, hwith ▸ hbuffer, fun _ => by omega, fun hnone => absurd hhad hnone⟩
    · rw [front, if_neg hhad] at hoffset
      have hneeds : p.NeedsLengthOption o := ⟨hbig, hhad⟩
      rw [sizeWritten, if_pos hneeds] at hsize hbuffer
      have hwith : p.sizeWith o = (p.payloadSizeAfter o + 4) % 65536 := by
        rw [sizeWith, if_pos ⟨by omega, hhad⟩]
        omega
      exact ⟨by omega, hwith ▸ hbuffer, fun hhas => absurd hhas hhad, fun _ hfull => by omega⟩
  · have hsmall : p.payloadSizeAfter o ≤ 255 := by omega
    have hwritten : p.sizeWritten o = p.payloadSizeAfter o := if_neg (fun hneeds => hbig hneeds.1)
    rw [hwritten] at hreturned hgrown
    have htype := hasLengthOption_withOption_short hsmall (by omega)
    by_cases hhad : p.HasLengthOption
    · rw [front, if_pos hhad] at hoffset
      by_cases hhas : (p.withOption o).HasLengthOption
      · rw [headerSize_withOption_stale hsmall hhad hhas (by omega)] at hgrown
        omega
      · rw [optionsOffset_of_not_hasLengthOption (p.hdrExtIncl_withOption o) hhas,
          headerSize_withOption_short hsmall hhas] at hsize
        omega
    · rw [front, if_neg hhad] at hoffset
      have hold := headerSize_le_of_not_hasLengthOption hhad
      by_cases hhas : (p.withOption o).HasLengthOption
      · -- The header would be four bytes longer than the call says.
        have hfull := (htype.mp hhas).1
        rw [optionsOffset_of_hasLengthOption hhas] at hsize
        omega
      · rw [headerSize_withOption_short hsmall hhas] at hsize hbuffer
        rw [optionsOffset_of_not_hasLengthOption (p.hdrExtIncl_withOption o) hhas] at hsize
        have hwith : p.sizeWith o = p.payloadSizeAfter o := by
          rw [sizeWith, if_neg (fun hneeds => by omega)]
          omega
        exact ⟨by omega, hwith ▸ hbuffer, fun hhas' => absurd hhas' hhad, fun _ hfull hsame =>
          hhas (htype.mpr ⟨by omega, hsame⟩)⟩

theorem Holds.present_of_withOption (h : p.Holds bufsize opts) (hsame : p.withOption o = p)
    (hreturned : (p.sizeWritten o + 65536 - p.headerSize) % 65536 = 0) : p.Present o := by
  have hincl : p.HdrExtIncl := by
    have hincl' := p.hdrExtIncl_withOption o
    rwa [hsame] at hincl'
  have hheader := headerSize_of_hdrExtIncl hincl
  have hlt := p.headerSize_lt
  have hlt' := p.sizeWritten_lt o
  have hneeds : ¬p.NeedsLengthOption o := by
    intro hneeds
    have hhas := (withOption_long hneeds.1).1
    rw [hsame] at hhas
    exact hneeds.2 hhas
  have hafter : p.payloadSizeAfter o = (p.newOptionOffset + o.size) % 65536 := rfl
  have hwritten : p.sizeWritten o = p.payloadSizeAfter o := if_neg hneeds
  have hpos := p.front_pos
  have hfront := h.front_le
  have htwo := o.two_le_size
  have hmax := o.size_lt
  have hself : (p.writeOption o).slice p.headerSize o.size = o.bytes := by
    rw [hheader, writeOption, ← length_bytes, Mem.slice_write_self]
  have hpayload : p.writeHeader o = p.payload := congrArg payload hsame
  refine ⟨hincl, by omega, ?_, ?_⟩
  · by_cases hbig : 255 < p.payloadSizeAfter o
    · have hhad : p.HasLengthOption := by
        by_contra hnone
        exact hneeds ⟨hbig, hnone⟩
      rw [front, if_pos hhad] at hfront
      rw [writeHeader, if_pos hbig, moveOptions, if_neg hneeds] at hpayload
      rw [← hpayload, Mem.slice_write_of_disjoint (.inr (by rw [length_lengthOption]; omega)), hself]
    · rw [writeHeader, if_neg hbig] at hpayload
      rw [← hpayload, Mem.slice_write_of_disjoint (.inr (by simp; omega)), hself]
  · intro hhad
    by_cases hbig : 255 < p.payloadSizeAfter o
    · refine .inr ⟨by omega, ?_⟩
      rw [writeHeader, if_pos hbig] at hpayload
      rw [← hpayload]
      rfl
    · have hfirst := firstByte_withOption_short (p := p) (o := o) (by omega)
      rw [hsame, hhad.2.1] at hfirst
      have hfull : p.payloadSizeAfter o = 255 := hfirst.symm
      exact .inl (by omega)

theorem Present.withOption_eq (hpresent : p.Present o) (h : p.Holds bufsize opts) :
    p.withOption o = p ∧ p.sizeWritten o = p.headerSize := by
  obtain ⟨hincl, hsize, hbytes, hlengthOption⟩ := hpresent
  have hheader := headerSize_of_hdrExtIncl hincl
  have hlt := p.headerSize_lt
  have hafter : p.payloadSizeAfter o = p.headerSize := by
    rw [payloadSizeAfter, ← hheader, hsize]
    omega
  have hneeds : ¬p.NeedsLengthOption o := by
    rintro ⟨hbig, hnone⟩
    have hle := headerSize_le_of_not_hasLengthOption hnone
    omega
  have hwritten : p.sizeWritten o = p.headerSize := by
    rw [sizeWritten, if_neg hneeds, hafter]
  have hoption : p.writeOption o = p.payload := by
    rw [writeOption, ← hheader, ← hbytes, Mem.write_slice_self]
  have hflags : ∀ x : UInt8, x &&& zipPacketFlags1HdrExtIncl ≠ 0 → x ||| zipPacketFlags1HdrExtIncl = x := by
    decide
  have hpayload : p.writeHeader o = p.payload := by
    by_cases hbig : 255 < p.payloadSizeAfter o
    · have hhad : p.HasLengthOption := by
        by_contra hnone
        exact hneeds ⟨hbig, hnone⟩
      obtain ⟨-, hsecond⟩ := (hlengthOption hhad).resolve_left (by omega)
      have hslice : p.payload.slice 0 5 = lengthOption p.headerSize := by
        have hhi : UInt8.ofNat (p.headerSize / 256) = p.payload 3 := by
          rw [headerSize_of_hasLengthOption hhad]
          have hlow := (p.payload 4).toNat_lt
          have hdiv : (256 * (p.payload 3).toNat + (p.payload 4).toNat) / 256 = (p.payload 3).toNat := by omega
          rw [hdiv, UInt8.ofNat_toNat]
        have hlo : UInt8.ofNat p.headerSize = p.payload 4 := by
          rw [headerSize_of_hasLengthOption hhad]
          apply UInt8.toNat_inj.mp
          rw [UInt8.toNat_ofNat']
          have hlow := (p.payload 4).toNat_lt
          omega
        rw [lengthOption, hhi, hlo, ← hsecond, ← hhad.2.1, ← h.optionLength hhad]
        rfl
      rw [writeHeader, if_pos hbig, moveOptions, if_neg hneeds, hoption, hwritten, ← hslice]
      exact Mem.write_slice_self p.payload 0 5
    · have hslice : p.payload.slice 0 1 = [UInt8.ofNat p.headerSize] := by
        have hfirst : UInt8.ofNat p.headerSize = p.payload 0 := by
          by_cases hhad : p.HasLengthOption
          · have hfull := (hlengthOption hhad).resolve_right (by omega)
            rw [hfull, hhad.2.1]
            rfl
          · rw [headerSize_of_not_hasLengthOption hincl hhad, UInt8.ofNat_toNat]
        rw [hfirst]
        rfl
      rw [writeHeader, if_neg hbig, hoption, hafter, ← hslice]
      exact Mem.write_slice_self p.payload 0 1
  refine ⟨?_, hwritten⟩
  show (⟨p.flags1 ||| zipPacketFlags1HdrExtIncl, p.writeHeader o⟩ : ZipPacket) = p
  rw [hpayload, hflags p.flags1 hincl]

theorem addExtHeader_of_refuses (h : p.Refuses bufsize o) : p.addExtHeader bufsize o = (0, p) := by
  rw [addExtHeader]
  rcases h with hform | hbuffer
  · rw [if_pos hform]
  · rw [if_pos hbuffer, ite_self]

theorem addExtHeader_of_not_refuses (h : ¬p.Refuses bufsize o) :
    p.addExtHeader bufsize o = ((p.sizeWritten o + 65536 - p.headerSize) % 65536, p.withOption o) := by
  rw [addExtHeader, if_neg (fun hform => h (.inl hform)), if_neg (fun hbuffer => h (.inr hbuffer))]

theorem valid_of_not_refuses (h : ¬p.Refuses bufsize o) : o.Valid := by
  have hlength := o.length_lt
  have hform : o.form = .short → ¬255 < o.value.length := fun hshort hlong => h (.inl ⟨hshort, hlong⟩)
  unfold Valid
  cases hcase : o.form with
  | short =>
    have hle := hform hcase
    show o.value.length < 256
    omega
  | long => exact hlength

theorem Holds.call_iff (h : p.Holds bufsize opts) {n : Nat} {q : ZipPacket} (hcall : p.addExtHeader bufsize o = (n, q)) :
    ((n = 0 → q = p) ∧ q.Holds bufsize (if n = 0 then opts else opts ++ [o]) ∧ q.headerSize = p.headerSize + n) ↔
      p.Admits bufsize o := by
  by_cases hrefuses : p.Refuses bufsize o
  · rw [addExtHeader_of_refuses hrefuses] at hcall
    obtain ⟨rfl, rfl⟩ := Prod.mk.inj hcall
    refine ⟨fun _ => .inl hrefuses, fun _ => ⟨fun _ => rfl, ?_, rfl⟩⟩
    rwa [if_pos rfl]
  rw [addExtHeader_of_not_refuses hrefuses] at hcall
  obtain ⟨rfl, rfl⟩ := Prod.mk.inj hcall
  constructor
  · rintro ⟨hkeeps, hholds, hgrown⟩
    by_cases hzero : (p.sizeWritten o + 65536 - p.headerSize) % 65536 = 0
    · exact .inr (.inr (h.present_of_withOption (hkeeps hzero) hzero))
    · rw [if_neg hzero] at hholds
      exact .inr (.inl (h.fits_of_withOption hholds hzero hgrown))
  · rintro (hagain | hfits | hpresent)
    · exact absurd hagain hrefuses
    · obtain ⟨hholds, hsize, hwritten⟩ := hfits.holds h (valid_of_not_refuses hrefuses)
      have hold : p.headerSize ≤ p.newOptionOffset := by
        unfold newOptionOffset
        split_ifs with hincl
        · exact Nat.le_refl _
        · rw [headerSize_of_not_hdrExtIncl hincl]
          exact Nat.zero_le _
      have hnew : p.newOptionOffset + o.size ≤ p.sizeWith o := by
        unfold sizeWith
        split_ifs <;> omega
      have htwo := o.two_le_size
      have hlt := hfits.size
      have hreturned : (p.sizeWritten o + 65536 - p.headerSize) % 65536 = p.sizeWith o - p.headerSize := by
        rw [hwritten]
        omega
      have hzero : ¬(p.sizeWritten o + 65536 - p.headerSize) % 65536 = 0 := by omega
      rw [if_neg hzero]
      exact ⟨fun hnone => absurd hnone hzero, hholds, by omega⟩
    · obtain ⟨hsame, hwritten⟩ := hpresent.withOption_eq h
      have hzero : (p.sizeWritten o + 65536 - p.headerSize) % 65536 = 0 := by
        rw [hwritten, Nat.add_sub_cancel_left]
      rw [hzero, hsame, if_pos rfl]
      exact ⟨fun _ => rfl, h, rfl⟩

theorem Building.add_iff {b : Building} (h : b.Right bufsize opts p) (o : OptionField) :
    b.Keeps bufsize o ∧ (add bufsize b o).Right bufsize opts p ↔ b.packet.Admits bufsize o := by
  rcases hcall : b.packet.addExtHeader bufsize o with ⟨n, q⟩
  have hgrown := h.2
  have hopts : opts ++ (if n = 0 then b.added else b.added ++ [o]) =
      if n = 0 then opts ++ b.added else opts ++ b.added ++ [o] := by
    split_ifs
    · rfl
    · rw [List.append_assoc]
  rw [← h.1.call_iff hcall, ← hopts, Keeps, Right, add, hcall, hgrown, ← Nat.add_assoc]

/-- The extended header is right at every point of a sequence of calls exactly if each of them is refused,
fits, or finds its option there already. -/
theorem ext_header_built_iff (h : p.Holds bufsize opts) (calls : List OptionField) : BuildsRight bufsize opts p calls ↔
      Machine.Admissible (add bufsize) (fun b o => b.packet.Admits bufsize o) (start p) calls := by
  have hstart : (start p).Right bufsize opts p := by
    refine ⟨?_, rfl⟩
    rwa [start, List.append_nil]
  have hiff : ∀ (b : Building) (o : OptionField), b.Right bufsize opts p →
      (b.Keeps bufsize o ∧ (add bufsize b o).Right bufsize opts p ↔ b.packet.Admits bufsize o) :=
    fun b o hb => Building.add_iff hb o
  have hstep : ∀ (b : Building) (o : OptionField), b.packet.Admits bufsize o → b.Right bufsize opts p →
      (add bufsize b o).Right bufsize opts p :=
    fun b o hadmits hb => ((hiff b o hb).mpr hadmits).2
  rw [BuildsRight, Machine.forall_run_iff, and_iff_right hstart]
  exact Machine.admissible_iff hiff hstep hstart calls

end Facts

section Samples

variable {o : OptionField}

def emptyPacket : ZipPacket :=
  ⟨0, fun _ => 0⟩

theorem emptyPacket_holds : emptyPacket.Holds 100 [] :=
  holds_iff.mpr ⟨by simp, rfl, rfl, fun h => absurd h.1 (by decide), by decide⟩

def acknowledgeOption : OptionField :=
  ⟨0x84, .short, [0x80], by decide⟩

def multicastOption : OptionField :=
  ⟨0x85, .long, [0x01, 0x02], by decide⟩

def reportOption : OptionField :=
  ⟨0x03, .short, List.replicate 250 7, by decide⟩

/-- The second option makes the header longer than 255 bytes, and the third is added behind the length option. -/
theorem sampleOptions_built : BuildsRight 512 [acknowledgeOption]
      ⟨zipPacketFlags1HdrExtIncl, Mem.ofBytes [4, 0x84, 1, 0x80]⟩ [reportOption, multicastOption] :=
  (ext_header_built_iff (holds_iff.mpr ⟨by simp [Valid, acknowledgeOption, LengthForm.size], by decide,
    by decide, by decide, by decide⟩) [reportOption, multicastOption]).mpr (by decide)

theorem not_built_of_size (hform : o.form = .long) (hsize : o.size = 65536) : ¬BuildsRight 100 [] emptyPacket [o] := by
  intro hbuilds
  have hstart : (start emptyPacket).Right 100 [] emptyPacket := ⟨emptyPacket_holds, rfl⟩
  have hkeeps := (hbuilds [] List.nil_prefix).2 o (List.prefix_refl _)
  have hright := (hbuilds [o] (List.prefix_refl _)).1
  have hafter : emptyPacket.payloadSizeAfter o = 1 := by
    rw [payloadSizeAfter, hsize]
    rfl
  rcases (Building.add_iff hstart o).mp ⟨hkeeps, hright⟩ with (⟨hshort, -⟩ | hbuffer) | hfits | hpresent
  · rw [hform] at hshort
    cases hshort
  · have hneeds : ¬emptyPacket.NeedsLengthOption o := fun hneeds => by
      have hbig := hneeds.1
      omega
    have hrequired : emptyPacket.requiredBufferSize o = 8 := by
      rw [requiredBufferSize, if_neg hneeds, hafter]
      rfl
    have hbuffer' : (100 : Int) < emptyPacket.requiredBufferSize o := hbuffer
    omega
  · have hlt : emptyPacket.sizeWith o < 65536 := hfits.size
    unfold sizeWith at hlt
    split_ifs at hlt <;> omega
  · exact absurd hpresent.included (by decide)

def wrappingOption : OptionField :=
  ⟨0x84, .long, List.replicate 65533 0, by rw [List.length_replicate]; decide⟩

theorem wrappingOption_not_built : ¬BuildsRight 100 [] emptyPacket [wrappingOption] := by
  have hlength : wrappingOption.value.length = 65533 := List.length_replicate
  refine not_built_of_size rfl ?_
  rw [OptionField.size, hlength]
  rfl

end Samples

end ZipPacket

end ZipGateway.ClassicZip

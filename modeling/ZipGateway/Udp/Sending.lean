import Mathlib.Data.List.GetD
import ZipGateway.Udp.Commands

/-!
# The Z/IP packets that are sent

`ZW_SendData_UDP` writes a header, an extension with the encapsulation format, an option for a command that was
received by multicast, and the command. The size check has no room for the option.
-/

namespace ZipGateway.Udp

def maxUdpPayloadLen : Nat := 512
def maxZipHeaderSize : Nat := zipHeaderSize + 5
def udpBufferSize : Nat := maxUdpPayloadLen + maxZipHeaderSize

def zwaveMulticastAddressing : UInt8 := 5
def receiveStatusTypeBroad : UInt8 := 0x04
def receiveStatusTypeMulti : UInt8 := 0x08

def Scheme.efi : Scheme → UInt8 × UInt8
  | useCrc16 => (0, efiFlagCrc16)
  | scheme0 => (0x80, 0)
  | scheme2Unauthenticated => (1, 0)
  | scheme2Authenticated => (2, 0)
  | scheme2Access => (4, 0)
  | netScheme | schemeUdp | autoScheme | noScheme => (0, 0)

def effectiveScheme (net : Scheme) (c : Connection) : Scheme :=
  if c.scheme = .schemeUdp then net else c.scheme

def isMulti (c : Connection) : Bool :=
  c.rxFlags &&& receiveStatusTypeMask = receiveStatusTypeMulti ∨ c.rxFlags &&& receiveStatusTypeMask = receiveStatusTypeBroad

def zipExtension (net : Scheme) (c : Connection) : Bytes :=
  let efi := (effectiveScheme net c).efi
  if isMulti c then [7, encapsulationFormatInfo, 2, efi.1, efi.2, zwaveMulticastAddressing, 0]
  else [5, encapsulationFormatInfo, 2, efi.1, efi.2]

def zipFlags1 (c : Connection) (datalen : Nat) : UInt8 :=
  (if datalen = 0 then zipPacketFlags1HdrExtIncl else flags1ZwCmdIncl ||| zipPacketFlags1HdrExtIncl) |||
    if c.scheme ≠ .noScheme then flags1SecureOrigin else 0

def zipHeader (c : Connection) (seqNo : UInt8) (ackreq : Bool) (datalen : Nat) : Bytes :=
  [commandClassZip, commandZipPacket, if ackreq then flags0AckReq else 0, zipFlags1 c datalen, seqNo, c.lendpoint,
    c.rendpoint]

def sendDataUdp (net : Scheme) (seqNo : UInt8) (c : Connection) (data : Bytes) (ackreq : Bool) : Option Bytes :=
  if udpBufferSize < data.length + maxZipHeaderSize then none
  else some (zipHeader c seqNo ackreq data.length ++ zipExtension net c ++ data)

structure Payload.Carries (p : Payload) (packet : Bytes) : Prop where
  len_eq : p.len.toNat = packet.length
  data_eq : ∀ i (h : i < packet.length), p.data i = packet[i]

/-- The packet stays in the buffer, and whoever gets it reads the scheme and the command that were sent. -/
structure Delivered (packet : Bytes) (scheme : Scheme) (data : Bytes) : Prop where
  inside : packet.length ≤ udpBufferSize
  parsed : ∀ p : Payload, p.Carries packet → p.parse = .ok scheme
  command : ∀ p : Payload, p.Carries packet → p.command.len = data.length ∧
    ∀ i (h : i < data.length), p.command.mem i = data[i]

variable {mem : Mem} {scheme : Scheme}

section Sending

variable {net : Scheme} {seqNo : UInt8} {c : Connection} {data : Bytes} {ackreq : Bool} {p : Payload}

theorem ofEfi_efi_iff {s : Scheme} : Scheme.ofEfi s.efi.1 s.efi.2 = s ↔ s ≠ .autoScheme ∧ s ≠ .netScheme ∧ s ≠ .schemeUdp := by
  cases s <;> decide

theorem zipExtension_length : (zipExtension net c).length = if isMulti c then 7 else 5 := by
  unfold zipExtension
  split <;> rfl

theorem carries_bytes (h : p.Carries (zipHeader c seqNo ackreq data.length ++ zipExtension net c ++ data)) :
    (∀ i, i < 7 → p.data i = (zipHeader c seqNo ackreq data.length).getD i 0) ∧
    (∀ i, i < (zipExtension net c).length → p.data (7 + i) = (zipExtension net c).getD i 0) ∧
    ∀ i (hi : i < data.length), p.data (7 + (zipExtension net c).length + i) = data[i] := by
  have hlength : (zipHeader c seqNo ackreq data.length).length = 7 := rfl
  refine ⟨fun i hi => ?_, fun i hi => ?_, fun i hi => ?_⟩
  · rw [h.data_eq i (by simp only [List.length_append, hlength]; omega), List.getElem_append_left
      (by simp only [List.length_append, hlength]; omega), List.getElem_append_left (by rw [hlength]; omega),
      List.getD_eq_getElem]
  · rw [h.data_eq _ (by simp only [List.length_append, hlength]; omega), List.getElem_append_left
      (by simp only [List.length_append, hlength]; omega), List.getElem_append_right (by rw [hlength]; omega),
      List.getD_eq_getElem _ _ hi]
    congr 1
    rw [hlength]
    omega
  · rw [h.data_eq _ (by simp only [List.length_append, hlength]; omega), List.getElem_append_right
      (by simp only [List.length_append, hlength]; omega)]
    congr 1
    rw [List.length_append, hlength]
    omega

theorem extension_eq (h : p.Carries (zipHeader c seqNo ackreq data.length ++ zipExtension net c ++ data)) :
    p.hasExtension = true ∧ p.extension = (zipExtension net c).length ∧
      p.payloadLen = (zipExtension net c).length + data.length := by
  obtain ⟨hheader, hextension, -⟩ := carries_bytes h
  have hflags : p.hasExtension = true := by
    have hincluded : zipFlags1 c data.length &&& zipPacketFlags1HdrExtIncl ≠ 0 := by
      unfold zipFlags1
      split <;> split <;> decide
    rw [Payload.hasExtension, Payload.flags1, hheader 3 (by omega)]
    exact decide_eq_true hincluded
  refine ⟨hflags, ?_, ?_⟩
  · have hfirst := hextension 0 (by rw [zipExtension_length]; split <;> omega)
    rw [Payload.extension, if_pos hflags, show zipHeaderSize = 7 + 0 from rfl, hfirst, zipExtension_length]
    unfold zipExtension
    split <;> rfl
  · have hlen := h.len_eq
    have hlength : (zipHeader c seqNo ackreq data.length).length = 7 := rfl
    rw [List.length_append, List.length_append, hlength] at hlen
    have hseven : (UInt16.ofNat zipHeaderSize).toNat = 7 := rfl
    have hle : UInt16.ofNat zipHeaderSize ≤ p.len := by
      rw [UInt16.le_iff_toNat_le, hseven]
      omega
    rw [Payload.payloadLen, UInt16.toNat_sub_of_le _ _ hle, hseven]
    omega

theorem parseOptions_efi {stop n opt : Nat} (hopt : opt < stop)
    (htype : mem opt = encapsulationFormatInfo) (hlen : mem (opt + 1) = 2) :
    parseOptions mem stop (n + 1) opt scheme =
      parseOptions mem stop n (opt + 4) (.ofEfi (mem (opt + 2)) (mem (opt + 3))) := by
  rw [parseOptions, if_pos hopt, if_pos htype, hlen]
  rfl

theorem parseOptions_multicast {stop n opt : Nat} (hopt : opt < stop)
    (htype : mem opt = zwaveMulticastAddressing) (hlen : mem (opt + 1) = 0) :
    parseOptions mem stop (n + 1) opt scheme = parseOptions mem stop n (opt + 2) scheme := by
  rw [parseOptions, if_pos hopt, htype, hlen]
  rfl

theorem parseOptions_stop {stop n : Nat} : parseOptions mem stop (n + 1) stop scheme = .ok scheme := by
  rw [parseOptions, if_neg (Nat.lt_irrefl _), if_pos rfl]

theorem parse_eq (h : p.Carries (zipHeader c seqNo ackreq data.length ++ zipExtension net c ++ data)) :
    p.parse = .ok (.ofEfi (effectiveScheme net c).efi.1 (effectiveScheme net c).efi.2) := by
  obtain ⟨-, hbytes, -⟩ := carries_bytes h
  obtain ⟨hflags, hextension, hpayload⟩ := extension_eq h
  rw [Payload.parse, if_pos hflags, hextension, hpayload, zipExtension_length]
  rw [zipExtension_length] at hbytes
  unfold zipExtension at hbytes
  by_cases hmulti : isMulti c = true
  · simp only [if_pos hmulti] at hbytes ⊢
    rw [if_neg (by omega)]
    calc parseOptions p.data 14 8 8 .autoScheme
      _ = parseOptions p.data 14 7 12 (.ofEfi (p.data 10) (p.data 11)) :=
        parseOptions_efi (by decide) (hbytes 1 (by omega)) (hbytes 2 (by omega))
      _ = parseOptions p.data 14 6 14 (.ofEfi (p.data 10) (p.data 11)) :=
        parseOptions_multicast (by decide) (hbytes 5 (by omega)) (hbytes 6 (by omega))
      _ = .ok (.ofEfi (p.data 10) (p.data 11)) := parseOptions_stop
      _ = _ := congrArg Parsed.ok (congrArg₂ Scheme.ofEfi (hbytes 3 (by omega)) (hbytes 4 (by omega)))
  · simp only [if_neg hmulti] at hbytes ⊢
    rw [if_neg (by omega)]
    calc parseOptions p.data 12 6 8 .autoScheme
      _ = parseOptions p.data 12 5 12 (.ofEfi (p.data 10) (p.data 11)) :=
        parseOptions_efi (by decide) (hbytes 1 (by omega)) (hbytes 2 (by omega))
      _ = .ok (.ofEfi (p.data 10) (p.data 11)) := parseOptions_stop
      _ = _ := congrArg Parsed.ok (congrArg₂ Scheme.ofEfi (hbytes 3 (by omega)) (hbytes 4 (by omega)))

def samplePayload (packet : Bytes) : Payload :=
  ⟨fun i => packet.getD i 0, UInt16.ofNat packet.length, 0, false, false, false, false⟩

theorem carries_samplePayload {packet : Bytes} (h : packet.length < 65536) : (samplePayload packet).Carries packet :=
  ⟨UInt16.toNat_ofNat_of_lt' h, fun _ hi => List.getD_eq_getElem _ _ hi⟩

/-- A command is delivered exactly if the multicast option, where there is one, leaves the packet in the buffer,
and the scheme is one that has an encapsulation format. -/
theorem delivered_iff (net : Scheme) (seqNo : UInt8) (c : Connection) (data : Bytes) (ackreq : Bool) :
    (∀ packet ∈ sendDataUdp net seqNo c data ackreq, Delivered packet (effectiveScheme net c) data) ↔
      (data.length ≤ maxUdpPayloadLen → (isMulti c = true → data.length ≤ maxUdpPayloadLen - 2) ∧
        effectiveScheme net c ≠ .autoScheme ∧ effectiveScheme net c ≠ .netScheme ∧
          effectiveScheme net c ≠ .schemeUdp) := by
  have hsize : udpBufferSize < data.length + maxZipHeaderSize ↔ ¬data.length ≤ maxUdpPayloadLen := by
    unfold udpBufferSize
    omega
  have hbuffer : udpBufferSize = 524 := rfl
  have hmax : maxUdpPayloadLen = 512 := rfl
  unfold sendDataUdp
  by_cases hlarge : data.length ≤ maxUdpPayloadLen
  · rw [if_neg fun h => hsize.mp h hlarge]
    have hlength : (zipHeader c seqNo ackreq data.length ++ zipExtension net c ++ data).length =
        7 + (zipExtension net c).length + data.length := by
      rw [List.length_append, List.length_append]
      rfl
    have hinside : 7 + (zipExtension net c).length + data.length ≤ udpBufferSize ↔
        (isMulti c = true → data.length ≤ maxUdpPayloadLen - 2) := by
      rw [zipExtension_length]
      by_cases hmulti : isMulti c = true
      · rw [if_pos hmulti]
        exact ⟨fun h _ => by omega, fun h => by have := h hmulti; omega⟩
      · rw [if_neg hmulti]
        exact ⟨fun _ h => absurd h hmulti, fun _ => by omega⟩
    rw [← ofEfi_efi_iff, ← hinside]
    constructor
    · intro h _
      have hdelivered := h _ rfl
      have hext : (zipExtension net c).length ≤ 7 := by
        rw [zipExtension_length]
        split <;> omega
      have hcarries := @carries_samplePayload (zipHeader c seqNo ackreq data.length ++ zipExtension net c ++ data)
        (by rw [hlength]; omega)
      refine ⟨hlength ▸ hdelivered.inside, ?_⟩
      have hparsed := hdelivered.parsed _ hcarries
      rw [parse_eq hcarries] at hparsed
      exact Parsed.ok.inj hparsed
    · rintro h packet ⟨⟩
      obtain ⟨hroom, hefi⟩ := h hlarge
      refine ⟨hlength ▸ hroom, fun p hp => ?_, fun p hp => ?_⟩
      · rw [parse_eq hp, hefi]
      · obtain ⟨-, hextension, hpayload⟩ := extension_eq hp
        refine ⟨?_, fun i hi => ?_⟩
        · rw [Payload.command, hpayload, hextension]
          exact Nat.add_sub_cancel_left ..
        · rw [Payload.command, hextension]
          exact (carries_bytes hp).2.2 i hi
  · rw [if_pos (hsize.mpr hlarge)]
    exact ⟨fun _ h => absurd h hlarge, fun _ _ h => by cases h⟩

theorem delivered_not : ¬ ∀ (net : Scheme) (seqNo : UInt8) (c : Connection) (data : Bytes) (ackreq : Bool),
    ∀ packet ∈ sendDataUdp net seqNo c data ackreq, Delivered packet (effectiveScheme net c) data := by
  intro hall
  let c : Connection := ⟨.noScheme, 0, false, receiveStatusTypeMulti, false, 0, 0, 0⟩
  have hlength : (List.replicate 512 (0 : UInt8)).length = 512 := List.length_replicate
  have hsent : zipHeader c 0 false 512 ++ zipExtension .noScheme c ++ List.replicate 512 0 ∈
      sendDataUdp .noScheme 0 c (List.replicate 512 0) false := by
    rw [sendDataUdp, hlength, if_neg (by decide)]
    rfl
  have hinside := (hall _ _ _ _ _ _ hsent).inside
  rw [List.length_append, List.length_append, hlength] at hinside
  exact absurd hinside (by decide)

end Sending
end ZipGateway.Udp

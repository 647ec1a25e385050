import ZipGateway.ClassicZip.Input

/-!
# What is read of a Z/IP packet, and what is given on

The input of a classic node checks the length of the options against the packet, but not that the packet
holds its own header, nor that the size of the extended header is not zero. A Supervision encapsulation is
believed about the length of its command, and a proxy IP association gets the bytes behind the Z/IP header,
whether these are the command or an extended header.
-/

namespace ZipGateway.ClassicZip

open Udp (Scheme zipHeaderSize flags1ZwCmdIncl commandClassSupervision supervisionGet)

namespace Packet

variable (p : Packet)

def extension : Nat :=
  if p.hasExtension then (p.data zipHeaderSize).toNat else 0

def commandLen : Nat :=
  p.len.toNat - (zipHeaderSize + p.extension)

def command : Bytes :=
  p.data.slice (zipHeaderSize + p.extension) p.commandLen

end Packet

/-- What is read lies inside the packet, what is taken to be there is there, and what is given on is the
command. -/
def Action.Fits (p : Packet) : Action → Prop
  | .read offset => offset < p.len.toNat
  | .taken offset length => offset + length ≤ p.len.toNat
  | .forwarded _ data => data = p.command
  | _ => True

def Safe (p : Packet) (actions : List Action) : Prop :=
  ∀ a ∈ actions, a.Fits p

section Condition

variable (w : World) (p : Packet)

def IsSupervisionGet (offset : Nat) : Prop :=
  p.data offset = commandClassSupervision ∧ p.data (offset + 1) = supervisionGet

/-- A command has the bytes read of it; one for an IP association or a version is taken to have the length of
the outer one. -/
structure Contained (outerLen : UInt8) (offset : Nat) : Prop where
  cmdClass : offset < p.len.toNat
  ipAssociation : p.data offset = commandClassIpAssociation →
    offset + 1 < p.len.toNat ∧ offset + outerLen.toNat ≤ p.len.toNat
  version : p.data offset = commandClassVersion → offset + outerLen.toNat ≤ p.len.toNat
  supervision : p.data offset = commandClassSupervision → offset + 1 < p.len.toNat
  encapsulated : IsSupervisionGet p offset → offset + 4 + (p.data (offset + 3)).toNat ≤ p.len.toNat

def AllContained (outerLen : UInt8) (offset : Nat) : Prop :=
  ∀ k, (∀ j < k, IsSupervisionGet p (offset + 4 * j)) → Contained p outerLen (offset + 4 * k)

def Packet.originOk : Prop :=
  p.secureOrigin = true → p.secure = true

/-- The packet comes with a command that can be given on: its extended header, if it has one, is spelled well,
and the command has a length that the buffer holds. -/
structure Considered : Prop where
  isZip : p.isZip = true
  origin : p.originOk
  options : p.hasExtension = true → p.data zipHeaderSize ≠ 1 ∧
    ∃ opts, Spells opts (p.data.slice (zipHeaderSize + 1) ((p.data zipHeaderSize).toNat - 1))
  included : p.flags1 &&& flags1ZwCmdIncl ≠ 0
  nonempty : 0 < p.commandLen
  fits : p.commandLen ≤ classicTxBufSize.toNat
  free : w.busy = false

/-- A packet that is handled without reading beyond its end, and whose command is given on as it is. -/
structure Sound : Prop where
  start : 0 < p.len.toNat
  second : p.data 0 = commandClassZip ∨ p.data 0 = 0x16 → 1 < p.len.toNat
  third : p.data 0 = 0x16 → p.data 1 = 0xFE → 2 < p.len.toNat
  header : p.isZip = true → zipHeaderSize ≤ p.len.toNat
  size : p.isZip = true → p.originOk → p.hasExtension = true → zipHeaderSize < p.len.toNat ∧
    p.data zipHeaderSize ≠ 0 ∧ zipHeaderSize + (p.data zipHeaderSize).toNat ≠ p.len.toNat + 1
  options : p.isZip = true → p.originOk → p.hasExtension = true →
    zipHeaderSize + (p.data zipHeaderSize).toNat ≤ p.len.toNat → ¬BreaksOff ((p.data zipHeaderSize).toNat - 1)
        (p.data.slice (zipHeaderSize + 1) (p.len.toNat - (zipHeaderSize + 1)))
  proxied : Considered w p → w.proxied = true → p.data.slice zipHeaderSize p.commandLen = p.command
  nested : Considered w p → w.proxied = false → AllContained p (UInt8.ofNat p.commandLen) (zipHeaderSize + p.extension)
  update : Considered w p → w.proxied = false → w.tempAssocCreated = true →
    p.data (zipHeaderSize + p.extension) = commandClassFirmwareUpdateMd → 1 < p.commandLen

end Condition

variable {ackReq : Bool} {payload : Nat} {scheme : Scheme} {zipPayloadLen : UInt16} {len : UInt8}

section Handlers

variable {w : World} {p : Packet}

@[simp]
theorem safe_nil : Safe p [] :=
  fun _ ha => absurd ha List.not_mem_nil

@[simp]
theorem safe_cons {a : Action} {actions : List Action} : Safe p (a :: actions) ↔ a.Fits p ∧ Safe p actions :=
  List.forall_mem_cons

@[simp]
theorem safe_append {actions actions' : List Action} :
    Safe p (actions ++ actions') ↔ Safe p actions ∧ Safe p actions' :=
  List.forall_mem_append

theorem safe_ite {c : Prop} [Decidable c] {actions actions' : List Action} (h : Safe p actions)
    (h' : Safe p actions') : Safe p (if c then actions else actions') := by
  split
  · exact h
  · exact h'

theorem safe_dropFrame : Safe p (dropFrame w) := by
  unfold dropFrame
  rw [safe_append]
  exact ⟨safe_ite (by simp [Action.Fits]) safe_nil, by simp [Action.Fits]⟩

theorem safe_optError : Safe p (optError w) := by
  unfold optError
  rw [safe_append]
  exact ⟨safe_ite (by simp [Action.Fits]) safe_nil, by simp [Action.Fits]⟩

theorem safe_handleIpAssociation : Safe p (handleIpAssociation w p payload len).1 ↔
      payload + len.toNat ≤ p.len.toNat ∧ payload + 1 < p.len.toNat := by
  unfold handleIpAssociation
  dsimp only
  rw [safe_append]
  refine (and_iff_left ?_).trans ?_
  · exact safe_ite (by simp [Action.Fits]) (safe_ite (by simp [Action.Fits]) (by simp [Action.Fits]))
  · simp [Action.Fits]

theorem safe_handleVersion : Safe p (handleVersion p payload len ackReq).1 ↔ payload + len.toNat ≤ p.len.toNat := by
  unfold handleVersion
  by_cases hshort : len < versionGetFrameSize
  · rw [if_pos hshort]
    simp [Action.Fits]
  rw [if_neg hshort]
  have hlen : 3 ≤ len.toNat := by
    rw [UInt8.not_lt, UInt8.le_iff_toNat_le] at hshort
    exact hshort
  by_cases hget : p.data (payload + 1) = versionCommandClassGet
  · rw [if_pos hget]
    dsimp only
    have hreads : Safe p [.taken payload len.toNat, .read (payload + 1), .read (payload + 2)] ↔
        payload + len.toNat ≤ p.len.toNat := by
      simp only [safe_cons, safe_nil, Action.Fits, and_true]
      exact ⟨And.left, fun hle => ⟨hle, by omega, by omega⟩⟩
    by_cases hversion : theVersion (p.data (payload + 2)) ≠ 0
    · rw [if_pos hversion, safe_append, safe_append, hreads]
      refine (and_iff_left (by simp [Action.Fits])).trans (and_iff_left ?_)
      exact safe_ite (by simp [Action.Fits]) safe_nil
    · rw [if_neg hversion]
      exact hreads
  · rw [if_neg hget]
    simp only [safe_cons, safe_nil, Action.Fits, and_true]
    exact ⟨And.left, fun hle => ⟨hle, by omega⟩⟩

theorem allContained_iff {outerLen : UInt8} {offset : Nat} :
    AllContained p outerLen offset ↔ Contained p outerLen offset ∧
      (IsSupervisionGet p offset → AllContained p outerLen (offset + 4)) := by
  have hshift : ∀ j, offset + 4 + 4 * j = offset + 4 * (j + 1) := fun j => by omega
  constructor
  · intro h
    refine ⟨h 0 fun j hj => absurd hj (Nat.not_lt_zero j), fun hget k hk => ?_⟩
    rw [hshift]
    refine h (k + 1) fun j hj => ?_
    cases j with
    | zero => exact hget
    | succ j => exact hshift j ▸ hk j (Nat.lt_of_succ_lt_succ hj)
  · rintro ⟨hfirst, hrest⟩ k hk
    cases k with
    | zero => exact hfirst
    | succ k =>
      rw [← hshift]
      refine hrest (hk 0 (Nat.succ_pos k)) k fun j hj => ?_
      rw [hshift]
      exact hk (j + 1) (Nat.succ_lt_succ hj)

theorem safe_proxyCommandHandler {n payload : Nat} (hfuel : p.len.toNat < payload + 4 * n)
    (hlen : payload + len.toNat ≤ p.len.toNat) :
    Safe p (proxyCommandHandler w p zipPayloadLen ackReq n payload len).1 ↔
      AllContained p zipPayloadLen.toUInt8 payload := by
  induction n generalizing payload len with
  | zero => omega
  | succ n ih =>
    rw [allContained_iff]
    have hget : p.data payload ≠ commandClassSupervision → ¬IsSupervisionGet p payload := fun hne h => hne h.1
    unfold proxyCommandHandler
    dsimp only
    by_cases hip : p.data payload = commandClassIpAssociation
    · have hother : p.data payload ≠ commandClassSupervision := by rw [hip]; decide
      rw [if_pos hip]
      dsimp only
      rw [safe_append, safe_cons, safe_handleIpAssociation]
      have htimer : Safe p (if ackReq = true then [Action.nakWaitTimer] else []) :=
        safe_ite (by simp [Action.Fits]) safe_nil
      constructor
      · rintro ⟨⟨hread, -⟩, htaken, hcmd⟩
        exact ⟨⟨hread, fun _ => ⟨hcmd, htaken⟩, fun h => absurd (hip.symm.trans h) (by decide),
          fun h => absurd h hother, fun h => absurd h (hget hother)⟩, fun h => absurd h (hget hother)⟩
      · rintro ⟨h, -⟩
        exact ⟨⟨h.cmdClass, htimer⟩, (h.ipAssociation hip).2, (h.ipAssociation hip).1⟩
    rw [if_neg hip]
    by_cases hnaming : p.data payload = commandClassZipNaming
    · have hother : p.data payload ≠ commandClassSupervision := by rw [hnaming]; decide
      rw [if_pos hnaming]
      simp only [safe_append, safe_cons, safe_nil, and_true]
      have hack : Safe p (if ackReq = true then [Action.udpStatus Udp.flags0AckRes] else []) :=
        safe_ite (by simp [Action.Fits]) safe_nil
      have hdone : Safe p (if w.commandHandled payload len = true then
          [Action.sendCompleted transmitCompleteOk] else []) := safe_ite (by simp [Action.Fits]) safe_nil
      constructor
      · rintro ⟨⟨⟨hread, -⟩, -⟩, -⟩
        exact ⟨⟨hread, fun h => absurd h hip, fun h => absurd (hnaming.symm.trans h) (by decide),
          fun h => absurd h hother, fun h => absurd h (hget hother)⟩, fun h => absurd h (hget hother)⟩
      · rintro ⟨h, -⟩
        exact ⟨⟨⟨h.cmdClass, hack⟩, hlen⟩, hdone⟩
    rw [if_neg hnaming]
    by_cases hversion : p.data payload = commandClassVersion
    · have hother : p.data payload ≠ commandClassSupervision := by rw [hversion]; decide
      rw [if_pos hversion]
      dsimp only
      rw [safe_cons, safe_handleVersion]
      constructor
      · rintro ⟨hread, htaken⟩
        exact ⟨⟨hread, fun h => absurd h hip, fun _ => htaken, fun h => absurd h hother,
          fun h => absurd h (hget hother)⟩, fun h => absurd h (hget hother)⟩
      · rintro ⟨h, -⟩
        exact ⟨h.cmdClass, h.version hversion⟩
    rw [if_neg hversion]
    by_cases hsupervision : p.data payload = commandClassSupervision
    · rw [if_pos hsupervision]
      by_cases hcmd : p.data (payload + 1) = supervisionGet
      · rw [if_pos hcmd]
        dsimp only
        simp only [safe_append, safe_cons, safe_nil, and_true]
        -- The report reads a byte between those that are read before.
        constructor
        · rintro ⟨⟨⟨hread, hcmd', -, htaken⟩, hrest⟩, -⟩
          have htaken' : payload + 4 + (p.data (payload + 3)).toNat ≤ p.len.toNat := htaken
          refine ⟨⟨hread, fun h => absurd h hip, fun h => absurd h hversion, fun _ => hcmd', fun _ => htaken'⟩,
            fun _ => ?_⟩
          exact (ih (by omega) htaken').mp hrest
        · rintro ⟨h, hnested⟩
          have htaken := h.encapsulated ⟨hsupervision, hcmd⟩
          have hrest := (ih (by omega) htaken).mpr (hnested ⟨hsupervision, hcmd⟩)
          refine ⟨⟨⟨h.cmdClass, h.supervision hsupervision, ?_, htaken⟩, hrest⟩, ?_⟩
          · change payload + 3 < p.len.toNat
            omega
          · refine safe_ite ?_ safe_nil
            simp only [safe_cons, safe_nil, Action.Fits, and_true]
            omega
      · rw [if_neg hcmd]
        have hnone : ¬IsSupervisionGet p payload := fun h => hcmd h.2
        simp only [safe_cons, safe_nil, and_true]
        constructor
        · rintro ⟨hread, hcmd'⟩
          exact ⟨⟨hread, fun h => absurd h hip, fun h => absurd h hversion, fun _ => hcmd',
            fun h => absurd h hnone⟩, fun h => absurd h hnone⟩
        · rintro ⟨h, -⟩
          exact ⟨h.cmdClass, h.supervision hsupervision⟩
    · rw [if_neg hsupervision]
      simp only [safe_cons, safe_nil, and_true]
      constructor
      · intro hread
        exact ⟨⟨hread, fun h => absurd h hip, fun h => absurd h hversion, fun h => absurd h hsupervision,
          fun h => absurd h (hget hsupervision)⟩, fun h => absurd h (hget hsupervision)⟩
      · rintro ⟨h, -⟩
        exact h.cmdClass

end Handlers

section Input

variable {w : World} {p : Packet}

theorem safe_forwardCommand (hend : payload + zipPayloadLen.toNat = p.len.toNat) (hpos : 0 < zipPayloadLen.toNat)
    (hcommand : p.data.slice payload zipPayloadLen.toNat = p.command) :
    Safe p (forwardCommand w p zipPayloadLen payload scheme) ↔ (w.tempAssocCreated = true →
      p.data payload = commandClassFirmwareUpdateMd → 1 < zipPayloadLen.toNat) := by
  unfold forwardCommand
  rw [safe_cons]
  refine (and_iff_right (Nat.le_of_eq hend)).trans ?_
  by_cases hcreated : w.tempAssocCreated = true
  · rw [if_pos hcreated, safe_append]
    have hgiven : Safe p [.forwarded scheme (p.data.slice payload zipPayloadLen.toNat), .read payload] := by
      simp only [safe_cons, safe_nil, Action.Fits, and_true]
      exact ⟨hcommand, by omega⟩
    refine (and_iff_right hgiven).trans ?_
    by_cases hupdate : p.data payload = commandClassFirmwareUpdateMd
    · rw [if_pos hupdate]
      simp only [safe_cons, safe_nil, Action.Fits, and_true, hcreated, hupdate, forall_const]
      omega
    · rw [if_neg hupdate]
      exact iff_of_true safe_nil fun _ h => absurd h hupdate
  · rw [if_neg hcreated]
    refine iff_of_true ?_ fun h => absurd h hcreated
    rw [safe_append]
    exact ⟨safe_ite (by simp [Action.Fits]) safe_nil, by simp [Action.Fits]⟩

theorem proxyCommandHandler_update {n payload : Nat} (h : p.data payload = commandClassFirmwareUpdateMd) :
    (proxyCommandHandler w p zipPayloadLen ackReq n payload len).2 = false := by
  cases n with
  | zero => rfl
  | succ n =>
    have hip : ¬p.data payload = commandClassIpAssociation := by rw [h]; decide
    have hnaming : ¬p.data payload = commandClassZipNaming := by rw [h]; decide
    have hversion : ¬p.data payload = commandClassVersion := by rw [h]; decide
    have hsupervision : ¬p.data payload = commandClassSupervision := by rw [h]; decide
    unfold proxyCommandHandler
    dsimp only
    rw [if_neg hip, if_neg hnaming, if_neg hversion, if_neg hsupervision]

structure Remaining (p : Packet) (zipPayloadLen : UInt16) (payload : Nat) : Prop where
  start : payload = zipHeaderSize + p.extension
  length : payload + zipPayloadLen.toNat = p.len.toNat

theorem Remaining.commandLen (h : Remaining p zipPayloadLen payload) : p.commandLen = zipPayloadLen.toNat := by
  rw [Packet.commandLen, ← h.start, ← h.length, Nat.add_sub_cancel_left]

theorem Remaining.command (h : Remaining p zipPayloadLen payload) :
    p.data.slice payload zipPayloadLen.toNat = p.command := by
  rw [Packet.command, h.commandLen, ← h.start]

structure CommandSound (w : World) (p : Packet) : Prop where
  proxied : w.proxied = true → p.data.slice zipHeaderSize p.commandLen = p.command
  nested : w.proxied = false → AllContained p (UInt8.ofNat p.commandLen) (zipHeaderSize + p.extension)
  update : w.proxied = false → w.tempAssocCreated = true →
    p.data (zipHeaderSize + p.extension) = commandClassFirmwareUpdateMd → 1 < p.commandLen

theorem safe_zipCommand (h : Remaining p zipPayloadLen payload) : Safe p (zipCommand w p zipPayloadLen payload scheme) ↔
      (p.flags1 &&& flags1ZwCmdIncl ≠ 0 → 0 < p.commandLen → p.commandLen ≤ classicTxBufSize.toNat →
        w.busy = false → CommandSound w p) := by
  unfold zipCommand
  have hlen := h.commandLen
  by_cases hnone : p.flags1 &&& flags1ZwCmdIncl = 0 ∨ zipPayloadLen = 0
  · rw [if_pos hnone]
    refine iff_of_true safe_dropFrame fun hincluded hpos => ?_
    rcases hnone with hnone | hzero
    · exact absurd hnone hincluded
    · rw [hlen, hzero] at hpos
      exact absurd hpos (Nat.lt_irrefl 0)
  rw [if_neg hnone]
  obtain ⟨hincluded, hnonzero⟩ := not_or.mp hnone
  by_cases hlarge : classicTxBufSize < zipPayloadLen
  · rw [if_pos hlarge]
    refine iff_of_true safe_dropFrame fun _ _ hfits => ?_
    rw [hlen] at hfits
    exact absurd (UInt16.lt_iff_toNat_lt.mp hlarge) (Nat.not_lt.mpr hfits)
  rw [if_neg hlarge]
  have hpos : 0 < zipPayloadLen.toNat :=
    Nat.pos_of_ne_zero fun hzero => hnonzero (UInt16.toNat_inj.mp hzero)
  have hread : payload < p.len.toNat := by
    have := h.length
    omega
  have hstart : 0 < p.len.toNat := Nat.lt_of_le_of_lt (Nat.zero_le _) hread
  by_cases hbusy : w.busy = true
  · rw [if_pos hbusy]
    refine iff_of_true ?_ fun _ _ _ hfree => absurd (hbusy.symm.trans hfree) (by decide)
    simp only [safe_cons, safe_nil, Action.Fits, and_true, true_and]
    exact ⟨hread, hstart⟩
  rw [if_neg hbusy]
  have hconsidered : (p.flags1 &&& flags1ZwCmdIncl ≠ 0 → 0 < p.commandLen →
      p.commandLen ≤ classicTxBufSize.toNat → w.busy = false → CommandSound w p) ↔ CommandSound w p := by
    refine ⟨fun hall => hall hincluded (hlen ▸ hpos) ?_ (Bool.not_eq_true _ ▸ hbusy), fun hall _ _ _ _ => hall⟩
    rw [hlen]
    exact UInt16.le_iff_toNat_le.mp (UInt16.not_lt.mp hlarge)
  rw [hconsidered]
  by_cases hproxied : w.proxied = true
  · rw [if_pos hproxied]
    simp only [safe_cons, safe_nil, Action.Fits, and_true]
    have hnot : ¬w.proxied = false := by rw [hproxied]; decide
    constructor
    · rintro ⟨-, hforwarded⟩
      exact ⟨fun _ => hlen.symm ▸ hforwarded, fun h => absurd h hnot, fun h => absurd h hnot⟩
    · exact fun hsound => ⟨hread, hlen ▸ hsound.proxied hproxied⟩
  rw [if_neg hproxied]
  have hnot : w.proxied = false := Bool.not_eq_true _ ▸ hproxied
  have hfuel : p.len.toNat < payload + 4 * p.len.toNat := by
    have := h.length
    omega
  have hshort : payload + zipPayloadLen.toUInt8.toNat ≤ p.len.toNat := by
    rw [UInt16.toNat_toUInt8]
    have := h.length
    have := Nat.mod_le zipPayloadLen.toNat (2 ^ 8)
    omega
  have houter : zipPayloadLen.toUInt8 = UInt8.ofNat p.commandLen := by
    rw [hlen]
    rfl
  have hhandler : Safe p (proxyCommandHandler w p zipPayloadLen p.ackReq p.len.toNat payload
      zipPayloadLen.toUInt8).1 ↔ _ := safe_proxyCommandHandler hfuel hshort
  have hforward : Safe p (forwardCommand w p zipPayloadLen payload scheme) ↔ _ :=
    safe_forwardCommand h.length hpos h.command
  rw [safe_append, safe_cons]
  constructor
  · rintro ⟨⟨-, hactions⟩, hrest⟩
    refine ⟨fun h => absurd h hproxied, fun _ => ?_, fun _ hcreated hupdate => ?_⟩
    · rw [← houter, ← h.start]
      exact hhandler.mp hactions
    · rw [← h.start] at hupdate
      rw [proxyCommandHandler_update hupdate, if_neg Bool.false_ne_true] at hrest
      rw [hlen]
      exact hforward.mp hrest hcreated hupdate
  · intro hsound
    refine ⟨⟨hread, hhandler.mpr ?_⟩, safe_ite safe_nil (hforward.mpr fun hcreated hupdate => ?_)⟩
    · rw [houter, h.start]
      exact hsound.nested hnot
    · rw [h.start] at hupdate
      rw [← hlen]
      exact hsound.update hnot hcreated hupdate

theorem toNat_optionLength {size : UInt8} (h : 1 ≤ size.toNat) : (size.toUInt16 - 1).toNat = size.toNat - 1 := by
  have hsub := UInt16.toNat_sub_of_le size.toUInt16 1 (by
    rw [UInt16.le_iff_toNat_le, UInt8.toNat_toUInt16]
    exact h)
  rw [hsub, UInt8.toNat_toUInt16]
  rfl

theorem safe_options_iff {s : Scheme} {length : UInt16} {n : Nat} (hlength : length.toNat = n)
    (hroom : n ≤ p.len.toNat - (zipHeaderSize + 1)) :
    Safe p ((parseCcZipExtHdr (fun i => p.data (zipHeaderSize + 1 + i)) length s).reads.map fun i =>
      .read (zipHeaderSize + 1 + i)) ↔
      ¬BreaksOff n (p.data.slice (zipHeaderSize + 1) (p.len.toNat - (zipHeaderSize + 1))) := by
  subst hlength
  have hinside : (∀ i ∈ (parseCcZipExtHdr (fun i => p.data (zipHeaderSize + 1 + i)) length s).reads,
      i < p.len.toNat - (zipHeaderSize + 1)) ↔ _ := inside_iff hroom
  rw [Mem.slice_shift] at hinside
  rw [← hinside, Safe, List.forall_mem_map]
  refine forall₂_congr fun i _ => ?_
  change zipHeaderSize + 1 + i < p.len.toNat ↔ _
  omega

theorem safe_zipExtension (hextension : p.hasExtension = true)
    (hlen : zipHeaderSize + zipPayloadLen.toNat = p.len.toNat) :
    Safe p (zipExtension w p zipPayloadLen scheme) ↔ (zipHeaderSize < p.len.toNat ∧ p.data zipHeaderSize ≠ 0 ∧
        zipHeaderSize + (p.data zipHeaderSize).toNat ≠ p.len.toNat + 1) ∧
      (zipHeaderSize + (p.data zipHeaderSize).toNat ≤ p.len.toNat → ¬BreaksOff ((p.data zipHeaderSize).toNat - 1)
          (p.data.slice (zipHeaderSize + 1) (p.len.toNat - (zipHeaderSize + 1)))) ∧
      ((p.data zipHeaderSize ≠ 1 ∧
          ∃ opts, Spells opts (p.data.slice (zipHeaderSize + 1) ((p.data zipHeaderSize).toNat - 1))) →
        p.flags1 &&& flags1ZwCmdIncl ≠ 0 → 0 < p.commandLen → p.commandLen ≤ classicTxBufSize.toNat →
          w.busy = false → CommandSound w p) := by
  have hsize : p.extension = (p.data zipHeaderSize).toNat := by
    rw [Packet.extension, if_pos hextension]
  have hcommandLen : p.commandLen = p.len.toNat - (zipHeaderSize + (p.data zipHeaderSize).toNat) := by
    rw [Packet.commandLen, hsize]
  have hread : (Action.read zipHeaderSize).Fits p ↔ zipHeaderSize < p.len.toNat := Iff.rfl
  unfold zipExtension
  dsimp only
  generalize hbyte : p.data zipHeaderSize = size at *
  have hlt : size.toNat < 256 := size.toNat_lt
  have hlenLt : p.len.toNat < 65536 := p.len.toNat_lt
  by_cases hbad : size = 1 ∨ (size.toNat : Int) - 1 > zipPayloadLen.toNat
  · rw [if_pos hbad, safe_cons, hread]
    refine (and_iff_left safe_dropFrame).trans ⟨fun hfits => ?_, fun h => h.1.1⟩
    rcases hbad with rfl | hlarge
    · refine ⟨⟨hfits, by decide, ?_⟩, fun _ => not_breaksOff_zero _, fun h => absurd rfl h.1⟩
      change zipHeaderSize + 1 ≠ _
      omega
    · refine ⟨⟨hfits, ?_, by omega⟩, fun _ => by omega, fun _ _ hpos => by omega⟩
      rintro rfl
      change ((0 : Nat) : Int) - 1 > _ at hlarge
      omega
  rw [if_neg hbad]
  obtain ⟨hone, hsmall⟩ := not_or.mp hbad
  by_cases hzero : size = 0
  · -- The length of the options wraps around.
    subst hzero
    refine iff_of_false ?_ fun h => h.1.2.1 rfl
    rw [safe_append, safe_append, safe_cons, safe_cons]
    rintro ⟨⟨⟨-, htaken, -⟩, -⟩, -⟩
    change zipHeaderSize + 1 + 65535 ≤ p.len.toNat at htaken
    omega
  have hpos : 2 ≤ size.toNat := by
    have h0 : size.toNat ≠ 0 := fun h => hzero (UInt8.toNat_inj.mp h)
    have h1 : size.toNat ≠ 1 := fun h => hone (UInt8.toNat_inj.mp h)
    omega
  have hlength := toNat_optionLength (Nat.le_of_succ_le hpos)
  have htaken : (Action.taken (zipHeaderSize + 1) (size.toNat - 1)).Fits p ↔
      zipHeaderSize + size.toNat ≤ p.len.toNat := by
    change zipHeaderSize + 1 + (size.toNat - 1) ≤ p.len.toNat ↔ _
    omega
  rw [safe_append, safe_append, safe_cons, safe_cons, hread, hlength, htaken]
  by_cases hholds : zipHeaderSize + size.toNat ≤ p.len.toNat
  swap
  · refine iff_of_false (fun h => hholds h.1.1.2.1) fun h => h.1.2.2 ?_
    omega
  have hinside := safe_options_iff (p := p) (s := scheme) hlength (by omega)
  have hsuccess : (parseCcZipExtHdr (fun i => p.data (zipHeaderSize + 1 + i)) (size.toUInt16 - 1) scheme).rc =
      .success ↔ ∃ opts, Spells opts (p.data.slice (zipHeaderSize + 1) (size.toNat - 1)) := by
    rw [success_iff, Mem.slice_shift, hlength]
  have hremaining : Remaining p (zipPayloadLen - (size.toUInt16 - 1 + 1)) (zipHeaderSize + (size.toNat - 1 + 1)) := by
    have hsame : size.toUInt16 - 1 + 1 = size.toUInt16 := by simp
    have hrest := UInt16.toNat_sub_of_le zipPayloadLen size.toUInt16 (by
      rw [UInt16.le_iff_toNat_le, UInt8.toNat_toUInt16]
      omega)
    rw [UInt8.toNat_toUInt16] at hrest
    constructor
    · rw [hsize]
      omega
    · rw [hsame, hrest]
      omega
  rw [hinside]
  generalize parseCcZipExtHdr (fun i => p.data (zipHeaderSize + 1 + i)) (size.toUInt16 - 1) scheme = hdr at hsuccess ⊢
  have hheld : zipHeaderSize < p.len.toNat ∧ size ≠ 0 ∧ zipHeaderSize + size.toNat ≠ p.len.toNat + 1 :=
    ⟨by omega, hzero, by omega⟩
  cases hrc : hdr.rc with
  | success =>
    have hspelled := hsuccess.mp hrc
    have hcommand : Safe p (zipCommand w p (zipPayloadLen - (size.toUInt16 - 1 + 1))
        (zipHeaderSize + (size.toNat - 1 + 1)) hdr.scheme) ↔ _ := safe_zipCommand hremaining
    dsimp only
    rw [safe_cons, hcommand]
    constructor
    · rintro ⟨⟨-, hbreaks⟩, -, hsound⟩
      exact ⟨hheld, fun _ => hbreaks, fun _ => hsound⟩
    · rintro ⟨-, hbreaks, hsound⟩
      exact ⟨⟨⟨hheld.1, hholds, safe_nil⟩, hbreaks hholds⟩, Nat.le_of_eq hremaining.length, hsound ⟨hone, hspelled⟩⟩
  | dropFrame | optError =>
    have hfailed : ¬∃ opts, Spells opts (p.data.slice (zipHeaderSize + 1) (size.toNat - 1)) := by
      rw [← hsuccess, hrc]
      decide
    constructor
    · rintro ⟨⟨-, hbreaks⟩, -⟩
      exact ⟨hheld, fun _ => hbreaks, fun hspelled => absurd hspelled.2 hfailed⟩
    · rintro ⟨-, hbreaks, -⟩
      refine ⟨⟨⟨hheld.1, hholds, safe_nil⟩, hbreaks hholds⟩, ?_⟩
      first | exact safe_dropFrame | exact safe_optError

theorem safe_notZip : Safe p (notZip p) ↔ (p.data 0 = 0x16 → 1 < p.len.toNat) ∧
      (p.data 0 = 0x16 → p.data 1 = 0xFE → 2 < p.len.toNat) := by
  unfold notZip
  rw [safe_append]
  refine (and_iff_left (by simp [Action.Fits])).trans ?_
  by_cases hstart : p.data 0 = 0x16
  · rw [if_pos hstart, safe_cons]
    by_cases hsecond : p.data 1 = 0xFE
    · rw [if_pos hsecond, safe_cons]
      simp only [safe_nil, and_true, hstart, hsecond, forall_const]
      exact Iff.rfl
    · rw [if_neg hsecond]
      simp only [safe_nil, and_true, hstart, hsecond, forall_const, false_imp_iff]
      exact Iff.rfl
  · rw [if_neg hstart]
    exact iff_of_true safe_nil ⟨fun h => absurd h hstart, fun h => absurd h hstart⟩

structure ZipSound (w : World) (p : Packet) : Prop where
  header : zipHeaderSize ≤ p.len.toNat
  size : p.originOk → p.hasExtension = true → zipHeaderSize < p.len.toNat ∧
    p.data zipHeaderSize ≠ 0 ∧ zipHeaderSize + (p.data zipHeaderSize).toNat ≠ p.len.toNat + 1
  options : p.originOk → p.hasExtension = true → zipHeaderSize + (p.data zipHeaderSize).toNat ≤ p.len.toNat →
      ¬BreaksOff ((p.data zipHeaderSize).toNat - 1)
        (p.data.slice (zipHeaderSize + 1) (p.len.toNat - (zipHeaderSize + 1)))
  command : Considered w p → CommandSound w p

theorem safe_zipPacket (hzip : p.isZip = true) : Safe p (zipPacket w p) ↔ ZipSound w p := by
  unfold zipPacket
  dsimp only
  rw [safe_append]
  by_cases hheader : zipHeaderSize ≤ p.len.toNat
  swap
  · refine iff_of_false (fun h => ?_) fun h => hheader h.header
    have hread : (Action.read 6).Fits p := h.1 _ (by simp)
    change 6 < p.len.toNat at hread
    change ¬7 ≤ p.len.toNat at hheader
    omega
  have hlen : zipHeaderSize + (p.len - UInt16.ofNat zipHeaderSize).toNat = p.len.toNat := by
    have hsub := UInt16.toNat_sub_of_le p.len (UInt16.ofNat zipHeaderSize) (by
      rw [UInt16.le_iff_toNat_le]
      exact hheader)
    rw [hsub]
    change 7 + (p.len.toNat - 7) = p.len.toNat
    change 7 ≤ p.len.toNat at hheader
    omega
  have hfields : Safe p [.taken zipHeaderSize (p.len - UInt16.ofNat zipHeaderSize).toNat, .read 2, .read 4,
      .read 6, .read 5, .read 3] := by
    change 7 ≤ p.len.toNat at hheader
    simp only [safe_cons, safe_nil, Action.Fits, and_true]
    exact ⟨Nat.le_of_eq hlen, by omega, by omega, by omega, by omega, by omega⟩
  refine (and_iff_right hfields).trans ?_
  by_cases horigin : p.secureOrigin = true ∧ ¬p.secure = true
  · rw [if_pos horigin]
    have hnot : ¬p.originOk := fun hok => horigin.2 (hok horigin.1)
    exact iff_of_true safe_dropFrame ⟨hheader, fun h => absurd h hnot, fun h => absurd h hnot,
      fun h => absurd h.origin hnot⟩
  rw [if_neg horigin, safe_append]
  have hok : p.originOk := fun hflag => by
    by_contra hinsecure
    exact horigin ⟨hflag, hinsecure⟩
  have hack : Safe p (if p.flags0 &&& Udp.flags0AckRes ≠ 0 then [Action.ackReceived] else []) :=
    safe_ite (by simp [Action.Fits]) safe_nil
  refine (and_iff_right hack).trans ?_
  by_cases hextension : p.hasExtension = true
  · rw [if_pos hextension, safe_zipExtension hextension hlen]
    constructor
    · rintro ⟨hsize, hoptions, hcommand⟩
      exact ⟨hheader, fun _ _ => hsize, fun _ _ => hoptions,
        fun h => hcommand (h.options hextension) h.included h.nonempty h.fits h.free⟩
    · rintro ⟨-, hsize, hoptions, hcommand⟩
      exact ⟨hsize hok hextension, hoptions hok hextension, fun hspelled hincluded hnonempty hfits hfree =>
        hcommand ⟨hzip, hok, fun _ => hspelled, hincluded, hnonempty, hfits, hfree⟩⟩
  · rw [if_neg hextension]
    have hremaining : Remaining p (p.len - UInt16.ofNat zipHeaderSize) zipHeaderSize :=
      ⟨by rw [Packet.extension, if_neg hextension, Nat.add_zero], hlen⟩
    rw [safe_zipCommand hremaining]
    constructor
    · intro hcommand
      exact ⟨hheader, fun _ h => absurd h hextension, fun _ h => absurd h hextension,
        fun h => hcommand h.included h.nonempty h.fits h.free⟩
    · rintro ⟨-, -, -, hcommand⟩ hincluded hnonempty hfits hfree
      exact hcommand ⟨hzip, hok, fun h => absurd h hextension, hincluded, hnonempty, hfits, hfree⟩

end Input

/-- Whatever the gateway is doing, the input of a classic node stays inside a packet and gives on its command
exactly if the packet is sound. -/
theorem zip_input_safe_iff (w : World) (p : Packet) : Safe p (classicZipUdpInput w p).1 ↔
    (w.bridgeInitialized = true ∨ w.nmWaitForProbeBySis = true → Sound w p) := by
  unfold classicZipUdpInput
  by_cases hready : w.bridgeInitialized = true ∨ w.nmWaitForProbeBySis = true
  swap
  · rw [if_pos (not_or.mp hready)]
    exact iff_of_true (by simp [Action.Fits]) fun h => absurd h hready
  have hnot : ¬(¬w.bridgeInitialized = true ∧ ¬w.nmWaitForProbeBySis = true) := by
    rw [← not_or]
    exact not_not.mpr hready
  rw [if_neg hnot, safe_append, safe_cons]
  refine Iff.trans ?_ (forall_prop_of_true hready).symm
  have hsecond : Safe p (if p.data 0 = commandClassZip then [.read 1] else []) ↔
      (p.data 0 = commandClassZip → 1 < p.len.toNat) := by
    by_cases hclass : p.data 0 = commandClassZip
    · rw [if_pos hclass, safe_cons, forall_prop_of_true hclass]
      exact and_iff_left safe_nil
    · rw [if_neg hclass]
      exact iff_of_true safe_nil fun h => absurd h hclass
  rw [hsecond]
  by_cases hzip : p.isZip = true
  · have hclass : p.data 0 = commandClassZip := by
      have hboth := hzip
      rw [Packet.isZip, Bool.and_eq_true, beq_iff_eq] at hboth
      exact hboth.1
    have hnotTls : p.data 0 ≠ 0x16 := by
      rw [hclass]
      decide
    rw [if_pos hzip, safe_zipPacket hzip]
    constructor
    · rintro ⟨⟨hstart, hmore⟩, h⟩
      exact {
        start := hstart
        second := fun _ => hmore hclass
        third := fun htls => absurd htls hnotTls
        header := fun _ => h.header
        size := fun _ => h.size
        options := fun _ => h.options
        proxied := fun hconsidered => (h.command hconsidered).proxied
        nested := fun hconsidered => (h.command hconsidered).nested
        update := fun hconsidered => (h.command hconsidered).update }
    · intro h
      exact ⟨⟨h.start, fun hclass => h.second (Or.inl hclass)⟩, h.header hzip, h.size hzip, h.options hzip,
        fun hconsidered => ⟨h.proxied hconsidered, h.nested hconsidered, h.update hconsidered⟩⟩
  · rw [if_neg hzip, safe_notZip]
    constructor
    · rintro ⟨⟨hstart, hmore⟩, htls, hthird⟩
      exact {
        start := hstart
        second := fun hclass => hclass.elim hmore htls
        third := hthird
        header := fun h => absurd h hzip
        size := fun h => absurd h hzip
        options := fun h => absurd h hzip
        proxied := fun h => absurd h.isZip hzip
        nested := fun h => absurd h.isZip hzip
        update := fun h => absurd h.isZip hzip }
    · intro h
      exact ⟨⟨h.start, fun hclass => h.second (Or.inl hclass)⟩, fun htls => h.second (Or.inr htls), h.third⟩

def idleWorld : World where
  bridgeInitialized := true
  nmIdle := true
  nmWaitForProbeBySis := false
  fromMailbox := false
  requeued := false
  mbIsBusy := false
  probed := true
  proxied := true
  sendingFirst := true
  commandHandled _ _ := false
  tempAssocCreated := true
  sendNack := true
  uipFlags0 := 0

def extendedBasicSet : Packet where
  data := Mem.ofBytes [0x23, 0x02, 0x00, 0xC0, 0x01, 0x00, 0x00, 0x03, 0x02, 0x00, 0x20, 0x01, 0xFF]
  len := 13
  secure := false

/-- The node behind a proxy IP association gets the extended header for a command. -/
theorem extendedBasicSet_not_safe : ¬Safe extendedBasicSet (classicZipUdpInput idleWorld extendedBasicSet).1 := by
  intro h
  have hforwarded : Action.forwarded .noScheme [0x03, 0x02, 0x00] ∈
      (classicZipUdpInput idleWorld extendedBasicSet).1 := by decide
  have hcommand : extendedBasicSet.command = [0x20, 0x01, 0xFF] := by decide
  have hsame : [0x03, 0x02, 0x00] = extendedBasicSet.command := h _ hforwarded
  rw [hcommand] at hsame
  exact absurd hsame (by decide)

end ZipGateway.ClassicZip

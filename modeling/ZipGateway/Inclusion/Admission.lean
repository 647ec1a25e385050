import ZipGateway.Inclusion.Machine
import ZipGateway.Lib.Byte

/-!
# The frames that become events

`s2_inclusion_post_event` looks up the rule of a frame by its command. The decision, and the rows of the
tables it reads, are taken out of it here.
-/

set_option maxRecDepth 8000

namespace ZipGateway.Inclusion

def security2CommandsSupportedGet : UInt8 := 0x0D

inductive Verdict where
  | ignored
  | tooShort
  | wronglyEncrypted
  | event (e : Event)

structure Admission where
  verdict : Verdict
  ruleReads : List Nat
  classReads : List Nat

namespace Ctx

def admission (env : Env) (s : Ctx) : Admission :=
  let index := s.buf 1 - kexGet
  if frameRules.length < index.toNat ∨ s.state = .idle then
    ⟨.ignored, [], []⟩
  else
    let rule := frameRule env index.toNat
    if rule.length.toNat > s.length then
      ⟨.tooShort, [index.toNat], []⟩
    else
      { verdict := if s.encryptionAccepted rule then .event s.frameEvent else .wronglyEncrypted
        ruleReads := [index.toNat]
        classReads :=
          if s.cryptRule rule = networkKeySlot ∧ s.peer.classId.toNat < keySlotKeyClasses.length
            then [s.peer.classId.toNat] else [] }

def heard (s : Ctx) (src : Connection) (frame : Bytes) : Option Ctx :=
  let s := { s with buf := Mem.ofBytes frame, length := frame.length }
  if src.rxOptions &&& rxoptionMulticast = rxoptionMulticast then none
  else
    let s := if s.state = .awaitingKexGet then s.withPeer src else s
    if s.peer.rNode = src.rNode then
      let s := s.note (.received s.state s.keyRequested s.keyExchange src frame)
      some (s.withPeer { s.peer with classId := src.classId })
    else none

end Ctx

/-- The encryption that the rule of a command asks for: clear, the temporary key, or the network key asked for
or exchanged; either of two rules will do. -/
inductive Satisfies (s : Ctx) (rule : FrameRule) (classId : UInt8) : Prop where
  | single (hrule : s.cryptRule rule ≠ networkKeySlot) (hclass : classId = s.cryptRule rule)
  | dual (hrule : s.cryptRule rule ≠ networkKeySlot) (hdual : rule.support = dualRuleSupport)
      (hclass : classId = rule.ruleB)
  | networkKey {keyClass : UInt8} (hrule : s.cryptRule rule = networkKeySlot)
      (hclass : keySlotKeyClasses[classId.toNat]? = some keyClass) (hkey : keyClass ≠ 0)
      (hasked : s.keyRequested = keyClass ∨ s.keyExchange &&& keyClass ≠ 0)

/-- A frame that becomes an event has a command of the table, is long enough, and is encrypted as the rule
of its command says. -/
structure Admissible (s : Ctx) (rule : FrameRule) : Prop where
  low : kexGet ≤ s.buf 1
  high : s.buf 1 ≤ transferEnd
  row : frameRules[(s.buf 1 - kexGet).toNat]? = some rule
  length : rule.length.toNat ≤ s.length
  encryption : Satisfies s rule s.peer.classId

/-- A frame is admitted right: it becomes an event only if it is admissible, both tables are read inside
their bounds, and frames of other nodes change nothing but the buffer once the peer is fixed. -/
structure AdmitsRight (env : Env) (fire : List Call → Ctx → Ctx) (s : Ctx) (src : Connection) (frame : Bytes) :
    Prop where
  event : ∀ t, s.heard src frame = some t → ∀ e, (t.admission env).verdict = .event e → ∃ rule, Admissible t rule
  rules : ∀ t, s.heard src frame = some t → ∀ i ∈ (t.admission env).ruleReads, i < frameRules.length
  classes : ∀ t, s.heard src frame = some t → ∀ i ∈ (t.admission env).classReads, i < keySlotKeyClasses.length
  foreign : s.state ≠ .awaitingKexGet → src.rNode ≠ s.peer.rNode →
    s.postEvent env fire src frame = { s with buf := Mem.ofBytes frame, length := frame.length }

/-- The frame comes to the table: the machine is not idle, and hears it. -/
def Heard (s : Ctx) (src : Connection) : Prop :=
  s.state ≠ .idle ∧ src.rxOptions &&& rxoptionMulticast ≠ rxoptionMulticast ∧
    (s.state = .awaitingKexGet ∨ s.peer.rNode = src.rNode)

section Decision

variable {env : Env} {fire : List Call → Ctx → Ctx} {s t : Ctx} {src : Connection} {frame : Bytes}

theorem postEvent_eq (env : Env) (fire : List Call → Ctx → Ctx) (s : Ctx) (src : Connection) (frame : Bytes) :
    s.postEvent env fire src frame =
      match s.heard src frame with
      | none => { s with buf := Mem.ofBytes frame, length := frame.length }
      | some t => t.postEventInternal env fire := by
  dsimp only [Ctx.postEvent, Ctx.heard]
  split
  · rfl
  by_cases hstate : s.state = .awaitingKexGet
  · rw [if_pos hstate, if_pos hstate, Ctx.postPeerEvent, if_pos (by rfl), if_pos (by rfl)]
  · rw [if_neg hstate, if_neg hstate, Ctx.postPeerEvent]
    by_cases hnode : s.peer.rNode = src.rNode
    · rw [if_pos hnode, if_pos hnode]
    · rw [if_neg hnode, if_neg hnode]

/-- The machine does with a frame what its admission says. -/
theorem postEventInternal_eq (env : Env) (fire : List Call → Ctx → Ctx) (s : Ctx) :
    s.postEventInternal env fire =
      match (s.admission env).verdict with
      | .ignored => s
      | .tooShort => s.processEvent env fire .error
      | .wronglyEncrypted => (s.inclusionFailedFrameSend env fire kexFailAuth nonSecure).processEvent env fire .errorWasSent
      | .event e => s.processEvent env fire e := by
  dsimp only [Ctx.postEventInternal, Ctx.admission]
  split
  · rfl
  split
  · rfl
  dsimp only
  split <;> rfl

structure Hears (s t : Ctx) (src : Connection) (frame : Bytes) : Prop where
  buf : t.buf = Mem.ofBytes frame
  length : t.length = frame.length
  state : t.state = s.state
  classId : t.peer.classId = src.classId
  keyRequested : t.keyRequested = s.keyRequested

theorem hears_of_heard (h : s.heard src frame = some t) : Hears s t src frame := by
  dsimp only [Ctx.heard] at h
  split at h
  · cases h
  by_cases hstate : s.state = .awaitingKexGet
  · rw [if_pos hstate, if_pos (by rfl)] at h
    cases h
    exact ⟨rfl, rfl, rfl, rfl, rfl⟩
  · rw [if_neg hstate] at h
    by_cases hnode : s.peer.rNode = src.rNode
    · rw [if_pos hnode] at h
      cases h
      exact ⟨rfl, rfl, rfl, rfl, rfl⟩
    · rw [if_neg hnode] at h
      cases h

theorem heard_iff : (∃ t, s.heard src frame = some t) ↔ src.rxOptions &&& rxoptionMulticast ≠ rxoptionMulticast ∧
      (s.state = .awaitingKexGet ∨ s.peer.rNode = src.rNode) := by
  dsimp only [Ctx.heard]
  by_cases hmulticast : src.rxOptions &&& rxoptionMulticast = rxoptionMulticast
  · rw [if_pos hmulticast]
    simp [hmulticast]
  rw [if_neg hmulticast]
  by_cases hstate : s.state = .awaitingKexGet
  · rw [if_pos hstate, if_pos (by rfl)]
    exact ⟨fun _ => ⟨hmulticast, .inl hstate⟩, fun _ => ⟨_, rfl⟩⟩
  · rw [if_neg hstate]
    by_cases hnode : s.peer.rNode = src.rNode
    · rw [if_pos hnode]
      exact ⟨fun _ => ⟨hmulticast, .inr hnode⟩, fun _ => ⟨_, rfl⟩⟩
    · rw [if_neg hnode]
      constructor
      · rintro ⟨t, ht⟩
        cases ht
      · rintro ⟨-, h | h⟩
        · exact absurd h hstate
        · exact absurd h hnode

theorem command_of_index : ∀ command : UInt8, (command - kexGet).toNat ≤ frameRules.length →
    command ≠ security2CommandsSupportedGet →
    kexGet ≤ command ∧ command ≤ transferEnd ∧ (command - kexGet).toNat < frameRules.length := by
  decide

theorem networkKeyVerify_of_rule : ∀ command : UInt8, ∀ rule ∈ frameRules[(command - kexGet).toNat]?,
    rule.ruleA = networkKeySlot ∨ rule.ruleB = networkKeySlot → command = networkKeyVerify := by
  decide

theorem keyClass_eq_zero : ∀ classId : UInt8, keySlotKeyClasses[classId.toNat]? = some 0 → classId = tempKeySlot := by
  decide

theorem cryptRule_eq (s : Ctx) (rule : FrameRule) : s.cryptRule rule = rule.ruleA ∨ s.cryptRule rule = rule.ruleB := by
  unfold Ctx.cryptRule
  split
  · exact .inr rfl
  · exact .inl rfl

theorem satisfies_of_accepted {rule : FrameRule} (h : s.encryptionAccepted rule = true)
    (hzero : ¬ (s.cryptRule rule = networkKeySlot ∧ s.peer.classId = tempKeySlot ∧ s.keyRequested = 0)) :
    Satisfies s rule s.peer.classId := by
  unfold Ctx.encryptionAccepted at h
  by_cases hrule : s.cryptRule rule = networkKeySlot
  · rw [if_pos hrule, verifyClassAccepted] at h
    split at h
    · rename_i keyClass hclass
      rw [decide_eq_true_eq] at h
      refine .networkKey hrule hclass ?_ h
      rintro rfl
      refine hzero ⟨hrule, keyClass_eq_zero _ hclass, h.resolve_right ?_⟩
      rw [UInt8.and_zero]
      exact fun hne => hne rfl
    · cases h
  · rw [if_neg hrule, decide_eq_true_eq] at h
    rcases h with h | ⟨hdual, h⟩
    · exact .single hrule h.symm
    · exact .dual hrule hdual h

theorem admission_of_le (hstate : s.state ≠ .idle) (hindex : (s.buf 1 - kexGet).toNat ≤ frameRules.length) :
    (s.admission env).ruleReads = [(s.buf 1 - kexGet).toNat] := by
  dsimp only [Ctx.admission]
  rw [if_neg fun h => h.elim (Nat.not_lt_of_le hindex) hstate]
  split <;> rfl

/-- A frame with one command too many, or a verification in the temporary key before a key was asked for. -/
def Slips (s : Ctx) (src : Connection) (frame : Bytes) : Prop :=
  frame.getD 1 0 = security2CommandsSupportedGet ∨
    frame.getD 1 0 = networkKeyVerify ∧ 2 ≤ frame.length ∧ src.classId = tempKeySlot ∧ s.keyRequested = 0

theorem admitsRight_of_not_slips (h : Heard s src → ¬ Slips s src frame) : AdmitsRight env fire s src frame := by
  have hindex : ∀ t, s.heard src frame = some t → t.state ≠ .idle → (t.buf 1 - kexGet).toNat ≤ frameRules.length →
      kexGet ≤ t.buf 1 ∧ t.buf 1 ≤ transferEnd ∧ (t.buf 1 - kexGet).toNat < frameRules.length ∧
        ¬ Slips s src frame := by
    intro t ht hstate hle
    have hears := hears_of_heard ht
    have hheard := heard_iff.mp ⟨t, ht⟩
    have hslips := h ⟨hears.state ▸ hstate, hheard.1, hheard.2⟩
    have hcommand : t.buf 1 ≠ security2CommandsSupportedGet := by
      rw [hears.buf]
      exact fun heq => hslips (.inl heq)
    obtain ⟨hlow, hhigh, hlt⟩ := command_of_index (t.buf 1) hle hcommand
    exact ⟨hlow, hhigh, hlt, hslips⟩
  refine ⟨fun t ht e he => ?_, fun t ht i hi => ?_, fun t ht i hi => ?_, fun hstate hnode => ?_⟩
  · dsimp only [Ctx.admission] at he
    split at he
    · cases he
    rename_i hgo
    rw [not_or] at hgo
    obtain ⟨hlow, hhigh, hlt, hslips⟩ := hindex t ht hgo.2 (Nat.le_of_not_lt hgo.1)
    split at he
    · cases he
    rename_i hlength
    split at he
    · rename_i haccepted
      have hears := hears_of_heard ht
      have hrow : frameRules[(t.buf 1 - kexGet).toNat]? = some (frameRule env (t.buf 1 - kexGet).toNat) := by
        rw [frameRule, List.getD_eq_getElem?_getD, List.getElem?_eq_getElem hlt]
        rfl
      refine ⟨_, hlow, hhigh, hrow, Nat.le_of_not_lt hlength, satisfies_of_accepted haccepted ?_⟩
      rintro ⟨hrule, hclass, hrequested⟩
      have hverify : t.buf 1 = networkKeyVerify := by
        apply networkKeyVerify_of_rule (t.buf 1) _ hrow
        rcases cryptRule_eq t (frameRule env (t.buf 1 - kexGet).toNat) with heq | heq
        · exact .inl (heq ▸ hrule)
        · exact .inr (heq ▸ hrule)
      have hlong : 2 ≤ frame.length := by
        rw [hverify, hears.length] at hlength
        exact Nat.le_of_not_lt hlength
      rw [hears.classId] at hclass
      rw [hears.keyRequested] at hrequested
      rw [hears.buf] at hverify
      exact hslips (.inr ⟨hverify, hlong, hclass, hrequested⟩)
    · cases he
  · by_cases hgo : frameRules.length < (t.buf 1 - kexGet).toNat ∨ t.state = .idle
    · have hnone : (t.admission env).ruleReads = [] := by
        dsimp only [Ctx.admission]
        rw [if_pos hgo]
      rw [hnone] at hi
      cases hi
    · rw [not_or] at hgo
      have hle := Nat.le_of_not_lt hgo.1
      rw [admission_of_le hgo.2 hle, List.mem_singleton] at hi
      exact hi ▸ (hindex t ht hgo.2 hle).2.2.1
  · dsimp only [Ctx.admission] at hi
    split at hi
    · cases hi
    split at hi
    · cases hi
    dsimp only at hi
    split at hi
    · rename_i hclass
      exact List.mem_singleton.mp hi ▸ hclass.2
    · cases hi
  · have hnone : s.heard src frame = none := by
      rw [← Option.not_isSome_iff_eq_none, Option.isSome_iff_exists, heard_iff]
      rintro ⟨-, hawaiting | hpeer⟩
      · exact hstate hawaiting
      · exact hnode hpeer.symm
    rw [postEvent_eq, hnone]

/-- A frame is admitted right unless it is heard and slips through: its command is the one behind the table,
or it is a verification in the temporary key before a key was asked for. -/
theorem admitsRight_iff (env : Env) (fire : List Call → Ctx → Ctx) (s : Ctx) (src : Connection) (frame : Bytes) :
    AdmitsRight env fire s src frame ↔ (Heard s src → ¬ Slips s src frame) := by
  refine ⟨fun h hheard hslips => ?_, admitsRight_of_not_slips⟩
  obtain ⟨hidle, hmulticast, hnode⟩ := hheard
  obtain ⟨t, ht⟩ := heard_iff.mpr ⟨hmulticast, hnode⟩
  have hears := hears_of_heard ht
  have hcommand : t.buf 1 = frame.getD 1 0 := by rw [hears.buf]; rfl
  have hstate : t.state ≠ .idle := hears.state ▸ hidle
  rcases hslips with hget | ⟨hverify, hlength, hclass, hrequested⟩
  · have hread : frameRules.length ∈ (t.admission env).ruleReads := by
      rw [admission_of_le hstate (by rw [hcommand, hget]; decide), hcommand, hget]
      decide
    exact absurd (h.rules t ht _ hread) (Nat.lt_irrefl _)
  · have hrule : frameRule env (t.buf 1 - kexGet).toNat = ⟨2, singleRuleSupport, networkKeySlot, networkKeySlot⟩ := by
      rw [hcommand, hverify]
      rfl
    have hcrypt : t.cryptRule ⟨2, singleRuleSupport, networkKeySlot, networkKeySlot⟩ = networkKeySlot :=
      (cryptRule_eq t _).elim id id
    have hevent : (t.admission env).verdict = .event t.frameEvent := by
      dsimp only [Ctx.admission]
      rw [hrule, if_neg, if_neg, if_pos]
      · rw [Ctx.encryptionAccepted, if_pos hcrypt, hears.classId, hclass, hears.keyRequested, hrequested]
        rfl
      · rw [hears.length]
        exact Nat.not_lt_of_le hlength
      · rw [hcommand, hverify]
        exact fun hor => hor.elim (by decide) hstate
    obtain ⟨rule, hadmissible⟩ := h.event t ht _ hevent
    have hrow := hadmissible.row
    rw [hcommand, hverify] at hrow
    cases hrow
    have hsatisfies := hadmissible.encryption
    rw [hears.classId, hclass] at hsatisfies
    cases hsatisfies with
    | single hrule => exact hrule hcrypt
    | dual hrule => exact hrule hcrypt
    | networkKey hrule hclass hkey => exact hkey (Option.some.inj hclass).symm

/-- A context that waits for the keys to be asked for, with a frame of its peer in the clear that has the
command behind the table. -/
theorem commandsSupportedGet_not_admitted : ¬ AdmitsRight Env.passive (fun _ s => s)
    ((Ctx.start fun _ => none).withState .awaitingNetKeyGet) { S2.zeroConnection with classId := nonSecure }
    [commandClassSecurity2, security2CommandsSupportedGet] := by
  intro h
  have hread := h.rules _ rfl 9 (by decide)
  exact absurd hread (by decide)

end Decision

end ZipGateway.Inclusion

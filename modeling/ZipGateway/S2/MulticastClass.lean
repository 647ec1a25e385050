import ZipGateway.S2.Plaintext

/-!
# The class of a multicast

A multicast is encrypted under the class of the MPAN of its group. When the group has none, the MPAN is made
for the class that was asked for; when it has one, it is taken whatever its class.
-/

namespace ZipGateway.S2

variable {con : Connection}

section Lookup

variable (env : Env) (s : S2)

/-- `S2_send_data_multicast` accepts the message. -/
def AcceptsMulticast (buf : Bytes) : Prop :=
  buf.length ≠ 0 ∧ buf.length ≤ 1280 ∧ s.fsm.free

def multicastMpan (con : Connection) (buf : Bytes) : Option MpanRef × S2 :=
  ((s.log (.accepted s.inFlight)).setPeer con buf).findMpanByGroupId env 0 con.rNode.toUInt8 true

def groupMpan (con : Connection) : Option MpanRef :=
  s.lookupMpan 0 con.rNode.toUInt8

theorem multicastMpan_of_some {m : MpanRef} (buf : Bytes) (h : s.groupMpan con = some m) :
    s.multicastMpan env con buf = (some m, (s.log (.accepted s.inFlight)).setPeer con buf) := by
  have hfind : (List.finRange mpanTableSize).find? (fun i =>
      ((s.log (.accepted s.inFlight)).setPeer con buf).mpanMatches 0 con.rNode.toUInt8 (s.mpanTable i)) = some m := h
  unfold multicastMpan findMpanByGroupId
  split
  next i hi =>
    have heq : some i = some m := hi.symm.trans hfind
    rw [heq]
  next hnone =>
    have heq : none = some m := hnone.symm.trans hfind
    cases heq

theorem classId_multicastMpan_of_none (buf : Bytes) (h : s.groupMpan con = none) :
    ∃ m, (s.multicastMpan env con buf).1 = some m ∧
      ((s.multicastMpan env con buf).2.mpanTable m).classId = con.classId := by
  have hfind : (List.finRange mpanTableSize).find? (fun i =>
      ((s.log (.accepted s.inFlight)).setPeer con buf).mpanMatches 0 con.rNode.toUInt8 (s.mpanTable i)) =
        none := h
  unfold multicastMpan findMpanByGroupId
  split
  next i hi =>
    have heq : some i = none := hi.symm.trans hfind
    cases heq
  next =>
    rw [if_pos rfl]
    refine ⟨_, rfl, ?_⟩
    simp only [setMpan, Function.update_self]
    rfl

theorem sg_multicastMpan (con : Connection) (buf : Bytes) : (s.multicastMpan env con buf).2.sg = s.sg := by
  unfold multicastMpan findMpanByGroupId
  split
  · rfl
  · rw [if_pos rfl]
    rfl

/-- The context in which `S2_encrypt_and_send_multi` is entered. -/
def multicastEntered (con : Connection) (buf : Bytes) : S2 :=
  { (s.multicastMpan env con buf).2 with mpan := (s.multicastMpan env con buf).1, fsm := .sendingMsg }

theorem sendDataMulticast_eq (callback : S2 → S2) {buf : Bytes} {m : MpanRef}
    (h : s.AcceptsMulticast buf) (hm : (s.multicastMpan env con buf).1 = some m) :
    s.call env callback (.sendDataMulticast con buf) =
      (s.multicastEntered env con buf).encryptAndSendMulti env callback m := by
  obtain ⟨hempty, hlong, hfree⟩ := h
  have hbusy : ¬(buf.length = 0 ∨ buf.length > 1280 ∨ s.isSendDataBusy = true) := by
    rintro (hzero | hover | hbusy)
    · exact hempty hzero
    · omega
    · cases hfsm : s.fsm <;> simp_all [isSendDataBusy, FsmState.free]
  simp only [call, sendDataAllCast, if_neg hbusy]
  unfold sendMulticast
  have hsame : (s.log (.accepted s.inFlight)).fsm = s.fsm := rfl
  rw [hsame]
  unfold multicastEntered
  unfold multicastMpan at hm ⊢
  cases hfsm : s.fsm with
  | idle | isMosWaitReply => simp only [hm]
  | _ => simp [hfsm, FsmState.free] at hfree

end Lookup

/-- The message is encrypted under the network key of its class, and no two used entries of the table make
the lookup depend on the class that is asked for. -/
structure ClassRespected (env : Env) (s : S2) (con : Connection) (buf : Bytes) : Prop where
  key    : ∀ m, (s.multicastMpan env con buf).1 = some m →
    ((s.multicastEntered env con buf).ccmCallMulti env m).key = (s.sg con.classId).encKey
  lookup : ¬∃ i j, i ≠ j ∧ (s.mpanTable i).state ≠ .notUsed ∧ (s.mpanTable j).state ≠ .notUsed ∧
    (s.mpanTable i).ownerId = (s.mpanTable j).ownerId ∧ (s.mpanTable i).groupId = (s.mpanTable j).groupId ∧
    ∃ classId, (s.multicastMpan env { con with classId := classId } buf).1 ≠ (s.multicastMpan env con buf).1

section Class

variable (env : Env)

theorem multicastMpan_class (s : S2) (con : Connection) (buf : Bytes) (classId : UInt8) :
    (s.multicastMpan env { con with classId := classId } buf).1 = (s.multicastMpan env con buf).1 := by
  cases hfound : s.groupMpan con with
  | some m =>
    have hother : s.groupMpan { con with classId := classId } = some m := hfound
    rw [multicastMpan_of_some env s buf hfound, multicastMpan_of_some env s buf hother]
  | none =>
    have hfind : ∀ other : Connection, other.rNode = con.rNode → (List.finRange mpanTableSize).find? (fun i =>
        ((s.log (.accepted s.inFlight)).setPeer other buf).mpanMatches 0 other.rNode.toUInt8
          (((s.log (.accepted s.inFlight)).setPeer other buf).mpanTable i)) = none := by
      intro other hother
      rw [hother]
      exact hfound
    unfold multicastMpan findMpanByGroupId
    rw [hfind con rfl, hfind { con with classId := classId } rfl]
    rfl

/-- The wrong key is used exactly for a group that already has an MPAN under another one. -/
theorem multicast_class_iff (s : S2) (con : Connection) (buf : Bytes) (h : s.AcceptsMulticast buf) :
    (∃ m, (s.multicastMpan env con buf).1 = some m ∧ ∀ callback, s.call env callback (.sendDataMulticast con buf) =
        (s.multicastEntered env con buf).encryptAndSendMulti env callback m) ∧
    (ClassRespected env s con buf ↔
      ∀ m, s.groupMpan con = some m → (s.sg (s.mpanTable m).classId).encKey = (s.sg con.classId).encKey) := by
  have hkey : ∀ m, ((s.multicastEntered env con buf).ccmCallMulti env m).key =
      (s.sg ((s.multicastMpan env con buf).2.mpanTable m).classId).encKey := by
    intro m
    rw [← sg_multicastMpan env s con buf]
    rfl
  have hlookup : ¬∃ i j, i ≠ j ∧ (s.mpanTable i).state ≠ .notUsed ∧ (s.mpanTable j).state ≠ .notUsed ∧
      (s.mpanTable i).ownerId = (s.mpanTable j).ownerId ∧ (s.mpanTable i).groupId = (s.mpanTable j).groupId ∧
      ∃ classId, (s.multicastMpan env { con with classId := classId } buf).1 ≠ (s.multicastMpan env con buf).1 := by
    rintro ⟨i, j, -, -, -, -, -, classId, hne⟩
    exact hne (multicastMpan_class env s con buf classId)
  cases hfound : s.groupMpan con with
  | some m =>
    have hmpan := multicastMpan_of_some env s buf hfound
    have htaken : (s.multicastMpan env con buf).1 = some m := congrArg Prod.fst hmpan
    have hclass : ((s.multicastMpan env con buf).2.mpanTable m).classId = (s.mpanTable m).classId := by
      rw [hmpan]
      rfl
    refine ⟨⟨m, htaken, fun callback => sendDataMulticast_eq env s callback h htaken⟩, ?_, ?_⟩
    · intro hrespected k hk
      obtain rfl : m = k := Option.some.inj hk
      rw [← hclass, ← hkey, hrespected.key m htaken]
    · intro hsame
      refine ⟨fun k hk => ?_, hlookup⟩
      obtain rfl : m = k := Option.some.inj (htaken.symm.trans hk)
      rw [hkey, hclass]
      exact hsame m rfl
  | none =>
    obtain ⟨m, htaken, hclass⟩ := classId_multicastMpan_of_none env s buf hfound
    refine ⟨⟨m, htaken, fun callback => sendDataMulticast_eq env s callback h htaken⟩, ?_, ?_⟩
    · intro _ k hk
      cases hk
    · intro _
      refine ⟨fun k hk => ?_, hlookup⟩
      obtain rfl : m = k := Option.some.inj (htaken.symm.trans hk)
      rw [hkey, hclass]

def groupSeven (classId : UInt8) : Connection :=
  { zeroConnection with lNode := 1, rNode := 7, classId := classId }

def keyedStart : S2 :=
  start 0 (fun classId => { encKey := Vector.replicate 16 classId, mpanKey := Block.zero, nonceKey := Vector.replicate 32 0 })
    3 (init 0).spanTable

def afterClassZero : S2 :=
  Machine.run (step sampleEnv 0) keyedStart [.call (.sendDataMulticast (groupSeven 0) [0x20, 0x01]), .sendFrameDone .ok 0]

theorem not_multicast_class : ¬∀ (env : Env) (s : S2) (con : Connection) (buf : Bytes), s.AcceptsMulticast buf →
      ClassRespected env s con buf := by
  intro hall
  have haccepts : afterClassZero.AcceptsMulticast [0x20, 0x01] := ⟨by decide, by decide, by decide⟩
  have hfound : (afterClassZero.multicastMpan sampleEnv (groupSeven 1) [0x20, 0x01]).1 = some 0 := by decide
  have hkey := (hall sampleEnv afterClassZero (groupSeven 1) [0x20, 0x01] haccepts).key 0 hfound
  have hother : ((afterClassZero.multicastEntered sampleEnv (groupSeven 1) [0x20, 0x01]).ccmCallMulti sampleEnv 0).key ≠
      (afterClassZero.sg 1).encKey := by
    decide
  exact hother hkey

theorem multicast_class_iff_afterClassZero : afterClassZero.AcceptsMulticast [0x20, 0x01] ∧
    (ClassRespected sampleEnv afterClassZero (groupSeven 0) [0x20, 0x01] ↔
      ∀ m, afterClassZero.groupMpan (groupSeven 0) = some m →
        (afterClassZero.sg (afterClassZero.mpanTable m).classId).encKey =
          (afterClassZero.sg (groupSeven 0).classId).encKey) :=
  have haccepts : afterClassZero.AcceptsMulticast [0x20, 0x01] := ⟨by decide, by decide, by decide⟩
  ⟨haccepts, (multicast_class_iff sampleEnv afterClassZero (groupSeven 0) [0x20, 0x01] haccepts).2⟩

end Class

end ZipGateway.S2

import ZipGateway.Inclusion.KeyRelease

/-!
# That every exchanged key was verified

The including node reports the keys it exchanged when the transfer is over. A key counts as exchanged
when its report is sent; the verification that follows is accepted under the key that was requested,
and under every key exchanged before, so that a late repetition does no harm. In the state that waits
for the verification of the next key the repetition is taken for it. With that excluded, each key of
the complete event was verified under itself after its report was sent.
-/

namespace ZipGateway.Inclusion

def slotOf (rNode : NodeId) (key : UInt8) : Option UInt8 :=
  if key = keyClassS0 then some networkKeySlot
  else (keySlotPairs.find? fun pair =>
    pair.1 = Ctx.translateKeyslotToReadForLr key rNode).map Prod.snd

def Entry.reports : Entry → UInt8 → Bool
  | .sentData _ frame result, key =>
    result ≠ .refused ∧ frame[1]? = some networkKeyReport ∧ frame[2]? = some key
  | _, _ => false

def Entry.confirms : Entry → NodeId → UInt8 → Bool
  | .received _ _ _ src frame, rNode, key =>
    src.rNode = rNode ∧ frame.getD 1 0 = networkKeyVerify ∧ some src.classId = slotOf rNode key
  | _, _, _ => false

def reported (key : UInt8) (log : List Entry) : Bool :=
  (era log).any (·.reports key)

def verified (rNode : NodeId) (key : UInt8) : List Entry → Bool
  | [] => false
  | e :: before =>
    e ≠ .started ∧ ((e.confirms rNode key ∧ reported key before) ∨ verified rNode key before)

def Entry.keysVerified (e : Entry) (before : List Entry) : Bool :=
  match e with
  | .event (.inclusionComplete peer keys) =>
    ∀ key ∈ Byte.bits, key &&& keys ≠ 0 → verified peer.rNode key before
  | _ => true

def CompletionsVerified : List Entry → Prop
  | [] => True
  | e :: before => e.keysVerified before ∧ CompletionsVerified before

def Entry.verifiesRequested (e : Entry) (before : List Entry) : Bool :=
  match e with
  | .received .awaitingNetKeyVerify requested exchange src frame =>
    frame.getD 1 0 = networkKeyVerify → verifyClassAccepted requested exchange src.classId →
      some src.classId = slotOf src.rNode requested ∧ reported requested before
  | _ => true

def VerifiesInOrder : List Entry → Prop
  | [] => True
  | e :: before => e.verifiesRequested before ∧ VerifiesInOrder before

instance : (log : List Entry) → Decidable (CompletionsVerified log)
  | [] => isTrue trivial
  | e :: before =>
    have := instDecidableCompletionsVerified before
    inferInstanceAs (Decidable (e.keysVerified before = true ∧ CompletionsVerified before))

instance : (log : List Entry) → Decidable (VerifiesInOrder log)
  | [] => isTrue trivial
  | e :: before =>
    have := instDecidableVerifiesInOrder before
    inferInstanceAs (Decidable (e.verifiesRequested before = true ∧ VerifiesInOrder before))

section Verified

variable {log : List Entry} {e : Entry} {rNode : NodeId} {key : UInt8}

theorem verified_cons (he : e ≠ .started) (h : verified rNode key log) : verified rNode key (e :: log) := by
  simp [verified, he, h]

theorem verified_of_confirms (he : e.confirms rNode key) (hreported : reported key log) :
    verified rNode key (e :: log) := by
  have hstarted : e ≠ .started := by
    rintro rfl
    cases he
  simp [verified, hstarted, he, hreported]

theorem VerifiesInOrder.tail {before : List Entry} (hsuffix : before <:+ log)
    (h : VerifiesInOrder log) : VerifiesInOrder before := by
  induction log with
  | nil =>
    rw [List.suffix_nil.mp hsuffix]
    trivial
  | cons e log ih =>
    rcases List.suffix_cons_iff.mp hsuffix with rfl | hsuffix
    · exact h
    · exact ih hsuffix h.2

end Verified

def AllVerifiedBut (pending : Option UInt8) (o : Progress) : Prop :=
  ∀ key ∈ Byte.bits, key &&& o.keyExchange ≠ 0 → some key ≠ pending → verified o.rNode key o.log

def PeerFrames (o : Progress) : Prop :=
  ∀ found requested exchange src frame, .received found requested exchange src frame ∈ era o.log → src.rNode = o.rNode

def Settled (o : Progress) : Prop :=
  match o.state with
  | .awaitingKexReport | .awaitingKeyUserAccept | .awaitingPubKeyB | .awaitingUserAccept
  | .awaitingEchoKexSet => PeerFrames o
  | .awaitingNetKeyGet | .awaitingTransferEnd => PeerFrames o ∧ AllVerifiedBut none o
  | .awaitingNetKeyVerify =>
    PeerFrames o ∧ o.keyRequested ∈ Byte.bits ∧ AllVerifiedBut (some o.keyRequested) o
  | _ => True

section Stages

variable {o : Progress} {e : Entry}

theorem AllVerifiedBut.cons {pending : Option UInt8} (he : e ≠ .started)
    (h : AllVerifiedBut pending o) : AllVerifiedBut pending { o with log := e :: o.log } := by
  intro key hbit hkey hpending
  exact verified_cons he (h key hbit hkey hpending)

theorem PeerFrames.cons (he : e ≠ .started) (hpeer : ∀ found requested exchange src frame,
      e = .received found requested exchange src frame → src.rNode = o.rNode)
    (h : PeerFrames o) : PeerFrames { o with log := e :: o.log } := by
  intro found requested exchange src frame hmem
  dsimp only at hmem
  rw [era_cons he] at hmem
  rcases List.mem_cons.mp hmem with heq | hmem
  · exact hpeer _ _ _ _ _ heq.symm
  · exact h _ _ _ _ _ hmem

theorem settled_cons (he : e ≠ .started) (hpeer : ∀ found requested exchange src frame,
      e = .received found requested exchange src frame → src.rNode = o.rNode)
    (h : Settled o) : Settled { o with log := e :: o.log } := by
  unfold Settled at *
  dsimp only
  split at h
  · exact h.cons he hpeer
  · exact h.cons he hpeer
  · exact h.cons he hpeer
  · exact h.cons he hpeer
  · exact h.cons he hpeer
  · exact ⟨h.1.cons he hpeer, h.2.cons he⟩
  · exact ⟨h.1.cons he hpeer, h.2.cons he⟩
  · exact ⟨h.1.cons he hpeer, h.2.1, h.2.2.cons he⟩
  · trivial

theorem AllVerifiedBut.release {key : UInt8} (hbit : key ∈ Byte.bits) (h : AllVerifiedBut none o) :
    ∀ other ∈ Byte.bits, other &&& (o.keyExchange ||| key) ≠ 0 → some other ≠ some key →
      verified o.rNode other o.log := by
  intro other hother hexchange hne
  have hdisjoint : other &&& key = 0 :=
    Byte.bits_disjoint other hother key hbit fun heq => hne (congrArg some heq)
  have hold : other &&& o.keyExchange ≠ 0 := fun hzero =>
    hexchange ((Byte.and_or_eq_zero_iff other o.keyExchange key).mpr ⟨hzero, hdisjoint⟩)
  exact h other hother hold (by simp)

theorem AllVerifiedBut.verify {src : Connection} {frame : Bytes} (hpeer : PeerFrames o)
    (hs : o.state = .awaitingNetKeyVerify) (hconfirmed : o.Confirmed src frame)
    (horder : VerifiesInOrder o.log) (h : AllVerifiedBut (some o.keyRequested) o) :
    AllVerifiedBut none o := by
  intro key hbit hkey _
  by_cases hrequested : key = o.keyRequested
  · have hnode : src.rNode = o.rNode := hpeer _ _ _ _ _ (mem_era_of_heard hconfirmed.heard)
    obtain ⟨before, hlog⟩ := hconfirmed.heard
    rw [hlog, hs] at horder
    have hmatches : some src.classId = slotOf src.rNode o.keyRequested ∧ reported o.keyRequested before = true := by
      have hentry := horder.1
      simp only [Entry.verifiesRequested, decide_eq_true_eq] at hentry
      exact hentry hconfirmed.command hconfirmed.accepted
    rw [hlog, hrequested]
    refine verified_of_confirms ?_ hmatches.2
    simp only [Entry.confirms, decide_eq_true_eq]
    exact ⟨hnode, hconfirmed.command, hnode ▸ hmatches.1⟩
  · exact h key hbit hkey fun heq => hrequested (Option.some.inj heq)

end Stages

structure Confirming (o : Progress) : Prop where
  completions : CompletionsVerified o.log
  settled : Settled o

namespace Confirming

variable {o o' : Progress}

theorem note (h : Confirming o) {e : Entry} (he : e ≠ .started) (hpeer : ∀ found requested exchange src frame,
      e = .received found requested exchange src frame → src.rNode = o.rNode)
    (hkeys : e.keysVerified o.log) : Confirming { o with log := e :: o.log } where
  completions := ⟨hkeys, h.completions⟩
  settled := settled_cons he hpeer h.settled

theorem of_still (h : Confirming o) (hlog : o'.log = o.log) (hsettled : Settled o') : Confirming o' where
  completions := hlog ▸ h.completions
  settled := hsettled

theorem note_idle (h : Confirming o) {e : Entry} (hlog : o'.log = e :: o.log)
    (hstate : o'.state = .idle) (hkeys : e.keysVerified o.log) : Confirming o' where
  completions := by
    rw [hlog]
    exact ⟨hkeys, h.completions⟩
  settled := by
    unfold Settled
    rw [hstate]
    trivial

theorem keysVerified_of_sends {e : Entry} (h : o.Sends e) (log : List Entry) : e.keysVerified log := by
  cases e <;> first | exact h.elim | rfl

theorem keysVerified_of_hears {e : Entry} (h : o.Hears e) (log : List Entry) : e.keysVerified log := by
  cases e with
  | event up =>
    cases up with
    | initiated | kexReport | challenge => rfl
    | inclusionComplete | joiningComplete | inclusionFailed | neverStarted => cases h
  | started | joined | sentFrame | sentData => exact h.elim
  | keyGrant | challenge | aborted | received => rfl

theorem keysVerified_of_rejection {e : Entry} (h : e.isRejection) (log : List Entry) : e.keysVerified log := by
  cases e <;> first | rfl | cases h

theorem completed (h : Confirming o)
    (hs : o.state = .awaitingTransferEnd ∨ o.state = .awaitingNetKeyGet ∧ o.keyGranted = 0) :
    AllVerifiedBut none o := by
  have hsettled := h.settled
  unfold Settled at hsettled
  rcases hs with hs | ⟨hs, -⟩ <;>
  · rw [hs] at hsettled
    exact hsettled.2

theorem move (h : Confirming o) (hmove : Move o o') (horder : VerifiesInOrder o'.log) : Confirming o' := by
  have hsettled := h.settled
  cases hmove with
  | prepare command key hcommand => exact h.of_still rfl hsettled
  | sent e hsends =>
    refine h.note (Guarded.ne_started_of_sends hsends) ?_ (keysVerified_of_sends hsends o.log)
    rintro found requested exchange src frame rfl
    exact hsends.elim
  | heard e hhears =>
    refine h.note (Guarded.ne_started_of_hears hhears) ?_ (keysVerified_of_hears hhears o.log)
    rintro found requested exchange src frame rfl
    exact hhears.2.2.2
  | restored => exact h.of_still rfl hsettled
  | idle _ hs hstate hstill hslots =>
    refine h.of_still hstill.log ?_
    unfold Settled
    rw [hstate]
    trivial
  | start rNode mode key hs =>
    refine ⟨⟨rfl, h.completions⟩, ?_⟩
    intro found requested exchange src frame hmem
    simp [era] at hmem
  | join rNode mode hs => exact ⟨⟨rfl, h.completions⟩, trivial⟩
  | cancel e hs hfound hrejection =>
    exact h.note_idle rfl rfl (keysVerified_of_rejection hrejection o.log)
  | fail o₁ peer failType hs hstill => exact h.note_idle rfl rfl rfl
  | complete peer hpeer hs =>
    refine h.note_idle rfl rfl ?_
    simp only [Entry.keysVerified, decide_eq_true_eq]
    intro key hbit hkey
    rw [hpeer]
    exact h.completed hs key hbit hkey (by simp)
  | joined up hs hup =>
    refine h.note_idle rfl rfl ?_
    rcases hup with ⟨peer, keys, rfl⟩ | ⟨peer, keys, rfl⟩ <;> rfl
  | error _ hs hstate hstill =>
    refine h.of_still hstill.log ?_
    unfold Settled
    rw [hstate]
    trivial
  | joining _ hs hstate hslots hstill =>
    refine h.of_still hstill.log ?_
    unfold Settled
    cases hs' : o'.state <;> rw [hs'] at hstate <;> trivial
  | reported keyGranted keyExchange hs =>
    unfold Settled at hsettled
    rw [hs] at hsettled
    exact h.of_still rfl hsettled
  | offer mode keys con ok hs haccepts =>
    unfold Settled at hsettled
    rw [hs] at hsettled
    exact ⟨⟨rfl, h.completions⟩, hsettled.cons (by simp) (by simp)⟩
  | challenge hs =>
    unfold Settled at hsettled
    rw [hs] at hsettled
    exact h.of_still rfl hsettled
  | acknowledge mode keys hs haccepts =>
    unfold Settled at hsettled
    rw [hs] at hsettled
    exact h.of_still rfl hsettled
  | echo src frame hs hecho =>
    unfold Settled at hsettled
    rw [hs] at hsettled
    refine h.of_still rfl ⟨hsettled, ?_⟩
    intro key hbit hkey
    exact absurd (by simp) hkey
  | release src frame key hs hrequested =>
    unfold Settled at hsettled
    rw [hs] at hsettled
    have hne : key ≠ 0 := by
      rintro rfl
      exact hrequested.granted (by simp)
    have hbit := Byte.mem_bits_of_single key hne hrequested.single
    exact h.of_still rfl ⟨hsettled.1, hbit, hsettled.2.release hbit⟩
  | load hs => exact h.of_still rfl hsettled
  | verify src frame hs hconfirmed =>
    unfold Settled at hsettled
    rw [hs] at hsettled
    have hall : AllVerifiedBut none o :=
      hsettled.2.2.verify hsettled.1 hs hconfirmed horder
    refine h.of_still rfl ?_
    unfold Settled
    dsimp only
    split_ifs <;> exact ⟨hsettled.1, hall⟩

theorem moves (h : Confirming o) (hmoves : Moves o o') (horder : VerifiesInOrder o'.log) : Confirming o' := by
  induction hmoves with
  | refl => exact h
  | tail _ hmove ih => exact (ih (horder.tail hmove.log_suffix)).move hmove horder

theorem start (keystore : UInt8 → Option Bytes) : Confirming (Ctx.start keystore).progress :=
  ⟨trivial, trivial⟩

end Confirming

/-- While no verification is taken for that of another key, every key that is reported as exchanged
was verified under itself. -/
theorem keyVerify_confirmed (env : Env) (depth : Nat) (keystore : UInt8 → Option Bytes) (calls : List Call)
    (horder : VerifiesInOrder (Ctx.run env depth (Ctx.start keystore) calls).log) :
    CompletionsVerified (Ctx.run env depth (Ctx.start keystore) calls).log :=
  ((Confirming.start keystore).moves (Ctx.moves_run env depth (Ctx.start keystore) calls) horder).completions

def twoKeyInclusion (slot : UInt8) : List Call :=
  [.includingStart (joiner 0), .postEvent (joiner nonSecure) [commandClassSecurity2, kexReport, 0, 2, 1, 5],
   .keyGrant 1 5 0,
   .postEvent (joiner nonSecure)
     ([commandClassSecurity2, publicKeyReport, joiningNode] ++ List.replicate publicKeySize 7),
   .challengeResponse 1 [7, 7],
   .postEvent (joiner tempKeySlot) [commandClassSecurity2, kexSet, echoOn, 2, 1, 5],
   .postEvent (joiner tempKeySlot) [commandClassSecurity2, networkKeyGet, 1],
   .postEvent (joiner 0) [commandClassSecurity2, networkKeyVerify],
   .postEvent (joiner tempKeySlot) [commandClassSecurity2, networkKeyGet, 4],
   .postEvent (joiner slot) [commandClassSecurity2, networkKeyVerify],
   .postEvent (joiner tempKeySlot) [commandClassSecurity2, transferEnd, keyReqComplete]]

def twoKeystore : UInt8 → Option Bytes := fun keyClass =>
  if keyClass = keyClassAccess then some (List.replicate networkKeySize 5)
  else if keyClass = keyClassUnauthenticated then some (List.replicate networkKeySize 6)
  else none

theorem keyVerify_both : VerifiesInOrder (Ctx.run Env.passive 0 (Ctx.start twoKeystore) (twoKeyInclusion 2)).log ∧
      (.event (.inclusionComplete (joiner tempKeySlot) 5) ∈
        (Ctx.run Env.passive 0 (Ctx.start twoKeystore) (twoKeyInclusion 2)).log) ∧
      CompletionsVerified (Ctx.run Env.passive 0 (Ctx.start twoKeystore) (twoKeyInclusion 2)).log :=
  have horder : VerifiesInOrder (Ctx.run Env.passive 0 (Ctx.start twoKeystore) (twoKeyInclusion 2)).log := by decide +kernel
  ⟨horder, by decide +kernel, keyVerify_confirmed Env.passive 0 twoKeystore _ horder⟩

/-- The verification of the first key comes again and is taken for that of the second. -/
theorem keyVerify_repeated : ¬CompletionsVerified
      (Ctx.run Env.passive 0 (Ctx.start twoKeystore) (twoKeyInclusion 0)).log := by
  decide +kernel

end ZipGateway.Inclusion

import ZipGateway.TransportService.Reassembly

/-!
# What the receiver delivers

A delivered datagram is justified by the history that precedes it when a first fragment opened a
reassembly since the last one ended, and every byte of the datagram was brought by a fragment that
came since, passed the frame check, and has the source and the session id of that first fragment.
The filter for frames of a third node only knows the receive status of a plain singlecast and of a
plain broadcast frame: as long as no other frame of another node arrives during a reassembly, every
delivery is justified.
-/

set_option maxRecDepth 8000

namespace ZipGateway

structure Frame where
  p : TsParam
  pCmd : Mem
  len : Nat

namespace Frame

def Brings (f : Frame) (k : Nat) (v : UInt8) : Prop :=
  (cmdType f.pCmd = commandFirstFragment ∧ k < f.len - firstFragNonpayloadLength ∧ f.pCmd (firstHdrLen + k) = v) ∨
    (cmdType f.pCmd = commandSubsequentFragment ∧ fragDatagramOffset f.pCmd ≤ k ∧
      k < fragDatagramOffset f.pCmd + (f.len - subseqFragNonpayloadLength) ∧
      f.pCmd (subseqHdrLen + (k - fragDatagramOffset f.pCmd)) = v)

instance (f : Frame) (k : Nat) (v : UInt8) : Decidable (f.Brings k v) :=
  inferInstanceAs (Decidable (_ ∨ _))

def IsFragment (f : Frame) (snode : NodeId) (session : Nat) : Prop :=
  f.pCmd 0 = commandClassTransportService ∧ fcsOk f.pCmd f.len = true ∧ f.p.snode = snode ∧ fragSession f.pCmd = session

instance (f : Frame) (snode : NodeId) (session : Nat) : Decidable (f.IsFragment snode session) :=
  inferInstanceAs (Decidable (_ ∧ _))

end Frame

structure Session where
  first : Frame
  later : List Frame

namespace Session

def frames (session : Session) : List Frame :=
  session.later ++ [session.first]

def snode (session : Session) : NodeId :=
  session.first.p.snode

def id (session : Session) : Nat :=
  fragSession session.first.pCmd

def Provides (session : Session) (k : Nat) (v : UInt8) : Prop :=
  ∃ f ∈ session.frames, f.IsFragment session.snode session.id ∧ f.Brings k v

instance (session : Session) (k : Nat) (v : UInt8) : Decidable (session.Provides k v) :=
  inferInstanceAs (Decidable (∃ f ∈ _, _))

def Justifies (session : Session) (snode : NodeId) (data : Bytes) : Prop :=
  cmdType session.first.pCmd = commandFirstFragment ∧ session.snode = snode ∧
    ∀ k, k < data.length → session.Provides k (data.getD k 0)

instance (session : Session) (snode : NodeId) (data : Bytes) : Decidable (session.Justifies snode data) :=
  inferInstanceAs (Decidable (_ ∧ _))

def add (session : Session) (f : Frame) : Session :=
  { session with later := f :: session.later }

end Session

def openSessionOf : List TsOut → Option Session
  | .opened :: .received p pCmd len :: _ => some ⟨⟨p, pCmd, len⟩, []⟩
  | .received p pCmd len :: history => (openSessionOf history).map (·.add ⟨p, pCmd, len⟩)
  | _ => none

/-- Every delivery of the history is justified by what precedes it. -/
def SoundHistory : List TsOut → Prop
  | [] => True
  | .delivered snode _ data :: history =>
    (∃ session ∈ openSessionOf history, session.Justifies snode data) ∧ SoundHistory history
  | _ :: history => SoundHistory history

instance decidableSoundHistory : (history : List TsOut) → Decidable (SoundHistory history)
  | [] => inferInstanceAs (Decidable True)
  | .delivered snode _ data :: history =>
    have := decidableSoundHistory history
    inferInstanceAs (Decidable ((∃ session ∈ openSessionOf history,
      session.Justifies snode data) ∧ SoundHistory history))
  | .received .. :: history => decidableSoundHistory history
  | .opened :: history => decidableSoundHistory history
  | .discarded :: history => decidableSoundHistory history
  | .called .. :: history => decidableSoundHistory history
  | .started .. :: history => decidableSoundHistory history
  | .completed .. :: history => decidableSoundHistory history
  | .sendRaw .. :: history => decidableSoundHistory history

variable {history : List TsOut}

theorem soundHistory_cons {o : TsOut} (h : SoundHistory history)
    (ho : ∀ snode dnode data, o ≠ .delivered snode dnode data) : SoundHistory (o :: history) := by
  cases o with
  | delivered snode dnode data => exact absurd rfl (ho snode dnode data)
  | _ => exact h

namespace Session

theorem Provides.add {session : Session} {k : Nat} {v : UInt8} (f : Frame)
    (h : session.Provides k v) : (session.add f).Provides k v := by
  obtain ⟨g, hg, hfragment, hbrings⟩ := h
  exact ⟨g, List.mem_cons_of_mem f hg, hfragment, hbrings⟩

end Session

namespace Reassembly

structure Opened (r : Reassembly) (session : Session) : Prop where
  current : openSessionOf r.history = some session
  first : cmdType session.first.pCmd = commandFirstFragment
  source : session.snode = r.source
  peer : r.peer = r.source
  id : session.id = r.session
  head : Bitmap.Marked r.mask 0
  bytes : r.Holds session.Provides

structure Inv (r : Reassembly) : Prop where
  sound : SoundHistory r.history
  size : r.size ≤ datagramSizeMax
  timer : r.fresh = true → r.rxTimer = false
  opened : r.fresh = false → r.session ≠ noSession → ∃ session, r.Opened session

variable {r : Reassembly}

theorem Inv.setTimer (h : r.Inv) (hfresh : r.fresh = false) (b : Bool) :
    ({ r with rxTimer := b } : Reassembly).Inv where
  sound := h.sound
  size := h.size
  timer := fun hf => absurd hf (by simp [hfresh])
  opened := by
    intro hf hsession
    obtain ⟨session, hopened⟩ := h.opened hf hsession
    exact ⟨session, ⟨hopened.current, hopened.first, hopened.source, hopened.peer, hopened.id,
      hopened.head, hopened.bytes⟩⟩

theorem Inv.discard (h : r.Inv) : r.discard.Inv where
  sound := soundHistory_cons h.sound (by intros; simp)
  size := h.size
  timer := h.timer
  opened := fun _ hsession => absurd rfl hsession

theorem Inv.deliver (h : r.Inv) (hfresh : r.fresh = false) (hsession : r.session ≤ 0xf)
    (hgapless : r.Gapless) : r.deliver.Inv where
  sound := by
    have hne : r.session ≠ noSession := by
      intro heq
      rw [heq] at hsession
      exact absurd hsession (by decide)
    obtain ⟨session, hopened⟩ := h.opened hfresh hne
    refine ⟨⟨session, hopened.current, hopened.first, ?_, ?_⟩, h.sound⟩
    · rw [hopened.source, hopened.peer]
    · intro k hk
      rw [Mem.length_slice] at hk
      have hget : (r.data.slice 0 r.size).getD k 0 = r.data k := by
        rw [List.getD_eq_getElem?_getD, Mem.getElem?_slice hk]
        simp
      rw [hget]
      exact hgapless.holds hopened.head hopened.bytes hk
  size := h.size
  timer := fun hf => absurd hf (by simp [hfresh, Reassembly.deliver])
  opened := fun _ hsession => absurd rfl hsession

theorem Inv.hear (h : r.Inv) (p : TsParam) (pCmd : Mem) (len : Nat) :
    ({ r with history := .received p pCmd len :: r.history } : Reassembly).Inv where
  sound := soundHistory_cons h.sound (by intros; simp)
  size := h.size
  timer := h.timer
  opened := by
    intro hf hsession
    obtain ⟨session, hopened⟩ := h.opened hf hsession
    refine ⟨session.add ⟨p, pCmd, len⟩, ⟨?_, hopened.first, hopened.source, hopened.peer,
      hopened.id, hopened.head, fun k hk => (hopened.bytes k hk).add _⟩⟩
    simp only [openSessionOf, hopened.current, Option.map_some]

theorem Inv.take (h : r.Inv) (p : TsParam)
    (hp : r.fresh = false → r.session ≠ noSession → p.snode = r.source) : (r.take p).Inv := by
  by_cases hfresh : r.fresh = true
  · have htake : r.take p = { r with
        fresh := false, session := noSession, source := 0, data := fun _ => 0, mask := fun _ => 0
        peer := p.snode, dest := p.dnode } := by simp [Reassembly.take, hfresh]
    rw [htake]
    exact ⟨h.sound, h.size, fun hf => absurd hf (by simp), fun _ hsession => absurd rfl hsession⟩
  · have hfalse : r.fresh = false := by simpa using hfresh
    have htake : r.take p = { r with peer := p.snode, dest := p.dnode } := by
      simp [Reassembly.take, hfalse]
    rw [htake]
    refine ⟨h.sound, h.size, h.timer, fun hf hsession => ?_⟩
    obtain ⟨session, hopened⟩ := h.opened hf hsession
    exact ⟨session, ⟨hopened.current, hopened.first, hopened.source, hp hf hsession, hopened.id,
      hopened.head, hopened.bytes⟩⟩

theorem Inv.start {p : TsParam} {pCmd : Mem} {len : Nat} (h : r.Inv)
    (hhistory : r.history = .received p pCmd len :: history) (hpeer : r.peer = p.snode)
    (hclass : pCmd 0 = commandClassTransportService) (hcmd : cmdType pCmd = commandFirstFragment)
    (hlen : len ≤ datagramSizeMax) (hlong : firstFragNonpayloadLength < len)
    (hfcs : fcsOk pCmd len = true) (hsize : fragDatagramSize pCmd ≤ datagramSizeMax)
    (hfresh : r.fresh = false) : (r.start pCmd len).Inv where
  sound := soundHistory_cons h.sound (by intros; simp)
  size := hsize
  timer := fun hf => absurd hf (by simp [hfresh, Reassembly.start])
  opened := by
    intro _ _
    refine ⟨⟨⟨p, pCmd, len⟩, []⟩, ⟨?_, hcmd, hpeer.symm, rfl, rfl, ?_, ?_⟩⟩
    · change openSessionOf (.opened :: r.history) = _
      rw [hhistory]
      rfl
    · rw [marked_start hlen]
      exact Nat.sub_pos_of_lt hlong
    · refine holds_start hlen fun k hk => ?_
      exact ⟨⟨p, pCmd, len⟩, by simp [Session.frames], ⟨hclass, hfcs, rfl, rfl⟩, .inl ⟨hcmd, hk, rfl⟩⟩

theorem Inv.store {p : TsParam} {pCmd : Mem} {len : Nat} (h : r.Inv)
    (hhistory : r.history = .received p pCmd len :: history) (hpeer : r.peer = p.snode)
    (hclass : pCmd 0 = commandClassTransportService)
    (hcmd : cmdType pCmd = commandSubsequentFragment) (hfcs : fcsOk pCmd len = true)
    (hsession : fragSession pCmd = r.session ∨ r.session = noSession)
    (hbound : fragDatagramOffset pCmd + (len - subseqFragNonpayloadLength) ≤ datagramSizeMax)
    (hsize : fragDatagramSize pCmd ≤ datagramSizeMax) (hfresh : r.fresh = false) :
    (r.store pCmd len).Inv where
  sound := h.sound
  size := hsize
  timer := fun hf => absurd hf (by simp [hfresh, Reassembly.store])
  opened := by
    intro _ hne
    obtain ⟨session, hopened⟩ := h.opened hfresh hne
    have hid : fragSession pCmd = session.id := by
      rcases hsession with heq | heq
      · rw [heq, hopened.id]
      · exact absurd heq hne
    have hmem : (⟨p, pCmd, len⟩ : Frame) ∈ session.frames := by
      have hcurrent := hopened.current
      rw [hhistory] at hcurrent
      obtain ⟨before, hbefore, hadd⟩ := Option.map_eq_some_iff.mp hcurrent
      rw [← hadd]
      exact List.mem_cons_self
    have hhead : Bitmap.Marked (r.store pCmd len).mask 0 :=
      (markBytes_marked r.mask _ _ 0 hbound).mpr (.inr hopened.head)
    refine ⟨session, ⟨hopened.current, hopened.first, hopened.source, hopened.peer, hopened.id,
      hhead, holds_store hopened.bytes hbound ?_⟩⟩
    intro k hle hlt
    refine ⟨⟨p, pCmd, len⟩, hmem, ⟨hclass, hfcs, ?_, hid⟩, .inr ⟨hcmd, hle, hlt, rfl⟩⟩
    rw [hopened.source, ← hopened.peer]
    exact hpeer.symm

end Reassembly

namespace TransportService

variable (env : TsEnv)

structure Receiving (r : Reassembly) (p : TsParam) (pCmd : Mem) (len : Nat) : Prop where
  inv : r.Inv
  fresh : r.fresh = false
  peer : r.peer = p.snode
  history : ∃ history, r.history = .received p pCmd len :: history
  short : len ≤ datagramSizeMax

section Receive

variable {s : TransportService} {p : TsParam} {pCmd : Mem} {len : Nat}

theorem inv_receiveFirstFragment (h : Receiving s.reassembly p pCmd len)
    (hclass : pCmd 0 = commandClassTransportService) (hcmd : cmdType pCmd = commandFirstFragment) :
    (receiveFirstFragment env s pCmd len).reassembly.Inv := by
  obtain ⟨history, hhistory⟩ := h.history
  rcases reassembly_receiveFirstFragment env s pCmd len with hsame | ⟨haccepts, hresult⟩
  · rw [hsame]
    exact h.inv
  · have hstart := h.inv.start hhistory h.peer hclass hcmd h.short haccepts.long haccepts.fcs haccepts.size h.fresh
    rcases hresult with hresult | ⟨hwhole, hresult⟩
    · rw [hresult]
      exact hstart
    · rw [hresult]
      refine hstart.deliver h.fresh (fragSession_le pCmd) ?_
      intro k _ hk
      have hshort := h.short
      have hmark := markBytes_marked (fun _ => 0) 0 (len - firstFragNonpayloadLength) k (by omega)
      have hlt : k < fragDatagramSize pCmd := hk
      exact hmark.mpr (.inl ⟨Nat.zero_le k, by omega⟩)

theorem inv_receiveSubsequentFragment (h : Receiving s.reassembly p pCmd len)
    (hclass : pCmd 0 = commandClassTransportService)
    (hcmd : cmdType pCmd = commandSubsequentFragment) :
    (receiveSubsequentFragment env s pCmd len).reassembly.Inv := by
  obtain ⟨history, hhistory⟩ := h.history
  rcases reassembly_receiveSubsequentFragment env s pCmd len with hsame | ⟨haccepts, hresult⟩
  · rw [hsame]
    exact h.inv
  rcases hresult with hresult | ⟨-, hresult⟩
  · rw [hresult]
    exact h.inv.setTimer h.fresh true
  have hstore := h.inv.store hhistory h.peer hclass hcmd haccepts.fcs haccepts.session
    haccepts.bound haccepts.size h.fresh
  rcases hresult with hresult | hresult | ⟨hgapless, hsession, hresult⟩
  · rw [hresult]
    exact hstore
  · rw [hresult]
    exact hstore.discard
  · rw [hresult]
    exact hstore.deliver h.fresh hsession hgapless

theorem inv_receive (h : Receiving s.reassembly p pCmd len) : (receive env s pCmd len).reassembly.Inv := by
  have habort : Receiving s.abortIfTieBroken.reassembly p pCmd len := by
    rw [reassembly_abortIfTieBroken]
    exact h
  unfold receive
  split
  · exact h.inv
  rename_i hclass
  have hclass : pCmd 0 = commandClassTransportService := not_not.mp hclass
  split
  · rename_i hcmd
    exact inv_receiveFirstFragment env habort hclass hcmd
  split
  · rename_i hcmd
    exact inv_receiveSubsequentFragment env habort hclass hcmd
  split
  · simpa using h.inv
  split
  · simpa using h.inv
  split
  · simpa using h.inv
  · exact h.inv

end Receive

def Drops (s : TransportService) (p : TsParam) (len : Nat) : Prop :=
  p.snode = p.dnode ∨ datagramSizeMax < len ∨ (s.fromThirdNode p = true ∧
      (p.rxFlags = receiveStatusTypeSingle ∨ p.rxFlags = receiveStatusTypeBroad))

/-- During a reassembly a frame comes from the node whose datagram is being put together, or the
handler drops it. -/
def OwnSource (s : TransportService) : TsEvent → Prop
  | .frame p _ cmdLength =>
    s.flagInitializeOnce = false → s.rcb.cmn.sessionId ≠ noSession →
      p.snode = s.rcb.currentSnode ∨ s.Drops p cmdLength.toNat
  | _ => True

instance (s : TransportService) (p : TsParam) (len : Nat) : Decidable (s.Drops p len) :=
  inferInstanceAs (Decidable (_ ∨ _))

instance (s : TransportService) : (e : TsEvent) → Decidable (s.OwnSource e)
  | .frame p _ cmdLength =>
    inferInstanceAs (Decidable (s.flagInitializeOnce = false → s.rcb.cmn.sessionId ≠ noSession →
      p.snode = s.rcb.currentSnode ∨ s.Drops p cmdLength.toNat))
  | .sendData .. => inferInstanceAs (Decidable True)
  | .transmitDone .. => inferInstanceAs (Decidable True)
  | .expired .. => inferInstanceAs (Decidable True)

@[simp]
theorem tieBreak_scb (s : TransportService) (p : TsParam) : (tieBreak env s p).scb = s.scb := by
  unfold tieBreak
  split
  · rw [t2SmPostEvent_eq]
  · rfl

@[simp]
theorem tieBreak_rcb (s : TransportService) (p : TsParam) : (tieBreak env s p).rcb = s.rcb := by
  unfold tieBreak
  split
  · rw [t2SmPostEvent_eq]
  · rfl

theorem inv_applicationCommandHandler {s : TransportService} (h : s.reassembly.Inv) (p : TsParam)
    (pCmd : Mem) (cmdLength : UInt8) (hown : s.OwnSource (.frame p pCmd cmdLength)) :
    (applicationCommandHandler env s p pCmd cmdLength).reassembly.Inv := by
  have hheard := h.hear p pCmd cmdLength.toNat
  unfold applicationCommandHandler
  generalize hbroken : tieBreak env ((s.log (.received p pCmd cmdLength.toNat)).ctimerSet .reset) p = broken
  have hview : broken.reassembly = { s.reassembly with
      history := .received p pCmd cmdLength.toNat :: s.reassembly.history } := by
    rw [← hbroken, reassembly_tieBreak, reassembly_ctimerSet, reassembly_log]
    simp [TsOut.concernsReceiver]
  have hrcb : broken.rcb = s.rcb := by
    rw [← hbroken, tieBreak_rcb]
    rfl
  have hscb : broken.scb = s.scb := by
    rw [← hbroken, tieBreak_scb]
    rfl
  have hthird : (broken.setFragWaitP p).fromThirdNode p = s.fromThirdNode p := by
    simp [fromThirdNode, setFragWaitP, hrcb, hscb]
  rw [← hview] at hheard
  dsimp only
  split
  · exact hheard
  rename_i haddress
  obtain ⟨hnode, hlen⟩ := not_or.mp haddress
  unfold filterFrame
  rw [hthird]
  split
  · simpa using hheard
  rename_i hsingle
  split
  · simpa using hheard
  rename_i hbroad
  split
  · simpa using hheard
  -- the frame passed every filter, so that it comes from the source of the reassembly, if any
  have hdrops : ¬ s.Drops p cmdLength.toNat := by
    rintro (hnode' | hlen' | ⟨hthird', hflags | hflags⟩)
    · exact hnode hnode'
    · exact hlen hlen'
    · exact hsingle ⟨hthird', hflags⟩
    · exact hbroad ⟨hthird', hflags⟩
  have htake : (broken.reassembly.take p).Inv := by
    apply hheard.take
    rw [hview]
    exact fun hfresh hsession => (hown hfresh hsession).resolve_right hdrops
  have hfresh : (broken.reassembly.take p).fresh = false := by
    unfold Reassembly.take
    split
    · rfl
    · rename_i hfalse
      simpa using hfalse
  have hpeer : (broken.reassembly.take p).peer = p.snode := by
    unfold Reassembly.take
    split <;> rfl
  have hhistory : (broken.reassembly.take p).history = .received p pCmd cmdLength.toNat :: s.reassembly.history := by
    unfold Reassembly.take
    split <;> rw [hview]
  apply inv_receive env (p := p)
  rw [reassembly_take, reassembly_setFragWaitP]
  exact ⟨htake, hfresh, hpeer, ⟨_, hhistory⟩, Nat.le_of_not_lt hlen⟩

theorem inv_rxTimerExpired {s : TransportService} (h : s.reassembly.Inv)
    (hfresh : s.reassembly.fresh = false) : (rxTimerExpired env s).reassembly.Inv := by
  unfold rxTimerExpired
  generalize hstopped : (s.ctimerStop .rx).t2SmPostEvent .fragRxTimer = stopped
  have hview : stopped.reassembly = { s.reassembly with rxTimer := false } := by
    rw [← hstopped, reassembly_t2SmPostEvent, reassembly_ctimerStop]
    simp
  have hinv : stopped.reassembly.Inv := by
    rw [hview]
    exact h.setTimer hfresh false
  have hnotfresh : stopped.reassembly.fresh = false := by
    rw [hview]
    exact hfresh
  dsimp only
  split
  · rw [reassembly_discardAllReceivedFragments]
    exact hinv.discard
  · rcases reassembly_findMissing env stopped hinv.size with hr | hr | hr | ⟨hgapless, hsession, hr⟩
    · rw [hr]
      exact hinv
    · rw [hr]
      exact hinv.setTimer hnotfresh true
    · rw [hr]
      exact hinv.discard
    · rw [hr]
      exact hinv.deliver hnotfresh hsession hgapless

theorem inv_expire {s : TransportService} (h : s.reassembly.Inv) (t : Timer)
    (hset : s.timers t = true) : (expire env (s.ctimerStop t) t).reassembly.Inv := by
  cases t with
  | fc => simpa [expire] using h
  | rx =>
    have hfresh : s.reassembly.fresh = false := by
      by_contra hnot
      have htimer : s.timers .rx = false := h.timer (by simpa using hnot)
      rw [hset] at htimer
      exact absurd htimer (by decide)
    apply inv_rxTimerExpired
    · rw [reassembly_ctimerStop]
      exact h.setTimer hfresh _
    · rw [reassembly_ctimerStop]
      exact hfresh
  | reset =>
    have hview : (resetTransportService (s.ctimerStop .reset)).reassembly = s.reassembly.discard := by
      unfold resetTransportService
      rw [reassembly_discardAllReceivedFragments, reassembly_mk]
      simp
    change (resetTransportService (s.ctimerStop .reset)).reassembly.Inv
    rw [hview]
    exact h.discard
  | waitRestart => simpa [expire] using h
  | btwn2Frags => simpa [expire] using h

theorem inv_step {s : TransportService} (h : s.reassembly.Inv) (e : TsEvent)
    (hown : s.OwnSource e) : (step env s e).reassembly.Inv := by
  cases e with
  | sendData p pData dataLength => simpa [step] using h
  | frame p pCmd cmdLength => exact inv_applicationCommandHandler env h p pCmd cmdLength hown
  | transmitDone cb status =>
    simp only [step]
    split
    · cases cb <;> simpa [callback] using h
    · exact h
  | expired t =>
    simp only [step]
    split
    · rename_i hset
      exact inv_expire env h t hset
    · exact h

theorem inv_init : init.reassembly.Inv where
  sound := trivial
  size := Nat.zero_le _
  timer := fun _ => rfl
  opened := fun hfresh => absurd hfresh (by decide)

/-- Every datagram handed to the application is justified by the frames that were received, in every
run in which no frame of another node gets past the filter during a reassembly. -/
theorem deliveries_justified (events : List TsEvent) (hown : Machine.Admissible (step env) OwnSource init events) :
    SoundHistory ((Machine.run (step env) init events).out.filter TsOut.concernsReceiver) := by
  have hstep : ∀ (s : TransportService) (e : TsEvent), s.OwnSource e → s.reassembly.Inv →
      (step env s e).reassembly.Inv := fun s e hok h => inv_step env h e hok
  have hinv := Machine.run_invariant_of_admissible hstep hown inv_init
  exact hinv.sound

section Samples

def sampleTsEnv : TsEnv where
  myNodeId := 1
  rand := fun _ => 4
  tsSendRaw := fun _ => true
  refusals := fun _ => 0

def sampleFragment (snode : NodeId) (rxFlags : UInt8) (frame : Bytes) : TsEvent :=
  .frame { snode := snode, dnode := 1, txFlags := 0, rxFlags := rxFlags }
    (addCrc (Mem.ofBytes frame) frame.length) (UInt8.ofNat (frame.length + 2))

def sampleFirst (snode : NodeId) : TsEvent :=
  sampleFragment snode receiveStatusTypeSingle [0x55, 0xC0, 0x03, 0x10, 0xAA]

def sampleSubseq (snode : NodeId) (rxFlags : UInt8) : TsEvent :=
  sampleFragment snode rxFlags [0x55, 0xE0, 0x03, 0x10, 0x01, 0xBB, 0xCC]

def TsOut.delivery? : TsOut → Option (NodeId × Bytes)
  | .delivered snode _ data => some (snode, data)
  | _ => none

def sampleHistory (snode : NodeId) (rxFlags : UInt8) : List TsOut :=
  (Machine.run (step sampleTsEnv) init [sampleFirst 5, sampleSubseq snode rxFlags]).out.filter TsOut.concernsReceiver

set_option maxRecDepth 4000 in
theorem sampleDatagram_justified : (sampleHistory 5 0).filterMap TsOut.delivery? = [(5, [0xAA, 0xBB, 0xCC])] ∧
      SoundHistory (sampleHistory 5 0) := by
  have hfirst : OwnSource init (sampleFirst 5) := by decide
  have hsubseq : OwnSource (step sampleTsEnv init (sampleFirst 5)) (sampleSubseq 5 0) := by
    decide
  refine ⟨by decide, ?_⟩
  rw [sampleHistory]
  have hown : Machine.Admissible (step sampleTsEnv) OwnSource init
      [sampleFirst 5, sampleSubseq 5 0] := And.intro hfirst (And.intro hsubseq trivial)
  exact deliveries_justified sampleTsEnv [sampleFirst 5, sampleSubseq 5 0] hown

/-- A fragment of node 6 whose receive status has the flag for a locked response route completes the
datagram of node 5, and the datagram is delivered as one of node 6. -/
theorem thirdNode_fragment_merged : (sampleHistory 6 0x01).filterMap TsOut.delivery? = [(6, [0xAA, 0xBB, 0xCC])] ∧
      ¬ SoundHistory (sampleHistory 6 0x01) := by
  decide

end Samples

end TransportService

end ZipGateway

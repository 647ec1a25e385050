import ZipGateway.Inclusion.Simulation

/-!
# Every inclusion ends once

Whatever is called, each start is followed by one end: the event that the inclusion is complete or
has failed, and for a joining node also the events that it has joined or that nobody asked for it, or
a no while it waits for the KEX Get, which is not reported. When the machine is idle the temporary
slots are empty.
-/

namespace ZipGateway.Inclusion

def Entry.isStart : Entry → Bool
  | .started | .joined => true
  | _ => false

def Entry.isInclusionEnd : Entry → Bool
  | .event (.inclusionComplete _ _) | .event (.inclusionFailed _ _) => true
  | _ => false

def Entry.isJoiningEnd : Entry → Bool
  | .event (.joiningComplete _ _) | .event (.neverStarted _ _) => true
  | entry => entry.isRejection && entry.found? = some .awaitingKexGet

structure Accounted (o : Progress) : Prop where
  balance : o.log.countP Entry.isStart = o.log.countP Entry.isInclusionEnd + o.log.countP Entry.isJoiningEnd +
      if o.state = .idle then 0 else 1
  slots : o.state = .idle ∨ o.state = .awaitingKexGet → o.temporary = false ∧ o.network = false
  including : .joined ∉ o.log → o.state.isJoining = false ∧ ∀ e ∈ o.log, e.isJoiningEnd = false

def Entry.Neutral (e : Entry) : Prop :=
  e.isStart = false ∧ e.isInclusionEnd = false ∧ e.isJoiningEnd = false

variable {e : Entry}

theorem neutral_of_sends {o : Progress} (h : o.Sends e) : e.Neutral := by
  cases e <;> first | exact h.elim | exact ⟨rfl, rfl, rfl⟩

theorem neutral_of_hears {o : Progress} (h : o.Hears e) : e.Neutral := by
  cases e with
  | keyGrant found accept keys csa =>
    refine ⟨rfl, rfl, ?_⟩
    by_cases hfound : found = .awaitingKexGet
    · simp [Entry.isJoiningEnd, Entry.isRejection, h.2 hfound]
    · simp [Entry.isJoiningEnd, Entry.found?, hfound]
  | challenge found accept =>
    refine ⟨rfl, rfl, ?_⟩
    by_cases hfound : found = .awaitingKexGet
    · simp [Entry.isJoiningEnd, Entry.isRejection, h.2 hfound]
    · simp [Entry.isJoiningEnd, Entry.found?, hfound]
  | aborted found => exact ⟨rfl, rfl, by simp [Entry.isJoiningEnd, Entry.found?, h.2]⟩
  | received found requested exchange src frame => exact ⟨rfl, rfl, rfl⟩
  | event up => cases up <;> first | exact ⟨rfl, rfl, rfl⟩ | cases h
  | started => exact h.elim
  | joined => exact h.elim
  | sentFrame con frame ok => exact h.elim
  | sentData con frame result => exact h.elim

namespace Accounted

variable {o o' : Progress}

theorem advance (h : Accounted o) (hidle : o.state ≠ .idle) (hidle' : o'.state ≠ .idle)
    (hkexGet : o'.state ≠ .awaitingKexGet) (hjoining : o'.state.isJoining = o.state.isJoining)
    (hlog : o'.log = o.log) : Accounted o' where
  balance := by rw [hlog, if_neg hidle', h.balance, if_neg hidle]
  slots hs := by rcases hs with hs | hs <;> contradiction
  including := by rw [hlog, hjoining]; exact h.including

theorem neutral (h : Accounted o) (he : e.Neutral) : Accounted { o with log := e :: o.log } where
  balance := by
    obtain ⟨hstart, hend, hjoin⟩ := he
    simpa [hstart, hend, hjoin] using h.balance
  slots := h.slots
  including hj := by
    obtain ⟨hstate, hends⟩ := h.including fun hmem => hj (List.mem_cons_of_mem e hmem)
    exact ⟨hstate, List.forall_mem_cons.mpr ⟨he.2.2, hends⟩⟩

theorem finish (h : Accounted o) (hidle : o.state ≠ .idle) (hstart : e.isStart = false)
    (hend : e.isInclusionEnd = !e.isJoiningEnd)
    (hjoining : e.isJoiningEnd = true → o.state.isJoining = true) (hstate : o'.state = .idle)
    (hslots : o'.temporary = false ∧ o'.network = false) (hlog : o'.log = e :: o.log) :
    Accounted o' where
  balance := by
    have hbalance := h.balance
    rw [if_neg hidle] at hbalance
    rw [hlog, if_pos hstate, List.countP_cons, List.countP_cons, List.countP_cons, hstart, hbalance, hend]
    cases e.isJoiningEnd <;> simp <;> omega
  slots _ := hslots
  including hj := by
    have hstart' : e ≠ .joined := by
      rintro rfl
      cases hstart
    have hnot : Entry.joined ∉ o.log := by
      intro hmem
      exact hj (hlog ▸ List.mem_cons_of_mem e hmem)
    obtain ⟨hincluding, hends⟩ := h.including hnot
    refine ⟨by rw [hstate]; rfl, ?_⟩
    rw [hlog]
    refine List.forall_mem_cons.mpr ⟨?_, hends⟩
    by_contra hend'
    have := hjoining (by simpa using hend')
    rw [hincluding] at this
    cases this

theorem begin_ (h : Accounted o) (hidle : o.state = .idle) (hstart : e.isStart)
    (hstate : o'.state ≠ .idle) (hslots : o'.temporary = o.temporary ∧ o'.network = o.network)
    (hjoining : o'.state.isJoining → e = .joined) (hlog : o'.log = e :: o.log) : Accounted o' where
  balance := by
    have hbalance := h.balance
    rw [if_pos hidle] at hbalance
    have hend : e.isInclusionEnd = false ∧ e.isJoiningEnd = false := by
      cases e <;> first | exact ⟨rfl, rfl⟩ | cases hstart
    rw [hlog, if_neg hstate, List.countP_cons, List.countP_cons, List.countP_cons, hstart, hend.1, hend.2, hbalance]
    simp
  slots _ := by
    rw [hslots.1, hslots.2]
    exact h.slots (.inl hidle)
  including hj := by
    have hnot : e ≠ .joined := by
      rintro rfl
      exact hj (hlog ▸ List.mem_cons_self)
    have hnot' : Entry.joined ∉ o.log := fun hmem => hj (hlog ▸ List.mem_cons_of_mem e hmem)
    have hend : e.isJoiningEnd = false := by
      cases e <;> first | rfl | cases hstart
    refine ⟨by simpa using fun h => hnot (hjoining h), ?_⟩
    rw [hlog]
    exact List.forall_mem_cons.mpr ⟨hend, (h.including hnot').2⟩

theorem move (h : Accounted o) (hmove : Move o o') : Accounted o' := by
  cases hmove with
  | prepare command key _ => exact ⟨h.balance, h.slots, h.including⟩
  | sent e hsends => exact h.neutral (neutral_of_sends hsends)
  | heard e hhears => exact h.neutral (neutral_of_hears hhears)
  | restored => exact ⟨h.balance, fun _ => ⟨rfl, rfl⟩, h.including⟩
  | idle _ hs hstate hstill hslots =>
    refine ⟨?_, ?_, ?_⟩
    · rw [hstill.log, hstate, h.balance, hs]
    · rw [hslots.1, hslots.2]
      exact fun _ => h.slots (.inl hs)
    · rw [hstill.log, hstate, ← hs]
      exact h.including
  | start rNode mode key hs => exact h.begin_ hs rfl (by simp) ⟨rfl, rfl⟩ (by simp [State.isJoining]) rfl
  | join rNode mode hs => exact h.begin_ hs rfl (by simp) ⟨rfl, rfl⟩ (fun _ => rfl) rfl
  | cancel e hs hfound hrejection =>
    have hend : e.isJoiningEnd = true := by
      cases e <;> simp_all [Entry.isJoiningEnd, Entry.isRejection]
    have hincluding : e.isInclusionEnd = false ∧ e.isStart = false := by
      cases e <;> simp_all [Entry.isRejection, Entry.isInclusionEnd, Entry.isStart]
    refine h.finish (by simp [hs]) hincluding.2 (by rw [hend, hincluding.1]; rfl) ?_ rfl ?_ rfl
    · intro _
      rw [hs]
      rfl
    · exact h.slots (.inr hs)
  | fail o₁ peer failType hs hstill => exact h.finish hs rfl rfl (by simp [Entry.isJoiningEnd, Entry.isRejection]) rfl ⟨rfl, rfl⟩ rfl
  | complete peer hpeer hs =>
    have hidle : o.state ≠ .idle := by
      rcases hs with hs | ⟨hs, -⟩ <;> simp [hs]
    exact h.finish hidle rfl rfl (by simp [Entry.isJoiningEnd, Entry.isRejection]) rfl ⟨rfl, rfl⟩ rfl
  | joined up hs hup =>
    have hidle := Ctx.ne_idle_of_isJoining hs
    rcases hup with ⟨peer, keys, rfl⟩ | ⟨peer, keys, rfl⟩
    · exact h.finish hidle rfl rfl (fun _ => hs) rfl ⟨rfl, rfl⟩ rfl
    · exact h.finish hidle rfl rfl (fun _ => hs) rfl ⟨rfl, rfl⟩ rfl
  | error _ hs hstate hstill =>
    refine ⟨?_, ?_, ?_⟩
    · rw [hstill.log, h.balance, hstate, if_neg hs]
      rfl
    · rw [hstate]
      simp
    · rw [hstill.log, hstate]
      exact fun hj => ⟨rfl, (h.including hj).2⟩
  | joining _ hs hstate hslots hstill =>
    have hidle := Ctx.ne_idle_of_isJoining hs
    have hidle' := Ctx.ne_idle_of_isJoining hstate
    refine ⟨?_, ?_, ?_⟩
    · rw [hstill.log, h.balance, if_neg hidle, if_neg hidle']
    · rintro (hs' | hs')
      · contradiction
      · obtain ⟨hkexGet, hsame⟩ := hslots hs'
        rw [hsame.1, hsame.2]
        exact h.slots (.inr hkexGet)
    · rw [hstill.log]
      intro hj
      have hincluding := (h.including hj).1
      rw [hs] at hincluding
      cases hincluding
  | reported keyGranted keyExchange hs =>
    exact h.advance (by simp [hs]) (by simp) (by simp) (by simp [hs, State.isJoining]) rfl
  | offer mode keys con ok hs haccepts =>
    have hsent : Accounted { o with
        state := .awaitingPubKeyB, mode := mode, keyGranted := keys, command := kexSet,
        key := if mode = .csa then csaOn else 0 } :=
      h.advance (by simp [hs]) (by simp) (by simp) (by simp [hs, State.isJoining]) rfl
    exact hsent.neutral ⟨rfl, rfl, rfl⟩
  | challenge hs =>
    exact h.advance (by simp [hs]) (by simp) (by simp) (by simp [hs, State.isJoining]) rfl
  | acknowledge mode keys hs haccepts =>
    exact h.advance (by simp [hs]) (by simp) (by simp) (by simp [hs, State.isJoining]) rfl
  | echo src frame hs hecho =>
    exact h.advance (by simp [hs]) (by simp) (by simp) (by simp [hs, State.isJoining]) rfl
  | release src frame key hs hrequested =>
    exact h.advance (by simp [hs]) (by simp) (by simp) (by simp [hs, State.isJoining]) rfl
  | load hs => exact h.advance (by simp [hs]) (by simp [hs]) (by simp [hs]) rfl rfl
  | verify src frame hs hconfirmed =>
    refine h.advance (by simp [hs]) ?_ ?_ ?_ rfl
    all_goals
      dsimp only
      split_ifs <;> simp [hs, State.isJoining]

theorem moves (h : Accounted o) (hmoves : Moves o o') : Accounted o' := by
  induction hmoves with
  | refl => exact h
  | tail _ hmove ih => exact ih.move hmove

theorem start (keystore : UInt8 → Option Bytes) : Accounted (Ctx.start keystore).progress where
  balance := rfl
  slots _ := ⟨rfl, rfl⟩
  including _ := ⟨rfl, fun _ he => by cases he⟩

end Accounted

def openInclusions (log : List Entry) : Int :=
  log.countP (· = .started) - log.countP Entry.isInclusionEnd

def openBootstraps (log : List Entry) : Int :=
  log.countP Entry.isStart - (log.countP Entry.isInclusionEnd + log.countP Entry.isJoiningEnd)

/-- The inclusions alone account for the state, and an idle machine has no temporary key loaded. -/
def InclusionsBalanced (s : Ctx) : Prop :=
  openInclusions s.log = (if s.state = .idle then 0 else 1) ∧
    (s.state = .idle → s.slots tempKeySlot = none ∧ s.slots networkKeySlot = none)

/-- One thing at a time is open while the machine is not idle, and nothing while it is; where no node
ever joins, these are the inclusions. In the idle state the temporary slots are not loaded. -/
theorem endings_balance (env : Env) (depth : Nat) (keystore : UInt8 → Option Bytes) (calls : List Call) :
    let s := Ctx.run env depth (Ctx.start keystore) calls
    openBootstraps s.log = (if s.state = .idle then 0 else 1) ∧
      (.joined ∉ s.log → InclusionsBalanced s) ∧
      (s.state = .idle → s.slots tempKeySlot = none ∧ s.slots networkKeySlot = none) := by
  intro s
  have haccounted : Accounted s.progress :=
    (Accounted.start keystore).moves (Ctx.moves_run env depth (Ctx.start keystore) calls)
  have hbalance := haccounted.balance
  change s.log.countP _ = s.log.countP _ + s.log.countP _ + (if s.state = .idle then 0 else 1) at hbalance
  have hslots : s.state = .idle → s.slots tempKeySlot = none ∧ s.slots networkKeySlot = none := by
    intro hidle
    obtain ⟨htemporary, hnetwork⟩ := haccounted.slots (.inl hidle)
    exact ⟨Option.not_isSome_iff_eq_none.mp (by simpa [Ctx.progress] using htemporary),
      Option.not_isSome_iff_eq_none.mp (by simpa [Ctx.progress] using hnetwork)⟩
  refine ⟨?_, fun hjoined => ⟨?_, hslots⟩, hslots⟩
  · unfold openBootstraps
    split_ifs at hbalance ⊢ <;> omega
  · have hstarts : s.log.countP Entry.isStart = s.log.countP (· = .started) := by
      refine List.countP_congr fun e he => ?_
      have hne : e ≠ .joined := ne_of_mem_of_not_mem he hjoined
      cases e <;> simp_all [Entry.isStart]
    have hends : s.log.countP Entry.isJoiningEnd = 0 := by
      refine List.countP_eq_zero.mpr fun e he => ?_
      simp [(haccounted.including hjoined).2 e he]
    unfold openInclusions
    rw [← hstarts]
    split_ifs at hbalance ⊢ <;> omega

/-- A node that waits for the KEX Get is not idle, and no inclusion was started. -/
theorem joining_not_balanced : ¬InclusionsBalanced (Ctx.run Env.passive 0 (Ctx.start fun _ => none)
      [.joiningStart S2.zeroConnection 0]) := by
  rintro ⟨hbalance, -⟩
  revert hbalance
  decide

end ZipGateway.Inclusion

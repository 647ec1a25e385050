import ZipGateway.SendData.Served

/-!
# The abort of a waiting session

`ZW_SendDataApplAbort` goes by the block of a session, and compares it with `current_session` first.
That pointer is left as it is when a session is completed, so that it may be at the block of a session
that was accepted since. The result is that this is exactly when the abort of a waiting session fails.
-/

namespace ZipGateway

open SendLog

namespace SendDataAppl

/-- `ZW_SendDataApplAbort` calls `ZW_SendDataAbort` and `sec0_abort_all_tx_sessions`. -/
def abortsBelow (s : SendDataAppl) (handle : Nat) : Bool :=
  decide (0 < handle ∧ handle ≤ sessionMembNum) && (s.currentSession.map fun i => i.val + 1) == some handle

/-- No session is started, and what is left of the sessions was there before. -/
structure Calm (s t : SendDataAppl) : Prop where
  log : ∃ new, t.out = new ++ s.out ∧ ∀ fb, .started fb ∉ new
  live : ∀ i ∈ t.live, i ∈ s.live ∧ t.idOf i = s.idOf i

namespace Calm

variable {s t u : SendDataAppl}

theorem refl (s : SendDataAppl) : Calm s s :=
  ⟨⟨[], rfl, fun _ h => by cases h⟩, fun _ hi => ⟨hi, rfl⟩⟩

theorem trans (hst : Calm s t) (htu : Calm t u) : Calm s u := by
  obtain ⟨new, hnew, hno⟩ := hst.log
  obtain ⟨new', hnew', hno'⟩ := htu.log
  refine ⟨⟨new' ++ new, ?_, ?_⟩, fun i hi => ?_⟩
  · rw [hnew', hnew, List.append_assoc]
  · intro fb hmem
    rcases List.mem_append.mp hmem with hmem | hmem
    · exact hno' fb hmem
    · exact hno fb hmem
  · obtain ⟨hi', hid'⟩ := htu.live i hi
    obtain ⟨hi'', hid⟩ := hst.live i hi'
    exact ⟨hi'', hid'.trans hid⟩

theorem of_eq (hout : t.out = s.out) (hlive : t.live = s.live) (hid : ∀ i ∈ s.live, t.idOf i = s.idOf i) :
    Calm s t := by
  refine ⟨⟨[], hout, fun _ h => by cases h⟩, fun i hi => ?_⟩
  rw [hlive] at hi
  exact ⟨hi, hid i hi⟩

theorem of_log {o : SendOut} (hout : t.out = o :: s.out) (ho : ∀ fb, o ≠ .started fb)
    (hlive : ∀ i ∈ t.live, i ∈ s.live) (hmem : t.mem = s.mem) : Calm s t := by
  refine ⟨⟨[o], hout, fun fb hmem => ?_⟩, fun i hi => ⟨hlive i hi, ?_⟩⟩
  · exact ho fb (List.mem_singleton.mp hmem).symm
  · rw [idOf, hmem, idOf]

end Calm

section Steps

variable {s : SendDataAppl} {i : SendBlock}

theorem calm_callbackEx (env : SendEnv) (s : SendDataAppl) (status : UInt8) (i : SendBlock)
    (report : Bool) : Calm s (callbackEx env s status i report) := by
  cases hlock : s.lock with
  | false =>
    have hsame : callbackEx env s status i report = s := by
      unfold callbackEx
      rw [hlock]
      rfl
    rw [hsame]
    exact .refl s
  | true =>
    obtain ⟨node, timer, posted, lost, heq, -⟩ := callbackEx_eq env status i report hlock
    rw [heq]
    refine .of_log rfl (fun fb h => by cases h) (fun j hj => ?_) rfl
    rw [live_of_unlock rfl] at hj
    exact List.mem_append_right _ hj

theorem calm_runCallback (env : SendEnv) (s : SendDataAppl) (cb : SendCallback) (status : UInt8)
    (report : Bool) : Calm s (runCallback env s cb status report) := by
  cases cb with
  | application => exact .refl s
  | layer => exact .refl s
  | callbackEx user => exact calm_callbackEx env s status user report

theorem calm_pop (s : SendDataAppl) (i : SendBlock) (rest : List SendBlock) (fb : FrameBuffer) :
    Calm s { membFree (zwFrameBufferFree { s with
      sendDataList := rest
      emergencyTimer := false } fb) i with lockLl := false } :=
  .of_eq rfl rfl fun _ _ => rfl

theorem calm_sendDataCallbackFunc (env : SendEnv) (s : SendDataAppl) (status : UInt8) (report : Bool)
    (radio : Option Nat) : Calm s (sendDataCallbackFunc env s status report radio) := by
  unfold sendDataCallbackFunc
  split
  · exact .refl s
  · cases s.sendDataList with
    | nil => exact .refl s
    | cons i rest =>
      have hdone : ∀ u, Calm s u → Calm s ((runCallback env { membFree (zwFrameBufferFree { u with
          sendDataList := rest
          emergencyTimer := false } (s.mem i).fb) i with lockLl := false }
          (s.mem i).callback status report).post .sendNextLl) := by
        intro u hu
        have hpop := hu.trans (calm_pop u i rest (s.mem i).fb)
        have hcalled := hpop.trans (calm_runCallback env _ (s.mem i).callback status report)
        exact hcalled.trans (.of_eq rfl rfl fun _ _ => rfl)
      cases radio with
      | none => exact hdone s (.refl s)
      | some fb => exact hdone _ (.of_log rfl (fun fb h => by cases h) (fun _ hj => hj) rfl)

theorem idOf_discard (s : SendDataAppl) (i j : SendBlock) :
    (s.setSession i { s.mem i with discardTimer := false }).idOf j = s.idOf j := by
  by_cases hj : j = i
  · subst hj
    simp [idOf, setSession]
  · simp [idOf, setSession, hj]

theorem calm_doDiscardTimeoutMemb (env : SendEnv) (s : SendDataAppl) (i : SendBlock) :
    Calm s (doDiscardTimeoutMemb env s i) := by
  unfold doDiscardTimeoutMemb
  dsimp only
  split
  · exact .refl s
  · refine .trans ?_ (calm_runCallback env _ (s.mem i).callback txFail false)
    exact .of_eq rfl rfl fun j _ => idOf_discard s i j

theorem calm_sendData (env : SendEnv) (p : SendParam) (data : Mem) (len : Nat) (cb : SendCallback)
    (halloc : ∀ i ∈ s.live, s.allocated i = true) : Calm s (sendData env s p data len cb).2 := by
  rcases sendData_cases env s p data len cb with ⟨i, m, ⟨-, -, heq⟩ | heq⟩ | ⟨i, m, x, hfree, -, -, -, heq⟩
  · rw [heq]
    exact .of_eq rfl rfl fun _ _ => rfl
  · rw [heq]
    exact .refl s
  · rw [heq]
    refine .of_eq rfl rfl fun j hj => ?_
    have hne : j ≠ i := by
      rintro rfl
      exact absurd ((halloc j hj).symm.trans hfree) (by decide)
    change (Function.update s.mem i x j).fb.id = (s.mem j).fb.id
    rw [Function.update_of_ne hne]

theorem calm_sendEndpoint (env : SendEnv) (i : SendBlock) (halloc : ∀ i ∈ s.live, s.allocated i = true) :
    Calm s (sendEndpoint env s i).2 := by
  unfold sendEndpoint
  dsimp only
  cases env.sendEndpoint s.nRoutes with
  | refused => exact .of_eq rfl rfl fun _ _ => rfl
  | layered => exact .of_eq rfl rfl fun _ _ => rfl
  | direct data len =>
    have hsame : Calm s { s with nRoutes := s.nRoutes + 1 } := .of_eq rfl rfl fun _ _ => rfl
    exact hsame.trans (calm_sendData env _ data len (.callbackEx i) halloc)

theorem calm_sendNextLl (env : SendEnv) (s : SendDataAppl) : Calm s (sendNextLl env s) := by
  unfold sendNextLl
  cases s.sendDataList with
  | nil => exact .refl s
  | cons i rest =>
    dsimp only
    split
    · exact .refl s
    · have hset : Calm s (if (s.mem i).fb.param.discardTimeout ≠ 0 then
          s.setSession i { s.mem i with discardTimer := false } else s) := by
        split
        · exact .of_eq rfl rfl fun j _ => idOf_discard s i j
        · exact .refl s
      generalize (if (s.mem i).fb.param.discardTimeout ≠ 0 then
          s.setSession i { s.mem i with discardTimer := false } else s) = u at hset
      refine hset.trans ?_
      split
      · exact .of_log rfl (fun fb h => by cases h) (fun _ hj => hj) rfl
      · refine .trans ?_ (calm_sendDataCallbackFunc env _ txFail false none)
        exact .of_eq rfl rfl fun _ _ => rfl

theorem calm_zwSendDataApplAbort (s : SendDataAppl) (handle : Nat) : Calm s (s.zwSendDataApplAbort handle) := by
  unfold zwSendDataApplAbort
  split
  · dsimp only
    split
    · exact .refl s
    · split
      · refine .of_log rfl (fun fb h => by cases h) (fun j hj => ?_) rfl
        rcases List.mem_append.mp hj with hj | hj
        · exact List.mem_append_left _ hj
        · exact List.mem_append_right _ (List.mem_of_mem_erase hj)
      · exact .refl s
  · exact .refl s

structure Starts (s : SendDataAppl) (i : SendBlock) (t : SendDataAppl) : Prop where
  mem : i ∈ s.sessionList
  log : ∃ new, t.out = new ++ .started (s.idOf i) :: s.out ∧ ∀ fb, .started fb ∉ new
  live : ∀ j ∈ t.live, j ∈ s.live ∧ t.idOf j = s.idOf j

theorem sendFirst_cases (env : SendEnv) (h : Shape s) (hlock : s.lock = false) :
    Calm s (sendFirst env s) ∨ ∃ i, Starts s i (sendFirst env s) := by
  cases hlist : s.sessionList with
  | nil =>
    left
    have heq : sendFirst env s = { s with currentSession := none } := by
      rw [sendFirst, hlist]
    rw [heq]
    exact .of_eq rfl (by simp [live, hlock]) fun _ _ => rfl
  | cons i rest =>
    right
    refine ⟨i, ?_⟩
    generalize hu : ({ s with
      sessionList := rest, currentSession := some i, lock := true } : SendDataAppl).log (.started (s.mem i).fb.id) = u
    have hlive : u.live = s.live := by
      rw [← hu, live_of_unlock hlock, hlist]
      rfl
    have hmem : ∀ j, u.idOf j = s.idOf j := fun j => by rw [← hu]; rfl
    have halloc : ∀ j ∈ u.live, u.allocated j = true := by
      intro j hj
      rw [hlive] at hj
      rw [← hu]
      exact h.alloc j (List.mem_append_left _ hj)
    have hcalm : Calm u (sendFirst env s) := by
      have hend := calm_sendEndpoint env i halloc
      unfold sendFirst
      rw [hlist]
      dsimp only
      rw [hu]
      generalize sendEndpoint env u i = r at hend
      obtain ⟨ok, v⟩ := r
      cases ok with
      | true => exact hend
      | false => exact hend.trans (calm_callbackEx env v txError i false)
    obtain ⟨new, hnew, hno⟩ := hcalm.log
    refine ⟨by rw [hlist]; exact List.mem_cons_self, ⟨new, ?_, hno⟩, fun j hj => ?_⟩
    · rw [hnew, ← hu]
      rfl
    · obtain ⟨hj', hid⟩ := hcalm.live j hj
      rw [hlive] at hj'
      exact ⟨hj', hid.trans (hmem j)⟩

structure Accepts (s : SendDataAppl) (i : SendBlock) (t : SendDataAppl) : Prop where
  log : t.out = .accepted (t.idOf i) (i.val + 1) :: s.out
  live : ∀ j ∈ t.live, j = i ∨ (j ∈ s.live ∧ t.idOf j = s.idOf j)

theorem zwSendDataAppl_accepts (env : SendEnv) (p : SendParam) (data : Mem) (len : Nat) (h : Shape s) :
    Calm s (zwSendDataAppl env s p data len) ∨ ∃ i, Accepts s i (zwSendDataAppl env s p data len) := by
  rcases zwSendDataAppl_cases env s p data len with ⟨m, heq⟩ | ⟨i, m, x, hfree, hid, -, heq⟩
  · left
    rw [heq]
    exact .of_eq rfl rfl fun _ _ => rfl
  · right
    have hnot : i ∉ s.sessionList := fun hmem =>
      h.not_mem hfree (List.mem_append_left _ (List.mem_append_right _ hmem))
    have hnew : Function.update s.mem i x i = x := Function.update_self i x s.mem
    rw [heq, listAdd_eq hnot]
    refine ⟨i, ?_, fun j hj => ?_⟩
    · dsimp only [idOf, post]
      rw [hnew, hid]
    · by_cases hji : j = i
      · exact .inl hji
      · right
        refine ⟨?_, ?_⟩
        · rcases List.mem_append.mp hj with hj | hj
          · exact List.mem_append_left _ hj
          · rcases List.mem_append.mp hj with hj | hj
            · exact List.mem_append_right _ hj
            · exact absurd (List.mem_singleton.mp hj) hji
        · dsimp only [idOf, post]
          rw [Function.update_of_ne hji]

theorem process_cases (env : SendEnv) (e : SendEvent) (h : Shape s) :
    Calm s (process env s e) ∨ ∃ i, Starts s i (process env s e) := by
  cases e with
  | emergencyTimer => exact .inl (calm_sendDataCallbackFunc env s txFail false none)
  | backoffTimer => exact .inl (.of_eq rfl rfl fun _ _ => rfl)
  | sendNextLl => exact .inl (calm_sendNextLl env s)
  | sendNext =>
    by_cases hcond : (!s.lock && !s.backoffTimer) = true
    · have hlock : s.lock = false := by
        simp only [Bool.and_eq_true, Bool.not_eq_true'] at hcond
        exact hcond.1
      have heq : process env s .sendNext = sendFirst env s := if_pos hcond
      rw [heq]
      exact sendFirst_cases env h hlock
    · have heq : process env s .sendNext = s := if_neg hcond
      rw [heq]
      exact .inl (.refl s)

theorem step_cases (env : SendEnv) (e : SendInput) (h : Shape s) : Calm s (step env s e) ∨
    (∃ i, Accepts s i (step env s e)) ∨ ∃ i, Starts s i (step env s e) := by
  cases e with
  | sendDataAppl p data len =>
    rcases zwSendDataAppl_accepts env p data len h with hcalm | hacc
    · exact .inl hcalm
    · exact .inr (.inl hacc)
  | abort handle => exact .inl (calm_zwSendDataApplAbort s handle)
  | sendData p data len =>
    exact .inl (calm_sendData env p data len .layer fun i hi => h.alloc i (List.mem_append_left _ hi))
  | layerDone n status report =>
    left
    dsimp only [step]
    split
    · refine .trans ?_ (calm_callbackEx env _ status _ report)
      exact .of_eq rfl rfl fun _ _ => rfl
    · exact .refl s
  | radioDone n status report =>
    left
    dsimp only [step]
    split
    · refine .trans ?_ (calm_sendDataCallbackFunc env _ status report _)
      exact .of_eq rfl rfl fun _ _ => rfl
    · exact .refl s
  | discard i => exact .inl (calm_doDiscardTimeoutMemb env s i)
  | emergencyExpires =>
    left
    dsimp only [step]
    split
    · exact .of_eq rfl rfl fun _ _ => rfl
    · exact .refl s
  | backoffExpires =>
    left
    dsimp only [step]
    split
    · exact .of_eq rfl rfl fun _ _ => rfl
    · exact .refl s
  | otherEvents n =>
    left
    dsimp only [step]
    split
    · exact .of_eq rfl rfl fun _ _ => rfl
    · exact .refl s
  | frameRx snode =>
    left
    dsimp only [step, frameRxNotify]
    split
    · exact .of_eq rfl rfl fun _ _ => rfl
    · exact .refl s
  | deliver n =>
    dsimp only [step]
    split
    · rename_i e hn
      have hshape : Shape { s with posted := s.posted.eraseIdx n } :=
        ⟨h.nodup, h.alloc, h.current, h.timers, h.head⟩
      rcases process_cases env e hshape with hcalm | ⟨i, hstarts⟩
      · left
        refine .trans ?_ hcalm
        exact .of_eq rfl rfl fun _ _ => rfl
      · exact .inr (.inr ⟨i, hstarts.mem, hstarts.log, hstarts.live⟩)
    · exact .inl (.refl s)

end Steps

/-! ### Handles -/

section Handles

variable {s t : SendDataAppl}

def Handled (s : SendDataAppl) : Prop :=
  ∀ i ∈ s.live, .accepted (s.idOf i) (i.val + 1) ∈ s.out

theorem handled_step (env : SendEnv) (e : SendInput) (h : Shape s) (hhandled : Handled s) : Handled (step env s e) := by
  intro j hj
  rcases step_cases env e h with hcalm | ⟨i, hacc⟩ | ⟨i, hstarts⟩
  · obtain ⟨new, hnew, -⟩ := hcalm.log
    obtain ⟨hlive, hid⟩ := hcalm.live j hj
    rw [hnew, hid]
    exact List.mem_append_right _ (hhandled j hlive)
  · rw [hacc.log]
    rcases hacc.live j hj with rfl | ⟨hlive, hid⟩
    · exact List.mem_cons_self
    · rw [hid]
      exact List.mem_cons_of_mem _ (hhandled j hlive)
  · obtain ⟨new, hnew, -⟩ := hstarts.log
    obtain ⟨hlive, hid⟩ := hstarts.live j hj
    rw [hnew, hid]
    exact List.mem_append_right _ (List.mem_cons_of_mem _ (hhandled j hlive))

theorem handle_unique {out : List SendOut} {fb a b : Nat} (h : (acceptedIds out).Nodup)
    (ha : .accepted fb a ∈ out) (hb : .accepted fb b ∈ out) : a = b := by
  have hid : ∀ {c : Nat} {rest : List SendOut}, .accepted fb c ∈ rest → fb ∈ acceptedIds rest :=
    fun hmem => List.mem_filterMap.mpr ⟨_, hmem, rfl⟩
  induction out with
  | nil => cases ha
  | cons o rest ih =>
    by_cases ho : ∃ c, o = .accepted fb c
    · obtain ⟨c, rfl⟩ := ho
      have hnot : fb ∉ acceptedIds rest := (List.nodup_cons.mp h).1
      have hfirst : ∀ d, .accepted fb d ∈ SendOut.accepted fb c :: rest → d = c := by
        intro d hd
        rcases List.mem_cons.mp hd with heq | hd
        · injection heq
        · exact absurd (hid hd) hnot
      rw [hfirst a ha, hfirst b hb]
    · have hrest : ∀ d, .accepted fb d ∈ o :: rest → .accepted fb d ∈ rest := by
        intro d hd
        refine List.mem_of_ne_of_mem ?_ hd
        rintro rfl
        exact ho ⟨d, rfl⟩
      have hnodup : (acceptedIds rest).Nodup :=
        h.sublist ((List.sublist_cons_self o rest).filterMap SendOut.acceptedId?)
      exact ih hnodup (hrest a ha) (hrest b hb)

theorem handled_run (env : SendEnv) (inputs : List SendInput) :
    Served (run env init inputs) ∧ Handled (run env init inputs) := by
  refine @Machine.run_invariant SendDataAppl SendInput (step env) (fun s => Served s ∧ Handled s) ?_
    init ⟨served_init, fun i hi => ?_⟩ inputs
  · exact fun s e h => ⟨served_step env s e h.1, handled_step env e h.1.toShape h.2⟩
  · cases hi

end Handles

/-- As long as no event has been lost, what waits in a queue is come back to: by the callback of the
session under way, a timer or an event. -/
theorem queues_attended (env : SendEnv) (inputs : List SendInput) (hkept : (run env init inputs).lost = false) :
    let s := run env init inputs
    (s.sessionList ≠ [] → (∃ i, s.tokens = [i]) ∨ s.backoffTimer = true ∨ .sendNext ∈ s.posted ∨
        .backoffTimer ∈ s.posted) ∧
      (s.sendDataList ≠ [] → s.emergencyTimer = true ∨ .emergencyTimer ∈ s.posted ∨ .sendNextLl ∈ s.posted) := by
  have h := (handled_run env inputs).1
  refine ⟨fun hne => ?_, fun hne => ?_⟩
  · rcases h.wake hkept hne with hlock | hwake
    · obtain ⟨i, hi⟩ := h.current hlock
      exact .inl ⟨i, by rw [h.waited, hlock, hi]; rfl⟩
    · exact .inr hwake
  · rcases h.wakeLl hkept hne with hlock | hposted
    · exact (h.inFlight hlock).imp_right .inl
    · exact .inr (.inr hposted)

theorem queues_attended_sample :
    let s := run sampleSendEnv init [.otherEvents 29, sampleSendAppl, sampleSendAppl, .deliver 0]
    ((∃ i, s.tokens = [i]) ∨ s.backoffTimer = true ∨ .sendNext ∈ s.posted ∨ .backoffTimer ∈ s.posted) ∧
      (s.emergencyTimer = true ∨ .emergencyTimer ∈ s.posted ∨ .sendNextLl ∈ s.posted) := by
  have hattended := queues_attended sampleSendEnv
    [.otherEvents 29, sampleSendAppl, sampleSendAppl, .deliver 0] (by decide)
  exact ⟨hattended.1 (by decide), hattended.2 (by decide)⟩

/-! ### Sessions that are over -/

section Gone

variable {s : SendDataAppl} {fb : Nat}

structure Gone (s : SendDataAppl) (fb : Nat) : Prop where
  called : completions s.out fb ≠ 0
  unstarted : fb ∉ startedIds s.out

theorem completions_append (new out : List SendOut) (fb : Nat) :
    completions (new ++ out) fb = completions new fb + completions out fb :=
  List.countP_append

theorem startedIds_append (new out : List SendOut) : startedIds (new ++ out) = startedIds new ++ startedIds out :=
  List.filterMap_append

theorem Gone.append {t : SendDataAppl} (h : Gone s fb) {new : List SendOut} (hout : t.out = new ++ s.out)
    (hnew : .started fb ∉ new) : Gone t fb := by
  refine ⟨?_, ?_⟩
  · rw [hout, completions_append]
    intro hzero
    exact h.called (Nat.add_eq_zero_iff.mp hzero).2
  · rw [hout, startedIds_append]
    intro hmem
    rcases List.mem_append.mp hmem with hmem | hmem
    · obtain ⟨o, ho, hid⟩ := List.mem_filterMap.mp hmem
      cases o with
      | started n =>
        injection hid with hid
        exact hnew (hid ▸ ho)
      | _ => cases hid
    · exact h.unstarted hmem

theorem gone_step (env : SendEnv) (e : SendInput) (hserved : Served s) (h : Gone s fb) : Gone (step env s e) fb := by
  rcases step_cases env e hserved.toShape with hcalm | ⟨i, hacc⟩ | ⟨i, hstarts⟩
  · obtain ⟨new, hnew, hno⟩ := hcalm.log
    exact h.append hnew (hno fb)
  · have hlog : (step env s e).out = [_] ++ s.out := hacc.log
    refine h.append hlog ?_
    intro hmem
    cases List.mem_singleton.mp hmem
  · obtain ⟨new, hnew, hno⟩ := hstarts.log
    have hlive : i ∈ s.live := List.mem_append_right _ hstarts.mem
    have hpending := hserved.ledger.pending (s.idOf i) (List.mem_map_of_mem hlive)
    rw [List.append_cons] at hnew
    refine h.append hnew fun hmem => ?_
    rcases List.mem_append.mp hmem with hmem | hmem
    · exact hno fb hmem
    · injection List.mem_singleton.mp hmem with hid
      exact h.called (hid ▸ hpending)

theorem gone_run (env : SendEnv) (later : List SendInput) (hserved : Served s) (h : Gone s fb) :
    Served (run env s later) ∧ Gone (run env s later) fb :=
  @Machine.run_invariant SendDataAppl SendInput (step env) (fun s => Served s ∧ Gone s fb)
    (fun s e h => ⟨served_step env s e h.1, gone_step env e h.1 h.2⟩) s ⟨hserved, h⟩ later

theorem Gone.once (h : Gone s fb) (hserved : Served s) : completions s.out fb = 1 := by
  have hledger := hserved.ledger
  rcases hledger.settled fb (hledger.completed fb h.called) with hmem | hone
  · exact absurd (hledger.pending fb hmem) h.called
  · exact hone

end Gone

/-! ### The abort -/

/-- The session `fb` was accepted with the handle `handle` and is neither started nor called back. -/
structure Waiting (s : SendDataAppl) (handle fb : Nat) : Prop where
  accepted : .accepted fb handle ∈ s.out
  pending : completions s.out fb = 0
  unstarted : fb ∉ startedIds s.out

/-- `ZW_SendDataApplAbort` of a waiting session: it fails at once, nothing else comes of it later, and
the other sessions are where they were. -/
structure AbortsOnly (env : SendEnv) (s : SendDataAppl) (handle fb : Nat) : Prop where
  failed : .completed fb txFail ∈ (s.zwSendDataApplAbort handle).out
  once : ∀ later, completions (run env (s.zwSendDataApplAbort handle) later).out fb = 1
  never : ∀ later, fb ∉ startedIds (run env (s.zwSendDataApplAbort handle) later).out
  completed : ∀ other, other ≠ fb → completions (s.zwSendDataApplAbort handle).out other = completions s.out other
  left : ∀ i ∈ s.live, s.idOf i ≠ fb → i ∈ (s.zwSendDataApplAbort handle).live ∧
    (s.zwSendDataApplAbort handle).idOf i = s.idOf i
  below : abortsBelow s handle = false

section Abort

variable {s : SendDataAppl} {handle fb : Nat}

theorem Waiting.block (h : Waiting s handle fb) (hserved : Served s) (hhandled : Handled s) :
    ∃ i ∈ s.live, s.idOf i = fb ∧ handle = i.val + 1 := by
  have hledger := hserved.ledger
  have hacc : fb ∈ acceptedIds s.out := List.mem_filterMap.mpr ⟨_, h.accepted, rfl⟩
  rcases hledger.settled fb hacc with hmem | hone
  · obtain ⟨i, hi, hid⟩ := List.mem_map.mp hmem
    have hblock : .accepted fb (i.val + 1) ∈ s.out := hid ▸ hhandled i hi
    exact ⟨i, hi, hid, handle_unique (hledger.queued.imp Nat.ne_of_gt) h.accepted hblock⟩
  · exact absurd (h.pending.symm.trans hone) (by decide)

theorem zwSendDataApplAbort_block (s : SendDataAppl) (i : SendBlock) :
    s.zwSendDataApplAbort (i.val + 1) = if s.currentSession = some i then s
      else if i ∈ s.sessionList then
        (({ s with sessionList := s.sessionList.erase i }).membFree i).complete i txFail
      else s := by
  have hrange : 0 < i.val + 1 ∧ i.val + 1 ≤ sessionMembNum := ⟨Nat.succ_pos _, i.isLt⟩
  exact dif_pos hrange

theorem abortsBelow_block (s : SendDataAppl) (i : SendBlock) :
    abortsBelow s (i.val + 1) = true ↔ s.currentSession = some i := by
  have hrange : 0 < i.val + 1 ∧ i.val + 1 ≤ sessionMembNum := ⟨Nat.succ_pos _, i.isLt⟩
  rw [abortsBelow, decide_eq_true hrange, Bool.true_and, beq_iff_eq]
  cases s.currentSession with
  | none => simp
  | some j => simp [Fin.ext_iff]

theorem abortsOnly_of_list (env : SendEnv) (hserved : Served s) {i : SendBlock} (hmem : i ∈ s.sessionList)
    (hcur : s.currentSession ≠ some i) (hun : s.idOf i ∉ startedIds s.out) :
    AbortsOnly env s (i.val + 1) (s.idOf i) := by
  have heq := zwSendDataApplAbort_block s i
  rw [if_neg hcur, if_pos hmem] at heq
  have hafter := served_zwSendDataApplAbort (i.val + 1) hserved
  have hbelow : abortsBelow s (i.val + 1) = false :=
    Bool.eq_false_iff.mpr fun h => hcur ((abortsBelow_block s i).mp h)
  have hout : (s.zwSendDataApplAbort (i.val + 1)).out = .completed (s.idOf i) txFail :: s.out := by
    rw [heq]
    rfl
  have hgone : Gone (s.zwSendDataApplAbort (i.val + 1)) (s.idOf i) := by
    refine ⟨?_, ?_⟩
    · rw [hout, completions, List.countP_cons_of_pos (by simp [SendOut.isCompleted])]
      exact Nat.succ_ne_zero _
    · rw [hout]
      exact hun
  refine ⟨?_, fun later => ?_, fun later => ?_, fun other hne => ?_, fun j hj hne => ?_, hbelow⟩
  · rw [hout]
    exact List.mem_cons_self
  · obtain ⟨hserved', hgone'⟩ := gone_run env later hafter hgone
    exact hgone'.once hserved'
  · exact (gone_run env later hafter hgone).2.unstarted
  · rw [hout, completions, List.countP_cons_of_neg (by simp [SendOut.isCompleted, hne.symm])]
    rfl
  · have hji : j ≠ i := by
      rintro rfl
      exact hne rfl
    rw [heq]
    refine ⟨?_, rfl⟩
    rcases List.mem_append.mp hj with hj | hj
    · exact List.mem_append_left _ hj
    · exact List.mem_append_right _ ((List.mem_erase_of_ne hji).mpr hj)

theorem not_abortsOnly_of_current (env : SendEnv) {i : SendBlock} (hcur : s.currentSession = some i)
    (hpending : completions s.out fb = 0) : ¬ AbortsOnly env s (i.val + 1) fb := by
  intro h
  have hsame := zwSendDataApplAbort_block s i
  rw [if_pos hcur] at hsame
  have hone := h.once []
  rw [hsame] at hone
  exact absurd (hpending.symm.trans hone) (by decide)

end Abort

/-- In every run the abort of a waiting session takes away this session and no other, unless the block of
the session is where `current_session` was left. -/
theorem abortsOnly_iff (env : SendEnv) (inputs : List SendInput) (handle fb : Nat)
    (h : Waiting (run env init inputs) handle fb) : AbortsOnly env (run env init inputs) handle fb ↔
      ((run env init inputs).currentSession.map fun i => i.val + 1) ≠ some handle := by
  obtain ⟨hserved, hhandled⟩ := handled_run env inputs
  generalize run env init inputs = s at h hserved hhandled
  obtain ⟨i, hlive, hid, hhandle⟩ := h.block hserved hhandled
  have hcond : (s.currentSession.map fun i => i.val + 1) = some handle ↔ s.currentSession = some i := by
    rw [hhandle]
    cases s.currentSession with
    | none => simp
    | some j => simp [Fin.ext_iff]
  rw [ne_eq, hcond, hhandle]
  constructor
  · intro haborts hcur
    exact not_abortsOnly_of_current env hcur h.pending haborts
  · intro hcur
    have hmem : i ∈ s.sessionList := by
      rcases List.mem_append.mp hlive with hunder | hmem
      · split at hunder
        · exact absurd (Option.mem_toList.mp hunder) hcur
        · cases hunder
      · exact hmem
    rw [← hid]
    exact abortsOnly_of_list env hserved hmem hcur (hid ▸ h.unstarted)

theorem sampleSendAppl_aborted :
    AbortsOnly sampleSendEnv (run sampleSendEnv init [sampleSendAppl, sampleSendAppl]) 2 1 := by
  have hwaiting : Waiting (run sampleSendEnv init [sampleSendAppl, sampleSendAppl]) 2 1 :=
    ⟨by decide, by decide, by decide⟩
  exact (abortsOnly_iff sampleSendEnv [sampleSendAppl, sampleSendAppl] 2 1 hwaiting).mpr (by decide)

def blockAgain : List SendInput :=
  [sampleSendAppl, .deliver 0, .deliver 0, .radioDone 0 txOk true, sampleSendAppl]

theorem blockAgain_not_aborted : ¬ ∀ (env : SendEnv) (inputs : List SendInput) (handle fb : Nat),
    Waiting (run env init inputs) handle fb → AbortsOnly env (run env init inputs) handle fb := by
  intro h
  have hwaiting : Waiting (run sampleSendEnv init blockAgain) 1 2 :=
    ⟨by decide, by decide, by decide⟩
  have haborts := h sampleSendEnv blockAgain 1 2 hwaiting
  exact haborts.never [.deliver 0] (by decide)

end SendDataAppl

end ZipGateway

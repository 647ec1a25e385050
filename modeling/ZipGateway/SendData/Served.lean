import Mathlib.Data.List.Perm.Basic
import ZipGateway.SendData.Sound

/-!
# The functions of the send queues keep the invariant

The session under way is waited for by exactly one callback, which is therefore for this session
when it comes.
-/

namespace ZipGateway

open Function (update update_of_ne update_self)

variable {rest : List SendBlock} {n : Nat} (env : SendEnv) (status : UInt8) (report : Bool)

namespace SendDataAppl

structure Served (s : SendDataAppl) : Prop extends Sound s where
  waited : Waited s
  wakeLl : WakeLl s

theorem served_init : Served init where
  nodup := .nil
  alloc := fun _ h => by cases h
  current := fun h => by cases h
  timers := fun _ h => by cases h
  head := fun h => by cases h
  below := fun _ h => by cases h
  ledger := .empty
  wake := fun _ h => absurd rfl h
  inFlight := fun h => by cases h
  waited := rfl
  wakeLl := fun _ h => absurd rfl h

variable {s t : SendDataAppl} {i : SendBlock}

/-! ### Completion -/

theorem callbackEx_eq (i : SendBlock) (report : Bool) (hlock : s.lock = true) :
    ∃ node timer posted lost, callbackEx env s status i report = { s with
        lock := false
        backoffNode := node
        backoffTimer := timer
        posted := posted
        lost := lost
        buffers := s.buffers.erase (s.idOf i)
        allocated := update s.allocated i false
        out := .completed (s.idOf i) status :: s.out } ∧
      (∀ e ∈ s.posted, e ∈ posted) ∧
      (lost = false → s.lost = false ∧ (timer = true ∨ .sendNext ∈ posted)) := by
  unfold callbackEx
  rw [if_neg (by simp [hlock])]
  dsimp only
  split
  · exact ⟨_, _, _, _, rfl, fun _ he => he, fun hkept => ⟨hkept, .inl rfl⟩⟩
  · exact ⟨_, _, _, _, rfl, fun _ he => mem_post_of_mem (s := { s with lock := false }) he,
      fun hkept => ⟨lost_of_post (e := .sendNext) hkept, .inr (mem_post hkept)⟩⟩

theorem sound_callbackEx (h : Sound s) (hlock : s.lock = true) (hcur : s.currentSession = some i) :
    Sound (callbackEx env s status i report) := by
  obtain ⟨node, timer, posted, lost, heq, hposted, hwake⟩ := callbackEx_eq env status i report hlock
  rw [heq]
  have hlive : s.live = i :: s.sessionList := live_of_lock hlock hcur
  refine h.retire (by rw [hlive]; exact List.mem_cons_self) ?_ (fun _ hj => hj) rfl rfl rfl
    (fun hf => absurd hf Bool.false_ne_true) rfl rfl rfl ?_ ?_
  · rw [hlive, List.erase_cons_head, live_of_unlock rfl]
  · intro hkept
    rcases (hwake hkept).2 with hb | hn
    · exact .inr (.inl hb)
    · exact .inr (.inr (.inl hn))
  · rintro (he | he)
    · exact .inl he
    · exact .inr (hposted _ he)

theorem runCallback_frame (s : SendDataAppl) (cb : SendCallback) (status : UInt8) (report : Bool) :
    (runCallback env s cb status report).sendDataList = s.sendDataList ∧
      (runCallback env s cb status report).lockLl = s.lockLl ∧
      (runCallback env s cb status report).mem = s.mem ∧
      (runCallback env s cb status report).owedAppl = s.owedAppl ∧
      (runCallback env s cb status report).owedRadio = s.owedRadio ∧
      (∀ e ∈ s.posted, e ∈ (runCallback env s cb status report).posted) ∧
      ((runCallback env s cb status report).lost = false → s.lost = false) := by
  cases cb with
  | application => exact ⟨rfl, rfl, rfl, rfl, rfl, fun _ he => he, fun hkept => hkept⟩
  | layer => exact ⟨rfl, rfl, rfl, rfl, rfl, fun _ he => he, fun hkept => hkept⟩
  | callbackEx user =>
    cases hlock : s.lock with
    | false =>
      have heq : runCallback env s (.callbackEx user) status report = s := by
        simp only [runCallback, callbackEx, hlock, Bool.not_false, if_true]
      rw [heq]
      exact ⟨rfl, rfl, rfl, rfl, rfl, fun _ he => he, fun hkept => hkept⟩
    | true =>
      obtain ⟨node, timer, posted, lost, heq, hposted, hlost⟩ :=
        callbackEx_eq env status user report hlock
      simp only [runCallback, heq]
      exact ⟨trivial, trivial, trivial, trivial, trivial, hposted, fun hkept => (hlost hkept).1⟩

theorem current_of_wait {user : SendBlock} (hcurrent : s.lock = true → ∃ i, s.currentSession = some i)
    (hwait : (user :: s.tokens).Perm (if s.lock then s.currentSession.toList else [])) :
    s.lock = true ∧ s.currentSession = some user ∧ s.tokens = [] := by
  cases hlock : s.lock with
  | false =>
    rw [hlock] at hwait
    exact absurd hwait.eq_nil (List.cons_ne_nil _ _)
  | true =>
    obtain ⟨i, hcur⟩ := hcurrent hlock
    rw [hlock, if_pos rfl, hcur] at hwait
    have heq : user :: s.tokens = [i] := hwait.eq_singleton
    injection heq with huser htokens
    exact ⟨rfl, by rw [hcur, huser], htokens⟩

theorem sound_runCallback (cb : SendCallback) (status : UInt8) (report : Bool) (h : Sound s)
    (hwait : (cb.user.toList ++ s.tokens).Perm (if s.lock then s.currentSession.toList else [])) :
    Sound (runCallback env s cb status report) ∧ Waited (runCallback env s cb status report) := by
  have hnone : cb.user = none → Waited s := by
    intro hcb
    rw [hcb, Option.toList_none, List.nil_append] at hwait
    rw [Waited]
    cases hlock : s.lock with
    | false =>
      rw [hlock] at hwait
      exact hwait.eq_nil
    | true =>
      obtain ⟨i, hcur⟩ := h.current hlock
      rw [hlock, if_pos rfl, hcur] at hwait
      rw [if_pos rfl, hcur]
      exact hwait.eq_singleton
  cases cb with
  | application => exact ⟨h, hnone rfl⟩
  | layer => exact ⟨h, hnone rfl⟩
  | callbackEx user =>
    obtain ⟨hlock, hcur, htokens⟩ := current_of_wait h.current hwait
    refine ⟨sound_callbackEx env status report h hlock hcur, ?_⟩
    obtain ⟨node, timer, posted, lost, heq, -⟩ := callbackEx_eq env status user report hlock
    simp only [runCallback, heq]
    exact htokens

theorem tokens_perm (hi : i ∈ s.sendDataList) : s.tokens.Perm ((s.mem i).callback.user.toList ++ (s.owedAppl ++
      (s.sendDataList.erase i).filterMap fun j => (s.mem j).callback.user)) := by
  have hperm := (List.perm_cons_erase hi).filterMap fun j => (s.mem j).callback.user
  refine List.Perm.trans (hperm.append_left _) ?_
  rw [List.filterMap_cons]
  cases (s.mem i).callback.user with
  | none => exact List.Perm.refl _
  | some user => exact List.perm_append_comm_assoc _ [user] _

theorem served_pop (h : Served s) (hfirst : s.sendDataList = i :: rest) (htimer : (s.mem i).discardTimer = false) :
    Served ((runCallback env { membFree (zwFrameBufferFree { s with
        sendDataList := rest
        emergencyTimer := false } (s.mem i).fb) i with lockLl := false }
      (s.mem i).callback status report).post .sendNextLl) := by
  generalize hu : { membFree (zwFrameBufferFree { s with
    sendDataList := rest
    emergencyTimer := false } (s.mem i).fb) i with lockLl := false } = u
  have hmem : i ∈ s.sendDataList := by
    rw [hfirst]
    exact List.mem_cons_self
  have hrest : s.sendDataList.erase i = rest := by rw [hfirst, List.erase_cons_head]
  have husound : Sound u := by
    rw [← hu]
    refine h.toSound.dropLl hmem hrest.symm rfl (fun _ _ => rfl) htimer rfl rfl rfl rfl rfl rfl rfl rfl ?_
    exact fun hf => absurd hf Bool.false_ne_true
  have hwait : ((s.mem i).callback.user.toList ++ u.tokens).Perm (if u.lock then u.currentSession.toList else []) := by
    have hperm := tokens_perm hmem
    rw [h.waited, hrest] at hperm
    rw [← hu]
    exact hperm.symm
  obtain ⟨hcsound, hcwaited⟩ := sound_runCallback env (s.mem i).callback status report husound hwait
  exact ⟨hcsound.post _, hcwaited, fun hkept _ => .inr (mem_post hkept)⟩

theorem tokens_perm_layer (howed : s.owedAppl[n]? = some i) : s.tokens.Perm (i :: (s.owedAppl.eraseIdx n ++
      s.sendDataList.filterMap fun j => (s.mem j).callback.user)) := by
  obtain ⟨hlt, hget⟩ := List.getElem?_eq_some_iff.mp howed
  have hmid := (List.getElem_cons_eraseIdx_perm hlt).symm
  rw [hget] at hmid
  exact hmid.append_right _

theorem served_sendDataCallbackFunc (radio : Option Nat) (h : Served s) :
    Served (sendDataCallbackFunc env s status report radio) := by
  unfold sendDataCallbackFunc
  cases hlockLl : s.lockLl with
  | false => exact h
  | true =>
    obtain ⟨i, rest, hfirst, htimer⟩ := h.head hlockLl
    rw [if_neg (by decide), hfirst]
    cases radio with
    | none => exact served_pop env status report h hfirst htimer
    | some fb =>
      have hlog : Served (s.log (.result fb (s.mem i).fb.id status)) :=
        ⟨h.toSound.logOther rfl, h.waited, h.wakeLl⟩
      exact served_pop env status report hlog hfirst htimer

theorem served_doDiscardTimeoutMemb (i : SendBlock) (h : Served s) : Served (doDiscardTimeoutMemb env s i) := by
  unfold doDiscardTimeoutMemb
  cases htimer : (s.mem i).discardTimer with
  | false =>
    dsimp only
    rw [htimer]
    exact h
  | true =>
    dsimp only
    rw [htimer, if_neg (by decide)]
    have hmem : i ∈ s.sendDataList := (h.timers i htimer).1
    have hnodup := (List.nodup_append.mp h.nodup).2.1
    generalize hx : ({ s.mem i with discardTimer := false } : SendDataApplSession) = x
    generalize hu : membFree { s.setSession i x with
      sendDataList := (s.setSession i x).sendDataList.erase i } i = u
    have humem : ∀ j, j ≠ i → u.mem j = s.mem j := by
      intro j hj
      rw [← hu]
      exact update_of_ne hj _ _
    have hulist : u.sendDataList = s.sendDataList.erase i := by
      rw [← hu]
      rfl
    have husound : Sound u := by
      refine h.toSound.dropLl hmem hulist (by rw [← hu]; rfl) humem ?_ (by rw [← hu]; rfl)
        (by rw [← hu]; rfl) (by rw [← hu]; rfl) (by rw [← hu]; rfl) (by rw [← hu]; rfl)
        (by rw [← hu]; rfl) (by rw [← hu]; rfl) (by rw [← hu]; rfl) ?_
      · rw [← hu, ← hx]
        simp [membFree, setSession]
      · intro hl
        have hsl : s.lockLl = true := by
          rw [← hu] at hl
          exact hl
        obtain ⟨j, rest, hfirst, hjtimer⟩ := h.head hsl
        refine ⟨hsl, ?_, by rw [← hu]; rfl⟩
        rw [hfirst]
        intro hhead
        injection hhead with hji
        rw [hji, htimer] at hjtimer
        exact absurd hjtimer (by decide)
    have hwait : ((s.mem i).callback.user.toList ++ u.tokens).Perm
        (if u.lock then u.currentSession.toList else []) := by
      have hperm := tokens_perm hmem
      rw [h.waited] at hperm
      have htokens : u.tokens = s.owedAppl ++ (s.sendDataList.erase i).filterMap fun j => (s.mem j).callback.user := by
        rw [tokens, hulist, List.filterMap_congr fun j hj => ?_]
        · rw [← hu]
          rfl
        · rw [humem j]
          rintro rfl
          exact hnodup.not_mem_erase hj
      rw [htokens, ← hu]
      exact hperm.symm
    obtain ⟨hcsound, hcwaited⟩ := sound_runCallback env (s.mem i).callback txFail false husound hwait
    obtain ⟨hlist, hlockLl, -, -, -, hposted, hlost⟩ :=
      runCallback_frame env u (s.mem i).callback txFail false
    refine ⟨hcsound, hcwaited, ?_⟩
    intro hkept hne
    have hskept : s.lost = false := by
      have hukept := hlost hkept
      rw [← hu] at hukept
      exact hukept
    rw [hlist, hulist] at hne
    have hsne : s.sendDataList ≠ [] := fun hnil => hne (by rw [hnil, List.erase_nil])
    rcases h.wakeLl hskept hsne with hl | hl
    · exact .inl (by rw [hlockLl, ← hu]; exact hl)
    · exact .inr (hposted _ (by rw [← hu]; exact hl))

/-! ### Sending -/

/-- What `send_data` does to the state: without a block or a buffer the frame is refused, and a
block may be lost; else the frame is queued with a new buffer. -/
theorem sendData_cases (s : SendDataAppl) (p : SendParam) (data : Mem) (len : Nat) (cb : SendCallback) :
    (∃ i m, (s.allocated i = false ∧ ¬ (env.malloc s.nMalloc = true ∧ len < frameBufferElementSize) ∧
        sendData env s p data len cb = (false, { s with
          allocated := update s.allocated i true
          nMalloc := m })) ∨ sendData env s p data len cb = (false, s)) ∨
      ∃ i m x, s.allocated i = false ∧ x.fb.id = s.nBuffers ∧ x.callback = cb ∧
        (x.discardTimer = true → x.fb.param.discardTimeout ≠ 0) ∧
        sendData env s p data len cb = (true, post { s with
          allocated := update s.allocated i true
          mem := update s.mem i x
          buffers := s.nBuffers :: s.buffers
          sendDataList := listAdd s.sendDataList i
          nMalloc := m
          nBuffers := s.nBuffers + 1 } .sendNextLl) := by
  cases halloc : s.membAlloc with
  | none =>
    refine .inl ⟨0, 0, .inr ?_⟩
    simp only [sendData, halloc]
  | some it =>
    obtain ⟨i, u⟩ := it
    obtain ⟨hfree, rfl⟩ := membAlloc_eq halloc
    generalize hcreate : zwFrameBufferCreate env { s with
      allocated := update s.allocated i true } p data len = c
    obtain ⟨fb, u⟩ := c
    rcases zwFrameBufferCreate_eq hcreate with ⟨rfl, hfail, rfl⟩ | ⟨rfl, rfl⟩
    · refine .inl ⟨i, s.nMalloc + 1, .inl ⟨hfree, hfail, ?_⟩⟩
      simp only [sendData, halloc, hcreate]
    · refine .inr ⟨i, s.nMalloc + 1, _, hfree, ?_, ?_, ?_, by simp only [sendData, halloc, hcreate]; rfl⟩
      · rfl
      · rfl
      · exact of_decide_eq_true

theorem listAdd_eq {l : List SendBlock} (hnot : i ∉ l) : listAdd l i = l ++ [i] := by
  rw [listAdd, List.erase_of_not_mem hnot]

theorem Sound.leak (h : Sound s) (i : SendBlock) (m : Nat) : Sound { s with
    allocated := update s.allocated i true
    nMalloc := m } := by
  refine h.congr ?_ rfl rfl rfl rfl rfl (fun _ => rfl) rfl rfl (fun hl => hl) (fun _ _ _ hw => hw) (fun _ hf => hf)
  intro j hj
  by_cases hji : j = i
  · rw [hji]
    exact update_self _ _ _
  · exact (update_of_ne hji _ _).trans hj

theorem sound_sendData (p : SendParam) (data : Mem) (len : Nat) (cb : SendCallback) (h : Sound s) (hwake : WakeLl s) :
    Sound (sendData env s p data len cb).2 ∧ WakeLl (sendData env s p data len cb).2 ∧
      (sendData env s p data len cb).2.lock = s.lock ∧
      (sendData env s p data len cb).2.currentSession = s.currentSession ∧
      (sendData env s p data len cb).2.tokens =
        s.tokens ++ if (sendData env s p data len cb).1 then cb.user.toList else [] := by
  rcases sendData_cases env s p data len cb with
    ⟨i, m, ⟨-, -, heq⟩ | heq⟩ | ⟨i, m, x, hfree, hid, hcb, htimer, heq⟩
  · rw [heq]
    exact ⟨h.leak i m, hwake, rfl, rfl, (List.append_nil _).symm⟩
  · rw [heq]
    exact ⟨h, hwake, rfl, rfl, (List.append_nil _).symm⟩
  · have hnot := h.toShape.not_mem hfree
    have hnotLl : i ∉ s.sendDataList := fun hmem => hnot (List.mem_append_right _ hmem)
    rw [heq, listAdd_eq hnotLl]
    refine ⟨?_, ?_, rfl, rfl, ?_⟩
    · exact h.enqueueLl hfree hid rfl htimer rfl rfl rfl rfl rfl rfl rfl rfl rfl rfl
        (fun _ he => mem_post_of_mem he) fun hkept => lost_of_post (e := .sendNextLl) hkept
    · exact fun hkept _ => .inr (mem_post hkept)
    · simp only [tokens, post, List.filterMap_append, List.append_assoc, if_true]
      congr 1
      rw [List.filterMap_congr fun j hj => ?_]
      · rw [List.filterMap_cons, update_self, hcb]
        cases cb <;> rfl
      · rw [update_of_ne]
        rintro rfl
        exact hnotLl hj

theorem sound_sendEndpoint (h : Sound s) (hwake : WakeLl s) (hlock : s.lock = true)
    (hcur : s.currentSession = some i) (htokens : s.tokens = []) :
    Sound (sendEndpoint env s i).2 ∧ WakeLl (sendEndpoint env s i).2 ∧
      (sendEndpoint env s i).2.lock = true ∧ (sendEndpoint env s i).2.currentSession = some i ∧
      (sendEndpoint env s i).2.tokens = if (sendEndpoint env s i).1 then [i] else [] := by
  have hsame : Sound { s with nRoutes := s.nRoutes + 1 } :=
    h.congr (fun _ ha => ha) rfl rfl rfl rfl rfl (fun _ => rfl) rfl rfl (fun hl => hl)
      (fun _ _ _ hw => hw) (fun _ hf => hf)
  unfold sendEndpoint
  dsimp only
  cases env.sendEndpoint s.nRoutes with
  | refused => exact ⟨hsame, hwake, hlock, hcur, htokens⟩
  | direct data len =>
    obtain ⟨hsound, hwakeLl, hl, hc, ht⟩ :=
      sound_sendData env (s.mem i).fb.param data len (.callbackEx i) hsame hwake
    refine ⟨hsound, hwakeLl, hl.trans hlock, hc.trans hcur, ht.trans ?_⟩
    rw [show ({ s with nRoutes := s.nRoutes + 1 } : SendDataAppl).tokens = [] from htokens]
    rfl
  | layered =>
    have howed : s.owedAppl = [] := (List.append_eq_nil_iff.mp htokens).1
    have hframes : (s.sendDataList.filterMap fun j => (s.mem j).callback.user) = [] :=
      (List.append_eq_nil_iff.mp htokens).2
    refine ⟨?_, hwake, hlock, hcur, ?_⟩
    · exact hsame.congr (fun _ ha => ha) rfl rfl rfl rfl rfl (fun _ => rfl) rfl rfl
        (fun hl => hl) (fun _ _ _ hw => hw) (fun _ hf => hf)
    · simp only [tokens, howed, hframes, List.nil_append, List.append_nil, if_true]

theorem served_sendFirst {posted : List SendEvent} (h : Served s) (hlock : s.lock = false)
    (hemergency : SendEvent.emergencyTimer ∈ s.posted → .emergencyTimer ∈ posted)
    (hnext : SendEvent.sendNextLl ∈ s.posted → .sendNextLl ∈ posted) :
    Served (sendFirst env { s with posted := posted }) := by
  have hwaited := h.waited
  rw [Waited, hlock, if_neg (by decide)] at hwaited
  have hwakeLl : ∀ t : SendDataAppl, t.sendDataList = s.sendDataList → t.lockLl = s.lockLl →
      t.posted = posted → t.lost = s.lost → WakeLl t := by
    intro t hlist hll hposted hlost hkept hne
    rw [hlist] at hne
    rw [hll, hposted]
    rcases h.wakeLl (hlost.symm.trans hkept) hne with hl | hl
    · exact .inl hl
    · exact .inr (hnext hl)
  unfold sendFirst
  dsimp only
  cases hfirst : s.sessionList with
  | nil =>
    dsimp only
    rw [← hfirst]
    refine ⟨?_, ?_, hwakeLl _ rfl rfl rfl rfl⟩
    · refine h.toSound.congr (fun _ ha => ha) rfl rfl rfl rfl rfl ?_ rfl rfl
        (fun hkept => hkept) (fun _ _ hne => absurd hfirst hne) ?_
      · exact fun hl => absurd (hlock.symm.trans hl) (by decide)
      · rintro - (he | he)
        · exact .inl he
        · exact .inr (hemergency he)
    · rw [Waited, show SendDataAppl.lock _ = false from hlock]
      exact hwaited
  | cons i rest =>
    dsimp only
    generalize hu : log { s with
      posted := posted
      sessionList := rest
      currentSession := some i
      lock := true } (.started (s.mem i).fb.id) = u
    have husound : Sound u := by
      rw [← hu]
      refine h.toSound.begin hlock hfirst rfl rfl rfl rfl rfl rfl rfl rfl rfl ?_
      rintro (he | he)
      · exact .inl he
      · exact .inr (hemergency he)
    have huwake : WakeLl u := hwakeLl u (by rw [← hu]; rfl) (by rw [← hu]; rfl) (by rw [← hu]; rfl) (by rw [← hu]; rfl)
    have hulock : u.lock = true := by
      rw [← hu]
      rfl
    have hucur : u.currentSession = some i := by
      rw [← hu]
      rfl
    have hutokens : u.tokens = [] := by
      rw [← hu]
      exact hwaited
    obtain ⟨hsound, hwake, hl, hc, ht⟩ :=
      sound_sendEndpoint env husound huwake hulock hucur hutokens
    generalize sendEndpoint env u i = r at hsound hwake hl hc ht
    obtain ⟨ok, v⟩ := r
    cases ok with
    | true =>
      refine ⟨hsound, ?_, hwake⟩
      rw [Waited, hl, hc]
      exact ht
    | false =>
      have hwait : ((SendCallback.callbackEx i).user.toList ++ v.tokens).Perm
          (if v.lock then v.currentSession.toList else []) := by
        rw [ht, hl, hc]
        exact List.Perm.refl _
      obtain ⟨hcsound, hcwaited⟩ :=
        sound_runCallback env (.callbackEx i) txError false hsound hwait
      obtain ⟨hlist, hll, -, -, -, hposted, hlost⟩ :=
        runCallback_frame env v (.callbackEx i) txError false
      refine ⟨hcsound, hcwaited, fun hkept hne => ?_⟩
      rcases hwake (hlost hkept) (fun hnil => hne (hlist.trans hnil)) with hw | hw
      · exact .inl (hll.trans hw)
      · exact .inr (hposted _ hw)

/-- What `ZW_SendDataAppl` does to the state: the session is refused and nothing is kept, or it is
queued. -/
theorem zwSendDataAppl_cases (s : SendDataAppl) (p : SendParam) (data : Mem) (len : Nat) :
    (∃ m, zwSendDataAppl env s p data len = { s with nMalloc := m }) ∨
      ∃ i m x, s.allocated i = false ∧ x.fb.id = s.nBuffers ∧
        x.discardTimer = (s.mem i).discardTimer ∧ zwSendDataAppl env s p data len = post { s with
          allocated := update s.allocated i true
          mem := update s.mem i x
          buffers := s.nBuffers :: s.buffers
          sessionList := listAdd s.sessionList i
          nMalloc := m
          nBuffers := s.nBuffers + 1
          out := .accepted s.nBuffers (i.val + 1) :: s.out } .sendNext := by
  unfold zwSendDataAppl
  cases halloc : s.membAlloc with
  | none => exact .inl ⟨s.nMalloc, rfl⟩
  | some it =>
    obtain ⟨i, u⟩ := it
    obtain ⟨hfree, rfl⟩ := membAlloc_eq halloc
    dsimp only
    generalize hc : (if (data 0 == commandClassNoOperation && isLrNode p.dnode) = true then
        zwFrameBufferCreate env { s with allocated := update s.allocated i true } p
          (Mem.ofBytes [commandClassNoOperationLr, 0]) 2
      else zwFrameBufferCreate env { s with
        allocated := update s.allocated i true } p data len) = c
    obtain ⟨fb, u⟩ := c
    have hcreate : ∃ cmd n, zwFrameBufferCreate env { s with
        allocated := update s.allocated i true } p cmd n = (fb, u) := by
      split at hc
      · exact ⟨_, _, hc⟩
      · exact ⟨_, _, hc⟩
    obtain ⟨cmd, n, hcreate⟩ := hcreate
    rcases zwFrameBufferCreate_eq hcreate with ⟨rfl, -, rfl⟩ | ⟨rfl, rfl⟩
    · refine .inl ⟨s.nMalloc + 1, ?_⟩
      have hsame : update (update s.allocated i true) i false = s.allocated := by
        rw [Function.update_idem, ← hfree, Function.update_eq_self]
      simp only [membFree, hsame]
    · refine .inr ⟨i, s.nMalloc + 1, ⟨⟨s.nBuffers, p, cmd, n⟩, .application, _⟩, hfree, rfl, rfl, rfl⟩

theorem tokens_update {x : SendDataApplSession} (hnot : i ∉ s.sendDataList)
    (hmem : t.mem = update s.mem i x) (hll : t.sendDataList = s.sendDataList)
    (howed : t.owedAppl = s.owedAppl) : t.tokens = s.tokens := by
  rw [tokens, tokens, hll, howed, List.filterMap_congr fun j hj => ?_]
  rw [hmem, update_of_ne]
  rintro rfl
  exact hnot hj

theorem served_zwSendDataAppl (p : SendParam) (data : Mem) (len : Nat) (h : Served s) :
    Served (zwSendDataAppl env s p data len) := by
  rcases zwSendDataAppl_cases env s p data len with ⟨m, heq⟩ | ⟨i, m, x, hfree, hid, htimer, heq⟩
  · rw [heq]
    refine ⟨?_, h.waited, h.wakeLl⟩
    exact h.toSound.congr (fun _ ha => ha) rfl rfl rfl rfl rfl (fun _ => rfl) rfl rfl
      (fun hl => hl) (fun _ _ _ hw => hw) (fun _ hf => hf)
  · have hnot := h.toShape.not_mem hfree
    have hnotList : i ∉ s.sessionList := fun hmem =>
      hnot (List.mem_append_left _ (List.mem_append_right _ hmem))
    have hnotLl : i ∉ s.sendDataList := fun hmem => hnot (List.mem_append_right _ hmem)
    rw [heq, listAdd_eq hnotList]
    refine ⟨?_, ?_, ?_⟩
    · refine h.toSound.accept hfree hid rfl ?_ rfl rfl rfl rfl rfl rfl rfl rfl rfl
        (fun _ he => mem_post_of_mem he) fun hkept => mem_post hkept
      rw [htimer]
      by_contra hon
      exact hnotLl (h.timers i (by simpa using hon)).1
    · refine Eq.trans (b := s.tokens) ?_ h.waited
      exact tokens_update hnotLl rfl rfl rfl
    · intro hkept hne
      rcases h.wakeLl (lost_of_post (e := .sendNext) hkept) hne with hl | hl
      · exact .inl hl
      · exact .inr (mem_post_of_mem hl)

theorem served_zwSendDataApplAbort (handle : Nat) (h : Served s) : Served (s.zwSendDataApplAbort handle) := by
  unfold zwSendDataApplAbort
  split
  · rename_i hrange
    dsimp only
    generalize (⟨handle - 1, _⟩ : SendBlock) = i
    split
    · exact h
    · rename_i hcur
      split
      · rename_i hmem
        have hlive : (if s.lock then s.currentSession.toList else []) ++ s.sessionList.erase i = s.live.erase i := by
          rw [live, List.erase_append_right]
          intro hi
          split at hi
          · exact hcur (Option.mem_toList.mp hi)
          · cases hi
        refine ⟨?_, h.waited, h.wakeLl⟩
        refine h.toSound.retire (List.mem_append_right _ hmem) hlive
          (fun _ hj => List.mem_of_mem_erase hj) rfl rfl rfl (fun hl => ⟨hl, rfl⟩) rfl rfl rfl ?_
          fun hf => hf
        exact fun hkept => h.wake hkept (List.ne_nil_of_mem hmem)
      · exact h
  · exact h

/-! ### The process -/

def handed (s : SendDataAppl) (i : SendBlock) : SendDataAppl :=
  let s := if (s.mem i).fb.param.discardTimeout ≠ 0 then
      s.setSession i { s.mem i with discardTimer := false }
    else s
  { s with lockLl := true, nRadio := s.nRadio + 1 }

theorem handed_eq (s : SendDataAppl) (i : SendBlock) : ∃ mem, handed s i = { s with
      mem := mem
      lockLl := true
      nRadio := s.nRadio + 1 } ∧
    (∀ j, j ≠ i → mem j = s.mem j) ∧ (mem i).fb = (s.mem i).fb ∧
    (mem i).callback = (s.mem i).callback ∧
    ((s.mem i).fb.param.discardTimeout ≠ 0 → (mem i).discardTimer = false) ∧
    ((s.mem i).discardTimer = false → (mem i).discardTimer = false) := by
  unfold handed
  dsimp only
  split
  · refine ⟨_, rfl, fun j hj => update_of_ne hj _ _, ?_, ?_, ?_, ?_⟩
    all_goals simp [setSession]
  · rename_i hzero
    exact ⟨_, rfl, fun _ _ => rfl, rfl, rfl, fun h => absurd h hzero, fun h => h⟩

theorem sendNextLl_cons (hfirst : s.sendDataList = i :: rest) (hlockLl : s.lockLl = false) : sendNextLl env s =
      if env.radio s.nRadio then ({ handed s i with
        owedRadio := s.owedRadio ++ [s.idOf i]
        emergencyTimer := true }).log (.transmitted (s.idOf i))
      else sendDataCallbackFunc env (handed s i) txFail false none := by
  unfold sendNextLl handed
  rw [hfirst]
  dsimp only
  rw [if_neg (by simp [hlockLl])]
  split
  · simp [setSession, idOf]
  · rfl

theorem sendDataCallbackFunc_emergency (report b : Bool) (hlockLl : s.lockLl = true) (hne : s.sendDataList ≠ []) :
    sendDataCallbackFunc env { s with emergencyTimer := b } status report none =
      sendDataCallbackFunc env s status report none := by
  obtain ⟨i, rest, hfirst⟩ := List.exists_cons_of_ne_nil hne
  unfold sendDataCallbackFunc
  dsimp only
  rw [hlockLl, hfirst, if_neg (by decide), if_neg (by decide)]

theorem served_handed (h : Sound s) (hwaited : Waited s) (hfirst : s.sendDataList = i :: rest)
    (owed : List Nat) : Served { handed s i with
      owedRadio := owed
      emergencyTimer := true } := by
  obtain ⟨mem, heq, hmem, hfb, hcb, hstop, hstay⟩ := handed_eq s i
  rw [heq]
  have htimer : (mem i).discardTimer = false := by
    cases hon : (s.mem i).discardTimer with
    | false => exact hstay hon
    | true => exact hstop (h.timers i hon).2
  refine ⟨?_, ?_, fun _ _ => .inl rfl⟩
  · exact h.startLl hfirst hmem hfb htimer rfl rfl rfl rfl rfl rfl rfl rfl rfl rfl rfl
  · refine Eq.trans (b := s.tokens) ?_ hwaited
    simp only [tokens]
    rw [List.filterMap_congr fun j _ => ?_]
    by_cases hji : j = i
    · rw [hji, hcb]
    · rw [hmem j hji]

theorem served_sendNextLl (h : Sound s) (hwaited : Waited s) : Served (sendNextLl env s) := by
  cases hfirst : s.sendDataList with
  | nil =>
    have heq : sendNextLl env s = s := by
      rw [sendNextLl, hfirst]
    rw [heq]
    exact ⟨h, hwaited, fun _ hne => absurd hfirst hne⟩
  | cons i rest =>
    cases hlockLl : s.lockLl with
    | true =>
      have heq : sendNextLl env s = s := by
        rw [sendNextLl, hfirst]
        exact if_pos hlockLl
      rw [heq]
      exact ⟨h, hwaited, fun _ _ => .inl hlockLl⟩
    | false =>
      rw [sendNextLl_cons env hfirst hlockLl]
      split
      · have hserved := served_handed h hwaited hfirst (s.owedRadio ++ [s.idOf i])
        exact ⟨hserved.toSound.logOther rfl, hserved.waited, hserved.wakeLl⟩
      · have hserved := served_handed h hwaited hfirst (handed s i).owedRadio
        obtain ⟨mem, heq, -⟩ := handed_eq s i
        rw [← sendDataCallbackFunc_emergency env txFail false true]
        · exact served_sendDataCallbackFunc env txFail false none hserved
        · rw [heq]
        · rw [heq]
          exact fun hnil => List.cons_ne_nil _ _ (hfirst.symm.trans hnil)

theorem mem_eraseIdx_of_ne {l : List SendEvent} {e e' : SendEvent} (hn : l[n]? = some e)
    (hne : e' ≠ e) (hmem : e' ∈ l) : e' ∈ l.eraseIdx n := by
  obtain ⟨k, hk⟩ := List.getElem?_of_mem hmem
  refine List.mem_eraseIdx_iff_getElem?.mpr ⟨k, ?_, hk⟩
  rintro rfl
  exact hne (Option.some.inj (hk.symm.trans hn))

theorem Served.sound_deliverLl (h : Served s) (hn : s.posted[n]? = some .sendNextLl) :
    Sound { s with posted := s.posted.eraseIdx n } := by
  have hstay : ∀ e', e' ≠ .sendNextLl → e' ∈ s.posted → e' ∈ s.posted.eraseIdx n := fun e' hne hmem =>
    mem_eraseIdx_of_ne hn hne hmem
  refine h.toSound.congr (fun _ ha => ha) rfl rfl rfl rfl rfl (fun _ => rfl) rfl rfl (fun hl => hl) ?_ ?_
  · rintro - - - (hb | hs | hb)
    · exact .inl hb
    · exact .inr (.inl (hstay _ (by decide) hs))
    · exact .inr (.inr (hstay _ (by decide) hb))
  · rintro - (he | he)
    · exact .inl he
    · exact .inr (hstay _ (by decide) he)

theorem served_process {e : SendEvent} (h : Served s) (hn : s.posted[n]? = some e) :
    Served (process env { s with posted := s.posted.eraseIdx n } e) := by
  have hstay : ∀ e', e' ≠ e → e' ∈ s.posted → e' ∈ s.posted.eraseIdx n := fun e' hne hmem =>
    mem_eraseIdx_of_ne hn hne hmem
  have hll : e = .sendNextLl → Sound { s with posted := s.posted.eraseIdx n } := fun he =>
    h.sound_deliverLl (he ▸ hn)
  generalize s.posted.eraseIdx n = posted at hstay hll
  have hwakeLl : e ≠ .sendNextLl → WakeLl { s with posted := posted } := by
    intro he hkept hne
    rcases h.wakeLl hkept hne with hl | hl
    · exact .inl hl
    · exact .inr (hstay _ he.symm hl)
  cases e with
  | emergencyTimer =>
    -- With the timer still running, the state would be as it should be.
    have hserved : Served { s with posted := posted, emergencyTimer := true } := by
      refine ⟨?_, h.waited, hwakeLl (by decide)⟩
      refine h.toSound.congr (fun _ ha => ha) rfl rfl rfl rfl rfl (fun _ => rfl) rfl rfl
        (fun hl => hl) ?_ fun _ _ => .inl rfl
      rintro - - - (hb | hs | hb)
      · exact .inl hb
      · exact .inr (.inl (hstay _ (by decide) hs))
      · exact .inr (.inr (hstay _ (by decide) hb))
    by_cases hlockLl : s.lockLl = true
    · obtain ⟨i, rest, hfirst, -⟩ := h.head hlockLl
      have hne : s.sendDataList ≠ [] := by
        rw [hfirst]
        exact List.cons_ne_nil _ _
      have hdone := served_sendDataCallbackFunc env txFail false none hserved
      have heq := sendDataCallbackFunc_emergency (s := { s with posted := posted }) env txFail false true hlockLl hne
      rw [heq] at hdone
      exact hdone
    · have heq : process env { s with posted := posted } .emergencyTimer = { s with posted := posted } := by
        rw [process, sendDataCallbackFunc]
        exact if_pos (by simpa using hlockLl)
      rw [heq]
      refine ⟨?_, h.waited, hwakeLl (by decide)⟩
      refine hserved.toSound.congr (fun _ ha => ha) rfl rfl rfl rfl rfl (fun _ => rfl) rfl rfl
        (fun hl => hl) (fun _ _ _ hw => hw) ?_
      exact fun hl => absurd hl hlockLl
  | backoffTimer =>
    refine ⟨?_, h.waited, ?_⟩
    · refine h.toSound.congr (fun _ ha => ha) rfl rfl rfl rfl rfl (fun _ => rfl) rfl rfl
        (lost_of_post (s := { s with posted := posted }) (e := .sendNext)) ?_ ?_
      · exact fun hkept _ _ _ => .inr (.inl (mem_post hkept))
      · rintro - (he | he)
        · exact .inl he
        · exact .inr (mem_post_of_mem (hstay _ (by decide) he))
    · intro hkept hne
      rcases hwakeLl (by decide) (lost_of_post (s := { s with posted := posted }) (e := .sendNext) hkept) hne with hl | hl
      · exact .inl hl
      · exact .inr (mem_post_of_mem hl)
  | sendNext =>
    simp only [process]
    split
    · rename_i hcond
      have hlock : s.lock = false := by
        simp only [Bool.and_eq_true, Bool.not_eq_true'] at hcond
        exact hcond.1
      exact served_sendFirst env h hlock (hstay _ (by decide)) (hstay _ (by decide))
    · rename_i hcond
      refine ⟨?_, h.waited, hwakeLl (by decide)⟩
      refine h.toSound.congr (fun _ ha => ha) rfl rfl rfl rfl rfl (fun _ => rfl) rfl rfl (fun hl => hl) ?_ ?_
      · intro _ hl _ _
        left
        simp only [Bool.and_eq_true, Bool.not_eq_true'] at hcond
        by_contra hb
        exact hcond ⟨hl, by simpa using hb⟩
      · rintro - (he | he)
        · exact .inl he
        · exact .inr (hstay _ (by decide) he)
  | sendNextLl => exact served_sendNextLl env (hll rfl) h.waited

theorem Served.expire (h : Served s) {e : SendEvent} {emergency backoff : Bool}
    (hwake : s.backoffTimer = true → backoff = true ∨ e = .sendNext ∨ e = .backoffTimer)
    (hflight : s.emergencyTimer = true → emergency = true ∨ e = .emergencyTimer ∧ s.room = true) :
    Served (post { s with emergencyTimer := emergency, backoffTimer := backoff } e) := by
  refine ⟨?_, h.waited, ?_⟩
  · refine h.toSound.congr (fun _ ha => ha) rfl rfl rfl rfl rfl (fun _ => rfl) rfl rfl
      (fun hl => lost_of_post (e := e) hl) ?_ ?_
    · rintro hkept - - (hb | hs | hb)
      · rcases hwake hb with hb | rfl | rfl
        · exact .inl hb
        · exact .inr (.inl (mem_post hkept))
        · exact .inr (.inr (mem_post hkept))
      · exact .inr (.inl (mem_post_of_mem hs))
      · exact .inr (.inr (mem_post_of_mem hb))
    · rintro - (he | he)
      · rcases hflight he with he | ⟨rfl, hroom⟩
        · exact .inl he
        · exact .inr (mem_post_of_room hroom)
      · exact .inr (mem_post_of_mem he)
  · intro hkept hne
    rcases h.wakeLl (lost_of_post (e := e) hkept) hne with hl | hl
    · exact .inl hl
    · exact .inr (mem_post_of_mem hl)

theorem served_step (s : SendDataAppl) (e : SendInput) (h : Served s) : Served (step env s e) := by
  cases e with
  | sendDataAppl p data len => exact served_zwSendDataAppl env p data len h
  | abort handle => exact served_zwSendDataApplAbort handle h
  | sendData p data len =>
    obtain ⟨hsound, hwake, hlock, hcur, htokens⟩ :=
      sound_sendData env p data len .layer h.toSound h.wakeLl
    refine ⟨hsound, ?_, hwake⟩
    have hnone : SendCallback.layer.user.toList = [] := rfl
    rw [hnone, ite_self, List.append_nil, h.waited] at htokens
    simp only [step, Waited, htokens, hlock, hcur]
  | layerDone n status report =>
    simp only [step]
    split
    · rename_i i howed
      have hsame : Sound { s with owedAppl := s.owedAppl.eraseIdx n } :=
        h.toSound.congr (fun _ ha => ha) rfl rfl rfl rfl rfl (fun _ => rfl) rfl rfl
          (fun hl => hl) (fun _ _ _ hw => hw) (fun _ hf => hf)
      have hperm := tokens_perm_layer howed
      rw [h.waited] at hperm
      obtain ⟨hsound, hwaited⟩ :=
        sound_runCallback env (.callbackEx i) status report hsame hperm.symm
      obtain ⟨hlist, hll, -, -, -, hposted, hlost⟩ :=
        runCallback_frame env { s with owedAppl := s.owedAppl.eraseIdx n } (.callbackEx i) status report
      refine ⟨hsound, hwaited, fun hkept hne => ?_⟩
      rcases h.wakeLl (hlost hkept) (fun hnil => hne (hlist.trans hnil)) with hw | hw
      · exact .inl (hll.trans hw)
      · exact .inr (hposted _ hw)
    · exact h
  | radioDone n status report =>
    simp only [step]
    split
    · refine served_sendDataCallbackFunc env status report _ ⟨?_, h.waited, h.wakeLl⟩
      exact h.toSound.congr (fun _ ha => ha) rfl rfl rfl rfl rfl (fun _ => rfl) rfl rfl
        (fun hl => hl) (fun _ _ _ hw => hw) (fun _ hf => hf)
    · exact h
  | discard i => exact served_doDiscardTimeoutMemb env i h
  | emergencyExpires =>
    simp only [step]
    split
    · rename_i hroom
      exact h.expire (fun hb => .inl hb) fun _ => .inr ⟨rfl, (Bool.and_eq_true_iff.mp hroom).2⟩
    · exact h
  | backoffExpires =>
    simp only [step]
    split
    · exact h.expire (fun _ => .inr (.inr rfl)) (fun he => .inl he)
    · exact h
  | otherEvents n =>
    simp only [step]
    split
    · refine ⟨?_, h.waited, h.wakeLl⟩
      exact h.toSound.congr (fun _ ha => ha) rfl rfl rfl rfl rfl (fun _ => rfl) rfl rfl
        (fun hl => hl) (fun _ _ _ hw => hw) (fun _ hf => hf)
    · exact h
  | frameRx snode =>
    simp only [step, frameRxNotify]
    split
    · exact h.expire (fun _ => .inr (.inl rfl)) (fun he => .inl he)
    · exact h
  | deliver n =>
    simp only [step]
    split
    · rename_i e hn
      exact served_process env h hn
    · exact h

end SendDataAppl

end ZipGateway

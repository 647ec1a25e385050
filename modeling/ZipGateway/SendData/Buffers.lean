import ZipGateway.SendData.Served

/-!
# Conservation of blocks and buffers

A frame holds a block and a buffer. Three paths release only one of the two, or none: a physical
frame whose discard timer expires and a waiting session that is aborted keep their buffer, and
`send_data` keeps the block when it gets no buffer for it. In every run without these, the blocks
and buffers in use are those of the frames in the queues and of the session under way.
-/

namespace ZipGateway

open Function (update update_of_ne update_self)

variable (env : SendEnv)

namespace SendDataAppl

def frames (s : SendDataAppl) : List SendBlock :=
  s.live ++ s.sendDataList

structure Conserved (s : SendDataAppl) : Prop where
  buffers : s.buffers.Perm (s.frames.map s.idOf)
  nodup : s.buffers.Nodup
  blocks : ∀ i, s.allocated i = true ↔ i ∈ s.frames

variable {s t : SendDataAppl} {i : SendBlock}

theorem Conserved.frames_nodup (h : Conserved s) : s.frames.Nodup :=
  List.Nodup.of_map _ (h.buffers.nodup_iff.mp h.nodup)

theorem Conserved.congr (h : Conserved s) (hframes : t.frames = s.frames)
    (hid : ∀ i ∈ s.frames, t.idOf i = s.idOf i) (hbuffers : t.buffers = s.buffers)
    (halloc : t.allocated = s.allocated) : Conserved t := by
  refine ⟨?_, ?_, ?_⟩
  · rw [hbuffers, hframes, List.map_congr_left hid]
    exact h.buffers
  · rw [hbuffers]
    exact h.nodup
  · rw [halloc, hframes]
    exact h.blocks

theorem Conserved.post (h : Conserved s) (e : SendEvent) : Conserved (s.post e) :=
  h.congr rfl (fun _ _ => rfl) rfl rfl

theorem Conserved.release (h : Conserved s) (hi : i ∈ s.frames) (hframes : t.frames = s.frames.erase i)
    (hid : t.idOf = s.idOf) (hbuffers : t.buffers = s.buffers.erase (s.idOf i))
    (halloc : t.allocated = update s.allocated i false) : Conserved t := by
  have hnodup := h.frames_nodup
  have hperm : (s.buffers.erase (s.idOf i)).Perm ((s.frames.erase i).map s.idOf) := by
    have hcons : (s.frames.map s.idOf).Perm (s.idOf i :: (s.frames.erase i).map s.idOf) :=
      (List.perm_cons_erase hi).map s.idOf
    have herase := (h.buffers.trans hcons).erase (s.idOf i)
    rw [List.erase_cons_head] at herase
    exact herase
  refine ⟨?_, ?_, fun j => ?_⟩
  · rw [hbuffers, hframes, hid]
    exact hperm
  · rw [hbuffers]
    exact h.nodup.erase _
  · rw [halloc, hframes]
    by_cases hji : j = i
    · rw [hji, update_self]
      exact ⟨fun hf => absurd hf (by decide), fun hmem => absurd hmem hnodup.not_mem_erase⟩
    · rw [update_of_ne hji, List.mem_erase_of_ne hji]
      exact h.blocks j

theorem Conserved.take (h : Conserved s) (hbelow : ∀ j ∈ s.frames, s.idOf j < s.nBuffers)
    (hframes : t.frames.Perm (i :: s.frames)) (hself : t.idOf i = s.nBuffers)
    (hid : ∀ j ∈ s.frames, t.idOf j = s.idOf j) (hbuffers : t.buffers = s.nBuffers :: s.buffers)
    (halloc : t.allocated = update s.allocated i true) : Conserved t := by
  refine ⟨?_, ?_, fun j => ?_⟩
  · have hmap : (t.frames.map t.idOf).Perm (s.nBuffers :: s.frames.map s.idOf) := by
      rw [← hself, ← List.map_congr_left hid]
      exact hframes.map t.idOf
    rw [hbuffers]
    exact (h.buffers.cons _).trans hmap.symm
  · rw [hbuffers]
    refine List.nodup_cons.mpr ⟨fun hmem => ?_, h.nodup⟩
    obtain ⟨j, hj, heq⟩ := List.mem_map.mp (h.buffers.mem_iff.mp hmem)
    exact absurd (hbelow j hj) (by rw [heq]; exact Nat.lt_irrefl _)
  · rw [halloc, hframes.mem_iff, List.mem_cons]
    by_cases hji : j = i
    · rw [hji, update_self]
      exact ⟨fun _ => .inl rfl, fun _ => rfl⟩
    · rw [update_of_ne hji, h.blocks j]
      exact ⟨.inr, fun hmem => hmem.resolve_left hji⟩

/-! ### Completion -/

theorem conserved_runCallback (cb : SendCallback) (status : UInt8) (report : Bool) (h : Conserved s)
    (hcurrent : s.lock = true → ∃ i, s.currentSession = some i)
    (hwait : (cb.user.toList ++ s.tokens).Perm (if s.lock then s.currentSession.toList else [])) :
    Conserved (runCallback env s cb status report) := by
  cases cb with
  | application => exact h
  | layer => exact h
  | callbackEx user =>
    obtain ⟨hlock, hcur, -⟩ := current_of_wait hcurrent hwait
    obtain ⟨node, timer, posted, lost, heq, -⟩ := callbackEx_eq env status user report hlock
    simp only [runCallback, heq]
    have hlive : s.frames = user :: (s.sessionList ++ s.sendDataList) := by
      rw [frames, live_of_lock hlock hcur, List.cons_append]
    refine h.release (by rw [hlive]; exact List.mem_cons_self) ?_ rfl rfl rfl
    rw [hlive, List.erase_cons_head, frames, live_of_unlock rfl]

theorem conserved_sendDataCallbackFunc (status : UInt8) (report : Bool) (radio : Option Nat)
    (hshape : Shape s) (hwaited : Waited s) (h : Conserved s) :
    Conserved (sendDataCallbackFunc env s status report radio) := by
  unfold sendDataCallbackFunc
  by_cases hlockLl : s.lockLl = true
  · rw [if_neg (by simp [hlockLl])]
    obtain ⟨i, rest, hfirst, -⟩ := hshape.head hlockLl
    rw [hfirst]
    dsimp only
    have hmem : i ∈ s.sendDataList := by
      rw [hfirst]
      exact List.mem_cons_self
    have hrest : s.sendDataList.erase i = rest := by rw [hfirst, List.erase_cons_head]
    have hnotLive : i ∉ s.live := fun hlive =>
      (List.nodup_append.mp hshape.nodup).2.2 i hlive i hmem rfl
    have hpopped : ∀ u : SendDataAppl, u.live = s.live → u.sendDataList = rest → u.mem = s.mem →
        u.buffers = s.buffers.erase (s.idOf i) →
        u.allocated = update s.allocated i false → u.owedAppl = s.owedAppl →
        u.lock = s.lock → u.currentSession = s.currentSession →
        Conserved ((runCallback env u (s.mem i).callback status report).post .sendNextLl) := by
      intro u hlive hlist hmemory hbuffers halloc howed hlock hcur
      have hu : Conserved u := by
        refine h.release (List.mem_append_right _ hmem) ?_ ?_ hbuffers halloc
        · rw [frames, hlive, hlist, frames, List.erase_append_right _ hnotLive, hrest]
        · funext j
          rw [idOf, hmemory, idOf]
      have hwait : ((s.mem i).callback.user.toList ++ u.tokens).Perm
          (if u.lock then u.currentSession.toList else []) := by
        have hperm := tokens_perm hmem
        rw [hwaited, hrest] at hperm
        rw [hlock, hcur, tokens, howed, hlist, hmemory]
        exact hperm.symm
      have hdone := conserved_runCallback env (s.mem i).callback status report hu
        (by rw [hlock, hcur]; exact hshape.current) hwait
      exact hdone.congr rfl (fun _ _ => rfl) rfl rfl
    cases radio with
    | none => exact hpopped _ rfl rfl rfl rfl rfl rfl rfl rfl
    | some fb => exact hpopped _ rfl rfl rfl rfl rfl rfl rfl rfl
  · rw [if_pos (by simpa using hlockLl)]
    exact h

/-! ### Sending -/

def BufferFor (env : SendEnv) (s : SendDataAppl) (len : Nat) : Prop :=
  (∃ i, s.allocated i = false) → env.malloc s.nMalloc = true ∧ len < frameBufferElementSize

theorem conserved_sendData (p : SendParam) (data : Mem) (len : Nat) (cb : SendCallback)
    (hshape : Shape s) (hbelow : ∀ j ∈ s.frames, s.idOf j < s.nBuffers) (hok : BufferFor env s len)
    (h : Conserved s) : Conserved (sendData env s p data len cb).2 := by
  rcases sendData_cases env s p data len cb with
    ⟨i, m, ⟨hfree, hfail, -⟩ | heq⟩ | ⟨i, m, x, hfree, hid, -, -, heq⟩
  · exact absurd (hok ⟨i, hfree⟩) hfail
  · rw [heq]
    exact h
  · have hnot := hshape.not_mem hfree
    have hnotLl : i ∉ s.sendDataList := fun hmem => hnot (List.mem_append_right _ hmem)
    rw [heq, listAdd_eq hnotLl]
    refine Conserved.post (h.take hbelow ?_ ?_ ?_ rfl rfl) _
    · exact List.Perm.trans (by rw [frames, ← List.append_assoc]; rfl) (List.perm_append_singleton i s.frames)
    · simp only [idOf, update_self, hid]
    · intro j hj
      have hji : j ≠ i := by
        rintro rfl
        exact hnot hj
      simp only [idOf, update_of_ne hji]

theorem conserved_zwSendDataAppl (p : SendParam) (data : Mem) (len : Nat) (hshape : Shape s)
    (hbelow : ∀ j ∈ s.frames, s.idOf j < s.nBuffers) (h : Conserved s) :
    Conserved (zwSendDataAppl env s p data len) := by
  rcases zwSendDataAppl_cases env s p data len with ⟨m, heq⟩ | ⟨i, m, x, hfree, hid, -, heq⟩
  · rw [heq]
    exact h.congr rfl (fun _ _ => rfl) rfl rfl
  · have hnot := hshape.not_mem hfree
    have hnotList : i ∉ s.sessionList := fun hmem =>
      hnot (List.mem_append_left _ (List.mem_append_right _ hmem))
    rw [heq, listAdd_eq hnotList]
    refine Conserved.post (h.take hbelow ?_ ?_ ?_ rfl rfl) _
    · have hframes : ∀ current : List SendBlock, (current ++ (s.sessionList ++ [i])) ++ s.sendDataList =
          (current ++ s.sessionList) ++ i :: s.sendDataList := by
        intro current
        simp only [List.append_assoc, List.cons_append, List.nil_append]
      exact List.Perm.trans (by rw [frames, live, hframes]; rfl) List.perm_middle
    · simp only [idOf, update_self, hid]
    · intro j hj
      have hji : j ≠ i := by
        rintro rfl
        exact hnot hj
      simp only [idOf, update_of_ne hji]

theorem conserved_sendEndpoint (i : SendBlock) (hsound : Sound s)
    (hok : ∀ data len, env.sendEndpoint s.nRoutes = .direct data len → BufferFor env s len)
    (h : Conserved s) : Conserved (sendEndpoint env s i).2 := by
  unfold sendEndpoint
  dsimp only
  cases hroute : env.sendEndpoint s.nRoutes with
  | refused => exact h.congr rfl (fun _ _ => rfl) rfl rfl
  | direct data len =>
    have hshape := hsound.toShape
    refine conserved_sendData env _ data len _ ⟨hshape.1, hshape.2, hshape.3, hshape.4, hshape.5⟩
      hsound.below (hok data len hroute) (h.congr rfl (fun _ _ => rfl) rfl rfl)
  | layered => exact h.congr rfl (fun _ _ => rfl) rfl rfl

theorem conserved_sendFirst {posted : List SendEvent} (hserved : Served s) (hlock : s.lock = false)
    (hemergency : SendEvent.emergencyTimer ∈ s.posted → .emergencyTimer ∈ posted)
    (hnext : SendEvent.sendNextLl ∈ s.posted → .sendNextLl ∈ posted)
    (hok : s.sessionList ≠ [] → ∀ data len, env.sendEndpoint s.nRoutes = .direct data len → BufferFor env s len)
    (h : Conserved s) : Conserved (sendFirst env { s with posted := posted }) := by
  unfold sendFirst
  dsimp only
  cases hfirst : s.sessionList with
  | nil =>
    dsimp only
    refine h.congr ?_ (fun _ _ => rfl) rfl rfl
    have hframes : s.frames = s.sendDataList := by
      rw [frames, live_of_unlock hlock, hfirst, List.nil_append]
    rw [hframes]
    simp only [frames, live, hlock, Bool.false_eq_true, if_false, List.nil_append]
  | cons i rest =>
    dsimp only
    generalize hu : log { s with
      posted := posted
      sessionList := rest
      currentSession := some i
      lock := true } (.started (s.mem i).fb.id) = u
    have hulock : u.lock = true := by
      rw [← hu]
      rfl
    have hucur : u.currentSession = some i := by
      rw [← hu]
      rfl
    have husound : Sound u := by
      rw [← hu]
      refine hserved.toSound.begin hlock hfirst rfl rfl rfl rfl rfl rfl rfl rfl rfl ?_
      rintro (he | he)
      · exact .inl he
      · exact .inr (hemergency he)
    have huwake : WakeLl u := by
      rw [← hu]
      intro hkept hne
      rcases hserved.wakeLl hkept hne with hl | hl
      · exact .inl hl
      · exact .inr (hnext hl)
    have hutokens : u.tokens = [] := by
      have hwaited := hserved.waited
      rw [Waited, hlock, if_neg (by decide)] at hwaited
      rw [← hu]
      exact hwaited
    have huconserved : Conserved u := by
      refine h.congr ?_ (fun _ _ => by rw [← hu]; rfl) (by rw [← hu]; rfl) (by rw [← hu]; rfl)
      rw [frames, live_of_lock hulock hucur, frames, live_of_unlock hlock, hfirst, ← hu]
      rfl
    have hend : Conserved (sendEndpoint env u i).2 := by
      refine conserved_sendEndpoint env i husound ?_ huconserved
      have hbuffer := hok (by rw [hfirst]; exact List.cons_ne_nil _ _)
      rw [← hu]
      exact hbuffer
    obtain ⟨hsound, -, hl, hc, ht⟩ := sound_sendEndpoint env husound huwake hulock hucur hutokens
    generalize sendEndpoint env u i = r at hsound hl hc ht hend
    obtain ⟨ok, v⟩ := r
    cases ok with
    | true => exact hend
    | false =>
      refine conserved_runCallback env (.callbackEx i) txError false hend hsound.current ?_
      rw [show v.tokens = [] from ht, show v.lock = true from hl,
        show v.currentSession = some i from hc]
      exact List.Perm.refl _

theorem conserved_sendNextLl (hsound : Sound s) (hwaited : Waited s) (h : Conserved s) :
    Conserved (sendNextLl env s) := by
  cases hfirst : s.sendDataList with
  | nil =>
    rw [sendNextLl, hfirst]
    exact h
  | cons i rest =>
    by_cases hlockLl : s.lockLl = true
    · rw [sendNextLl, hfirst]
      dsimp only
      rw [if_pos hlockLl]
      exact h
    · have hserved := served_handed hsound hwaited hfirst s.owedRadio
      rw [sendNextLl_cons env hfirst (by simpa using hlockLl)]
      obtain ⟨mem, heq, hmem, hfb, -⟩ := handed_eq s i
      have hid : ∀ j, (mem j).fb.id = s.idOf j := by
        intro j
        by_cases hji : j = i
        · rw [hji, hfb, idOf]
        · rw [hmem j hji, idOf]
      rw [heq] at hserved ⊢
      split
      · exact h.congr rfl (fun j _ => hid j) rfl rfl
      · have hshape := hserved.toShape
        refine conserved_sendDataCallbackFunc env txFail false none
          ⟨hshape.1, hshape.2, hshape.3, hshape.4, hshape.5⟩ hserved.waited ?_
        exact h.congr rfl (fun j _ => hid j) rfl rfl

/-! ### Runs -/

/-- The steps that release what they should: no discard timer expires, no waiting session is
aborted, and `send_data` gets a buffer whenever it gets a block. -/
def Tidy (env : SendEnv) (s : SendDataAppl) : SendInput → Prop
  | .abort handle => ∀ i ∈ s.sessionList, i.val + 1 = handle → s.currentSession = some i
  | .sendData _ _ len => BufferFor env s len
  | .discard i => (s.mem i).discardTimer = false
  | .deliver n => s.posted[n]? = some .sendNext → s.lock = false → s.backoffTimer = false →
      s.sessionList ≠ [] → ∀ data len, env.sendEndpoint s.nRoutes = .direct data len →
      BufferFor env s len
  | _ => True

theorem conserved_step (s : SendDataAppl) (e : SendInput) (hok : Tidy env s e) (hserved : Served s)
    (h : Conserved s) : Conserved (step env s e) := by
  cases e with
  | sendDataAppl p data len =>
    exact conserved_zwSendDataAppl env p data len hserved.toShape hserved.below h
  | abort handle =>
    simp only [step, zwSendDataApplAbort]
    split
    · rename_i hrange
      split
      · exact h
      · rename_i hcur
        split
        · rename_i hmem
          exact absurd (hok _ hmem (Nat.sub_add_cancel hrange.1)) hcur
        · exact h
    · exact h
  | sendData p data len =>
    exact conserved_sendData env p data len .layer hserved.toShape hserved.below hok h
  | layerDone n status report =>
    simp only [step]
    split
    · rename_i i howed
      have hsame : Conserved { s with owedAppl := s.owedAppl.eraseIdx n } :=
        h.congr rfl (fun _ _ => rfl) rfl rfl
      refine conserved_runCallback env (.callbackEx i) status report hsame hserved.current ?_
      have hperm := tokens_perm_layer howed
      rw [hserved.waited] at hperm
      exact hperm.symm
    · exact h
  | radioDone n status report =>
    simp only [step]
    split
    · have hshape := hserved.toShape
      exact conserved_sendDataCallbackFunc env status report _
        ⟨hshape.1, hshape.2, hshape.3, hshape.4, hshape.5⟩ hserved.waited
        (h.congr rfl (fun _ _ => rfl) rfl rfl)
    · exact h
  | discard i =>
    simp only [step, doDiscardTimeoutMemb]
    rw [show (s.mem i).discardTimer = false from hok]
    exact h
  | emergencyExpires =>
    simp only [step]
    split
    · exact h.congr rfl (fun _ _ => rfl) rfl rfl
    · exact h
  | backoffExpires =>
    simp only [step]
    split
    · exact h.congr rfl (fun _ _ => rfl) rfl rfl
    · exact h
  | otherEvents n =>
    simp only [step]
    split
    · exact h.congr rfl (fun _ _ => rfl) rfl rfl
    · exact h
  | frameRx snode =>
    simp only [step, frameRxNotify]
    split
    · exact h.congr rfl (fun _ _ => rfl) rfl rfl
    · exact h
  | deliver n =>
    simp only [step]
    split
    · rename_i e hn
      have hsame : Conserved { s with posted := s.posted.eraseIdx n } :=
        h.congr rfl (fun _ _ => rfl) rfl rfl
      have hstay : ∀ e', e' ≠ e → e' ∈ s.posted → e' ∈ s.posted.eraseIdx n := fun e' hne hmem =>
        mem_eraseIdx_of_ne hn hne hmem
      have hshape := hserved.toShape
      cases e with
      | emergencyTimer =>
        exact conserved_sendDataCallbackFunc env txFail false none
          ⟨hshape.1, hshape.2, hshape.3, hshape.4, hshape.5⟩ hserved.waited hsame
      | backoffTimer => exact h.congr rfl (fun _ _ => rfl) rfl rfl
      | sendNext =>
        simp only [process]
        split
        · rename_i hcond
          simp only [Bool.and_eq_true, Bool.not_eq_true'] at hcond
          exact conserved_sendFirst env hserved hcond.1 (hstay _ (by decide)) (hstay _ (by decide))
            (hok hn hcond.1 hcond.2) h
        · exact hsame
      | sendNextLl =>
        exact conserved_sendNextLl env (hserved.sound_deliverLl hn) hserved.waited hsame
    · exact h

theorem Conserved.nothing_left (h : Conserved s) (hlist : s.sessionList = [])
    (hll : s.sendDataList = []) (hlock : s.lock = false) :
    s.buffers = [] ∧ ∀ i, s.allocated i = false := by
  have hframes : s.frames = [] := by rw [frames, live_of_unlock hlock, hlist, hll, List.nil_append]
  refine ⟨?_, fun i => ?_⟩
  · have hbuffers := h.buffers
    rw [hframes] at hbuffers
    exact hbuffers.eq_nil
  · have hblock := h.blocks i
    rw [hframes] at hblock
    simpa using hblock

/-- In every run of tidy steps, the blocks and buffers in use are those of the frames. -/
theorem buffers_conserved (env : SendEnv) (inputs : List SendInput)
    (hok : Machine.Admissible (step env) (Tidy env) init inputs) :
    Conserved (run env init inputs) ∧
      ((run env init inputs).sessionList = [] → (run env init inputs).sendDataList = [] →
        (run env init inputs).lock = false →
        (run env init inputs).buffers = [] ∧ ∀ i, (run env init inputs).allocated i = false) := by
  have hinit : Conserved init := by
    refine ⟨List.Perm.refl _, List.nodup_nil, fun i => ?_⟩
    exact ⟨fun hf => absurd hf Bool.false_ne_true, fun hmem => by cases hmem⟩
  obtain ⟨-, hconserved⟩ := @Machine.run_invariant_of_admissible SendDataAppl SendInput (step env)
    (fun s => Served s ∧ Conserved s) (Tidy env)
    (fun s e hok h => ⟨served_step env s e h.1, conserved_step env s e hok h.1 h.2⟩) init inputs hok
    ⟨served_init, hinit⟩
  exact ⟨hconserved, hconserved.nothing_left⟩

theorem sampleSendAppl_conserved :
    (run sampleSendEnv init [sampleSendAppl, .deliver 0, .deliver 0, .radioDone 0 txOk true]).buffers = [] := by
  have hbuffer : ∀ (s : SendDataAppl) data len, sampleSendEnv.sendEndpoint s.nRoutes = .direct data len →
      BufferFor sampleSendEnv s len := by
    intro s data len hroute _
    cases hroute
    exact ⟨rfl, by decide⟩
  have hconserved := buffers_conserved sampleSendEnv [sampleSendAppl, .deliver 0, .deliver 0, .radioDone 0 txOk true]
    ⟨trivial, fun _ _ _ _ => hbuffer _, fun _ _ _ _ => hbuffer _, trivial, trivial⟩
  exact (hconserved.2 (by decide) (by decide) (by decide)).1

def abortedSend : List SendInput :=
  [sampleSendAppl, .abort 1]

theorem abortedSend_not_conserved : (run sampleSendEnv init abortedSend).frames = [] ∧
      (run sampleSendEnv init abortedSend).buffers ≠ [] := by
  decide

end SendDataAppl

end ZipGateway

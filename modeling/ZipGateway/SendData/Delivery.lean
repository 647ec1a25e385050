import ZipGateway.SendData.Served

/-!
# Delivery of the sessions of the application

No session is called back twice, and sessions are started in the order in which they are accepted. This
holds in every run. An accepted session is called back in the end as long as there is room for the events
that are posted. The callback of the radio carries no frame: it completes the frame at the head of the
queue. This is the frame it is for as long as no frame is given to the radio while the callback of an
earlier one is outstanding.
-/

namespace ZipGateway

open SendLog

variable (env : SendEnv)

namespace SendDataAppl

variable {s t : SendDataAppl} {i : SendBlock}

/-- A frame is given to the radio only when no callback of the radio is outstanding. -/
def Answered (s : SendDataAppl) : SendInput → Prop
  | .deliver n => s.posted[n]? = some .sendNextLl → s.lockLl = false → s.sendDataList ≠ [] →
      s.owedRadio = []
  | _ => True

/-- The events a step may post, beyond one for the event that it takes from the queue. -/
def posts (s : SendDataAppl) : SendInput → Nat
  | .radioDone .. => 2
  | .sendDataAppl .. | .sendData .. | .layerDone .. | .discard _ => 1
  | .frameRx snode => if s.backoffTimer && snode == s.backoffNode then 1 else 0
  | .deliver n =>
    if s.posted[n]? = some .emergencyTimer ∨ s.posted[n]? = some .sendNextLl then 1 else 0
  | .abort _ | .emergencyExpires | .backoffExpires | .otherEvents _ => 0

def Orderly (s : SendDataAppl) (e : SendInput) : Prop :=
  Answered s e ∧ s.posted.length + s.others + s.posts e ≤ processConfNumevents

/-! ### Room for the events -/

structure Posts (n : Nat) (s t : SendDataAppl) : Prop where
  others : t.others = s.others
  length : t.posted.length ≤ s.posted.length + n
  kept : s.posted.length + s.others + n ≤ processConfNumevents → t.lost = s.lost

namespace Posts

variable {u : SendDataAppl} {m n : Nat}

theorem of_eq (hothers : t.others = s.others) (hposted : t.posted = s.posted) (hlost : t.lost = s.lost) : Posts n s t :=
  ⟨hothers, by rw [hposted]; exact Nat.le_add_right _ _, fun _ => hlost⟩

theorem of_start (h : Posts n u t) (hothers : u.others = s.others) (hposted : u.posted = s.posted)
    (hlost : u.lost = s.lost) : Posts n s t := by
  obtain ⟨hothers', hlength, hkept⟩ := h
  rw [hothers, hposted, hlost] at hkept
  exact ⟨hothers'.trans hothers, by rw [← hposted]; exact hlength, hkept⟩

theorem trans (h : Posts m s t) (h' : Posts n t u) : Posts (m + n) s u := by
  obtain ⟨hothers, hlength, hkept⟩ := h
  obtain ⟨hothers', hlength', hkept'⟩ := h'
  exact ⟨hothers'.trans hothers, by omega, fun hroom => (hkept' (by omega)).trans (hkept (by omega))⟩

theorem post (e : SendEvent) : Posts 1 s (s.post e) := by
  refine ⟨rfl, ?_, fun hroom => ?_⟩
  · dsimp only [SendDataAppl.post]
    split
    · exact (List.length_append).le
    · exact Nat.le_succ _
  · have hfits : s.room = true := decide_eq_true hroom
    simp [SendDataAppl.post, hfits]

end Posts

theorem posts_callbackEx (s : SendDataAppl) (status : UInt8) (i : SendBlock) (report : Bool) :
    Posts 1 s (callbackEx env s status i report) := by
  unfold callbackEx
  split
  · exact .of_eq rfl rfl rfl
  · dsimp only
    split
    · exact .of_eq rfl rfl rfl
    · have hposts := Posts.post (s := { s with lock := false }) .sendNext
      exact ⟨hposts.others, hposts.length, hposts.kept⟩

theorem posts_runCallback (s : SendDataAppl) (cb : SendCallback) (status : UInt8) (report : Bool) :
    Posts 1 s (runCallback env s cb status report) := by
  cases cb with
  | callbackEx user => exact posts_callbackEx env s status user report
  | application => exact .of_eq rfl rfl rfl
  | layer => exact .of_eq rfl rfl rfl

theorem posts_sendDataCallbackFunc (s : SendDataAppl) (status : UInt8) (report : Bool)
    (radio : Option Nat) : Posts 2 s (sendDataCallbackFunc env s status report radio) := by
  unfold sendDataCallbackFunc
  split
  · exact .of_eq rfl rfl rfl
  · split
    · exact .of_eq rfl rfl rfl
    · rename_i i rest _
      have hdone : ∀ u : SendDataAppl,
          Posts 2 u ((runCallback env u (s.mem i).callback status report).post .sendNextLl) :=
        fun u => (posts_runCallback env u _ status report).trans (.post .sendNextLl)
      cases radio with
      | none => exact (hdone _).of_start rfl rfl rfl
      | some fb => exact (hdone _).of_start rfl rfl rfl

theorem posts_sendData (s : SendDataAppl) (p : SendParam) (data : Mem) (len : Nat) (cb : SendCallback) :
    Posts (if (sendData env s p data len cb).1 then 1 else 0) s (sendData env s p data len cb).2 := by
  rcases sendData_cases env s p data len cb with
    ⟨i, m, ⟨-, -, heq⟩ | heq⟩ | ⟨i, m, x, -, -, -, -, heq⟩
  · rw [heq]
    exact .of_eq rfl rfl rfl
  · rw [heq]
    exact .of_eq rfl rfl rfl
  · rw [heq]
    exact (Posts.post .sendNextLl).of_start rfl rfl rfl

theorem posts_sendFirst (s : SendDataAppl) : Posts 1 s (sendFirst env s) := by
  unfold sendFirst
  cases s.sessionList with
  | nil => exact .of_eq rfl rfl rfl
  | cons i rest =>
    dsimp only
    generalize hu : log { s with
      sessionList := rest
      currentSession := some i
      lock := true } (.started (s.mem i).fb.id) = u
    have hend : Posts (if (sendEndpoint env u i).1 then 1 else 0) u (sendEndpoint env u i).2 := by
      unfold sendEndpoint
      dsimp only
      cases env.sendEndpoint u.nRoutes with
      | refused => exact .of_eq rfl rfl rfl
      | direct data len =>
        have hsent := posts_sendData env { u with nRoutes := u.nRoutes + 1 } (u.mem i).fb.param data len (.callbackEx i)
        exact hsent.of_start rfl rfl rfl
      | layered => exact .of_eq rfl rfl rfl
    generalize sendEndpoint env u i = r at hend
    obtain ⟨ok, v⟩ := r
    have hstart : ∀ {w : SendDataAppl}, Posts 1 u w → Posts 1 s w := by
      intro w h
      refine h.of_start ?_ ?_ ?_ <;> rw [← hu] <;> rfl
    cases ok with
    | true => exact hstart hend
    | false => exact hstart (hend.trans (posts_callbackEx env v txError i false))

theorem posts_sendNextLl (s : SendDataAppl) : Posts 2 s (sendNextLl env s) := by
  have hself : Posts 2 s s := .of_eq rfl rfl rfl
  cases hfirst : s.sendDataList with
  | nil =>
    rw [sendNextLl, hfirst]
    exact hself
  | cons i rest =>
    by_cases hlockLl : s.lockLl = true
    · rw [sendNextLl, hfirst]
      dsimp only
      rw [if_pos hlockLl]
      exact hself
    · obtain ⟨mem, heq, -⟩ := handed_eq s i
      rw [sendNextLl_cons env hfirst (by simpa using hlockLl), heq]
      split
      · exact .of_eq rfl rfl rfl
      · exact (posts_sendDataCallbackFunc env _ txFail false none).of_start rfl rfl rfl

theorem lost_step (s : SendDataAppl) (e : SendInput)
    (hroom : s.posted.length + s.others + s.posts e ≤ processConfNumevents) :
    (step env s e).lost = s.lost := by
  have hexpired : ∀ (timer emergency backoff : Bool) (e : SendEvent), (if timer && s.room then post { s with
        emergencyTimer := emergency
        backoffTimer := backoff } e else s).lost = s.lost := by
    intro timer emergency backoff e
    split
    · rename_i hcond
      have hfits := of_decide_eq_true (Bool.and_eq_true_iff.mp hcond).2
      exact (Posts.post (s := { s with emergencyTimer := emergency, backoffTimer := backoff }) e).kept hfits
    · rfl
  cases e with
  | sendDataAppl p data len =>
    simp only [step]
    rcases zwSendDataAppl_cases env s p data len with ⟨m, heq⟩ | ⟨i, m, x, -, -, -, heq⟩
    · rw [heq]
    · rw [heq]
      exact (Posts.post .sendNext).kept hroom
  | abort handle =>
    simp only [step, zwSendDataApplAbort]
    split
    · split
      · rfl
      · split <;> rfl
    · rfl
  | sendData p data len =>
    have hsent := posts_sendData env s p data len .layer
    refine hsent.kept ?_
    split
    · exact hroom
    · exact Nat.le_of_succ_le hroom
  | layerDone n status report =>
    simp only [step]
    split
    · exact (posts_callbackEx env _ status _ report).kept hroom
    · rfl
  | radioDone n status report =>
    simp only [step]
    split
    · exact (posts_sendDataCallbackFunc env _ status report _).kept hroom
    · rfl
  | discard i =>
    simp only [step, doDiscardTimeoutMemb]
    split
    · rfl
    · exact (posts_runCallback env _ _ txFail false).kept hroom
  | emergencyExpires => exact hexpired s.emergencyTimer false s.backoffTimer .emergencyTimer
  | backoffExpires => exact hexpired s.backoffTimer s.emergencyTimer false .backoffTimer
  | otherEvents n =>
    simp only [step]
    split <;> rfl
  | frameRx snode =>
    simp only [step, frameRxNotify]
    split
    · rename_i hcond
      rw [posts, if_pos hcond] at hroom
      exact (Posts.post .sendNext).kept hroom
    · rfl
  | deliver n =>
    simp only [step]
    split
    · rename_i e hn
      obtain ⟨hlt, -⟩ := List.getElem?_eq_some_iff.mp hn
      have hlength : (s.posted.eraseIdx n).length + 1 = s.posted.length := by
        rw [List.length_eraseIdx_of_lt hlt]
        omega
      rw [posts, hn] at hroom
      generalize s.posted.eraseIdx n = posted at hlength
      have hkept : ∀ {k t}, Posts k { s with posted := posted } t →
          posted.length + s.others + k ≤ processConfNumevents → t.lost = s.lost :=
        fun hposts hfits => hposts.kept hfits
      cases e with
      | emergencyTimer =>
        rw [if_pos (.inl rfl)] at hroom
        exact hkept (posts_sendDataCallbackFunc env _ txFail false none) (by omega)
      | backoffTimer => exact hkept (.post .sendNext) (by omega)
      | sendNext =>
        simp only [process]
        split
        · exact hkept (posts_sendFirst env _) (by omega)
        · rfl
      | sendNextLl =>
        rw [if_pos (.inr rfl)] at hroom
        exact hkept (posts_sendNextLl env _) (by omega)
    · rfl

/-! ### The frames of the radio -/

structure Attributed (s : SendDataAppl) : Prop where
  results : ∀ fb popped status, .result fb popped status ∈ s.out → fb = popped
  owed : s.lockLl = true → ∃ i rest, s.sendDataList = i :: rest ∧ s.owedRadio = [s.idOf i]

structure KeepsFirst (s t : SendDataAppl) : Prop where
  lockLl : t.lockLl = s.lockLl
  owed : t.owedRadio = s.owedRadio
  first : ∀ i rest, s.lockLl = true → s.sendDataList = i :: rest →
    ∃ rest', t.sendDataList = i :: rest' ∧ t.idOf i = s.idOf i
  out : ∀ fb popped status, .result fb popped status ∈ t.out → .result fb popped status ∈ s.out

theorem Attributed.keeps (h : Attributed s) (hkeeps : KeepsFirst s t) : Attributed t := by
  refine ⟨fun fb popped status hmem => h.results fb popped status (hkeeps.out fb popped status hmem), fun hl => ?_⟩
  have hsl : s.lockLl = true := hkeeps.lockLl.symm.trans hl
  obtain ⟨i, rest, hfirst, hone⟩ := h.owed hsl
  obtain ⟨rest', hfirst', hid⟩ := hkeeps.first i rest hsl hfirst
  exact ⟨i, rest', hfirst', by rw [hkeeps.owed, hone, hid]⟩

theorem KeepsFirst.trans {u : SendDataAppl} (h : KeepsFirst s t) (h' : KeepsFirst t u) : KeepsFirst s u := by
  refine ⟨h'.lockLl.trans h.lockLl, h'.owed.trans h.owed, ?_,
    fun fb popped status hmem => h.out _ _ _ (h'.out fb popped status hmem)⟩
  intro i rest hsl hfirst
  obtain ⟨rest', hfirst', hid⟩ := h.first i rest hsl hfirst
  obtain ⟨rest'', hfirst'', hid'⟩ := h'.first i rest' (h.lockLl.trans hsl) hfirst'
  exact ⟨rest'', hfirst'', hid'.trans hid⟩

theorem KeepsFirst.of_eq (hlockLl : t.lockLl = s.lockLl) (hlist : t.sendDataList = s.sendDataList)
    (howed : t.owedRadio = s.owedRadio) (hid : ∀ i ∈ s.sendDataList, t.idOf i = s.idOf i)
    (hout : ∀ fb popped status, .result fb popped status ∈ t.out →
      .result fb popped status ∈ s.out) : KeepsFirst s t := by
  refine ⟨hlockLl, howed, fun i rest _ hfirst => ?_, hout⟩
  exact ⟨rest, hlist.trans hfirst, hid i (by rw [hfirst]; exact List.mem_cons_self)⟩

theorem keepsFirst_runCallback (s : SendDataAppl) (cb : SendCallback) (status : UInt8)
    (report : Bool) : KeepsFirst s (runCallback env s cb status report) := by
  obtain ⟨hlist, hlockLl, hmem, -, howed, -⟩ := runCallback_frame env s cb status report
  refine .of_eq hlockLl hlist howed (fun i _ => by rw [idOf, hmem, idOf]) ?_
  intro fb popped st hres
  cases cb with
  | application => exact hres
  | layer => exact hres
  | callbackEx user =>
    by_cases hlock : s.lock = true
    · obtain ⟨node, timer, posted, lost, heq, -⟩ := callbackEx_eq env status user report hlock
      simp only [runCallback, heq] at hres
      exact List.mem_of_ne_of_mem (by simp) hres
    · rw [runCallback, callbackEx, if_pos (by simpa using hlock)] at hres
      exact hres

theorem attributed_sendDataCallbackFunc (status : UInt8) (report : Bool) (radio : Option Nat)
    (hres : ∀ fb popped st, .result fb popped st ∈ s.out → fb = popped)
    (hne : s.lockLl = true → s.sendDataList ≠ [])
    (hradio : ∀ fb, radio = some fb → s.lockLl = true → ∀ i rest, s.sendDataList = i :: rest → fb = s.idOf i) :
    Attributed (sendDataCallbackFunc env s status report radio) := by
  unfold sendDataCallbackFunc
  by_cases hlockLl : s.lockLl = true
  · rw [if_neg (by simp [hlockLl])]
    obtain ⟨i, rest, hfirst⟩ := List.exists_cons_of_ne_nil (hne hlockLl)
    rw [hfirst]
    dsimp only
    have hpopped : ∀ u : SendDataAppl, u.lockLl = false → (∀ fb popped st, .result fb popped st ∈ u.out → fb = popped) →
        Attributed ((runCallback env u (s.mem i).callback status report).post .sendNextLl) := by
      intro u hul hures
      have hkeeps := keepsFirst_runCallback env u (s.mem i).callback status report
      refine ⟨fun fb popped st hmem => hures fb popped st (hkeeps.out fb popped st hmem), ?_⟩
      intro hl
      exact absurd (hul.symm.trans (hkeeps.lockLl.symm.trans hl)) (by decide)
    cases radio with
    | none => exact hpopped _ rfl hres
    | some fb =>
      refine hpopped _ rfl ?_
      intro fb' popped st hmem
      rcases List.mem_cons.mp hmem with heq | hmem
      · injection heq with hfb hpop
        rw [hfb, hpop]
        exact hradio fb rfl hlockLl i rest hfirst
      · exact hres fb' popped st hmem
  · rw [if_pos (by simpa using hlockLl)]
    exact ⟨hres, fun hl => absurd hl hlockLl⟩

theorem keepsFirst_sendData (p : SendParam) (data : Mem) (len : Nat) (cb : SendCallback)
    (h : ∀ i ∈ s.sendDataList, s.allocated i = true) :
    KeepsFirst s (sendData env s p data len cb).2 := by
  rcases sendData_cases env s p data len cb with
    ⟨i, m, ⟨-, -, heq⟩ | heq⟩ | ⟨i, m, x, hfree, -, -, -, heq⟩
  · rw [heq]
    exact .of_eq rfl rfl rfl (fun _ _ => rfl) (fun _ _ _ hmem => hmem)
  · rw [heq]
    exact .of_eq rfl rfl rfl (fun _ _ => rfl) (fun _ _ _ hmem => hmem)
  · have hnot : i ∉ s.sendDataList := fun hmem =>
      absurd ((h i hmem).symm.trans hfree) (by decide)
    rw [heq, listAdd_eq hnot]
    refine ⟨rfl, rfl, fun j rest _ hfirst => ⟨rest ++ [i], ?_, ?_⟩, fun _ _ _ hmem => hmem⟩
    · simp only [post, hfirst, List.cons_append]
    · have hji : j ≠ i := by
        rintro rfl
        exact hnot (by rw [hfirst]; exact List.mem_cons_self)
      simp only [idOf, post, Function.update_of_ne hji]

theorem keepsFirst_sendEndpoint (i : SendBlock) (h : ∀ i ∈ s.sendDataList, s.allocated i = true) :
    KeepsFirst s (sendEndpoint env s i).2 := by
  unfold sendEndpoint
  dsimp only
  have hsame : ∀ owed, KeepsFirst s { s with nRoutes := s.nRoutes + 1, owedAppl := owed } := fun _ =>
    .of_eq rfl rfl rfl (fun _ _ => rfl) (fun _ _ _ hmem => hmem)
  cases env.sendEndpoint s.nRoutes with
  | refused => exact hsame s.owedAppl
  | direct data len => exact (hsame s.owedAppl).trans (keepsFirst_sendData env _ data len _ h)
  | layered => exact hsame _

theorem keepsFirst_sendFirst (h : ∀ i ∈ s.sendDataList, s.allocated i = true) : KeepsFirst s (sendFirst env s) := by
  unfold sendFirst
  cases hfirst : s.sessionList with
  | nil => exact .of_eq rfl rfl rfl (fun _ _ => rfl) (fun _ _ _ hmem => hmem)
  | cons i rest =>
    dsimp only
    generalize hu : log { s with
      sessionList := rest
      currentSession := some i
      lock := true } (.started (s.mem i).fb.id) = u
    have hbegin : KeepsFirst s u := by
      rw [← hu]
      exact .of_eq rfl rfl rfl (fun _ _ => rfl) fun _ _ _ hmem => List.mem_of_ne_of_mem (by simp) hmem
    have hend : KeepsFirst u (sendEndpoint env u i).2 := by
      apply keepsFirst_sendEndpoint
      rw [← hu]
      exact h
    generalize sendEndpoint env u i = r at hend
    obtain ⟨ok, v⟩ := r
    cases ok with
    | true => exact hbegin.trans hend
    | false =>
      exact (hbegin.trans hend).trans (keepsFirst_runCallback env v (.callbackEx i) txError false)

theorem keepsFirst_doDiscardTimeoutMemb (i : SendBlock) (h : Shape s) :
    KeepsFirst s (doDiscardTimeoutMemb env s i) := by
  unfold doDiscardTimeoutMemb
  dsimp only
  split
  · exact .of_eq rfl rfl rfl (fun _ _ => rfl) (fun _ _ _ hmem => hmem)
  · rename_i htimer
    refine KeepsFirst.trans ?_ (keepsFirst_runCallback env _ (s.mem i).callback txFail false)
    refine ⟨rfl, rfl, fun j rest hl hfirst => ⟨rest.erase i, ?_, ?_⟩, fun _ _ _ hmem => hmem⟩
    · obtain ⟨j', rest', hfirst', hj'⟩ := h.head hl
      rw [hfirst] at hfirst'
      injection hfirst' with hjj
      have hji : j ≠ i := by
        rintro rfl
        rw [← hjj] at hj'
        exact htimer (by simp [hj'])
      simp only [membFree, setSession, hfirst]
      exact List.erase_cons_tail (by simpa using hji)
    · by_cases hji : j = i
      · rw [hji]
        simp [idOf, membFree, setSession]
      · simp only [idOf, membFree, setSession, Function.update_of_ne hji]

theorem keepsFirst_zwSendDataAppl (p : SendParam) (data : Mem) (len : Nat) (h : Shape s) :
    KeepsFirst s (zwSendDataAppl env s p data len) := by
  rcases zwSendDataAppl_cases env s p data len with ⟨m, heq⟩ | ⟨i, m, x, hfree, -, -, heq⟩
  · rw [heq]
    exact .of_eq rfl rfl rfl (fun _ _ => rfl) (fun _ _ _ hmem => hmem)
  · rw [heq]
    refine .of_eq rfl rfl rfl (fun j hj => ?_) fun _ _ _ hmem => List.mem_of_ne_of_mem (by simp) hmem
    have hji : j ≠ i := by
      rintro rfl
      exact h.not_mem hfree (List.mem_append_right _ hj)
    simp only [idOf, post, Function.update_of_ne hji]

theorem keepsFirst_zwSendDataApplAbort (handle : Nat) : KeepsFirst s (s.zwSendDataApplAbort handle) := by
  have hself : KeepsFirst s s := .of_eq rfl rfl rfl (fun _ _ => rfl) (fun _ _ _ hmem => hmem)
  unfold zwSendDataApplAbort
  split
  · dsimp only
    split
    · exact hself
    · split
      · exact .of_eq rfl rfl rfl (fun _ _ => rfl) fun _ _ _ hmem =>
          List.mem_of_ne_of_mem (by simp) hmem
      · exact hself
  · exact hself

/-- `SEND_EVENT_SEND_NEXT_LL`, when the radio owes nothing in case a frame is given to it. -/
theorem attributed_sendNextLl (h : Attributed s) (hok : s.lockLl = false → s.sendDataList ≠ [] → s.owedRadio = []) :
    Attributed (sendNextLl env s) := by
  cases hfirst : s.sendDataList with
  | nil =>
    rw [sendNextLl, hfirst]
    exact h
  | cons i rest =>
    by_cases hlockLl : s.lockLl = true
    · rw [sendNextLl, hfirst]
      dsimp only
      rw [if_pos hlockLl]
      exact h
    · have hunlocked : s.lockLl = false := by simpa using hlockLl
      have howed : s.owedRadio = [] := hok hunlocked (by rw [hfirst]; exact List.cons_ne_nil _ _)
      obtain ⟨mem, heq, -, hfb, -⟩ := handed_eq s i
      rw [sendNextLl_cons env hfirst hunlocked, heq]
      split
      · refine ⟨fun fb popped st hmem => h.results fb popped st
          (List.mem_of_ne_of_mem (by simp) hmem), fun _ => ⟨i, rest, hfirst, ?_⟩⟩
        simp only [log, howed, List.nil_append, idOf, hfb]
      · refine attributed_sendDataCallbackFunc env txFail false none h.results (fun _ hnil => ?_)
          fun _ hf => by cases hf
        exact List.cons_ne_nil _ _ (hfirst.symm.trans hnil)

theorem attributed_step (s : SendDataAppl) (e : SendInput) (hok : Answered s e) (hserved : Served s)
    (h : Attributed s) : Attributed (step env s e) := by
  have hself : ∀ t : SendDataAppl, t.lockLl = s.lockLl → t.sendDataList = s.sendDataList →
      t.owedRadio = s.owedRadio → t.mem = s.mem → t.out = s.out → Attributed t := by
    intro t hlockLl hlist howed hmem hout
    refine h.keeps (.of_eq hlockLl hlist howed (fun i _ => by rw [idOf, hmem, idOf]) ?_)
    rw [hout]
    exact fun _ _ _ hmem => hmem
  have halloc : ∀ i ∈ s.sendDataList, s.allocated i = true := fun i hi =>
    hserved.alloc i (List.mem_append_right _ hi)
  have hnonempty : s.lockLl = true → s.sendDataList ≠ [] := by
    intro hl
    obtain ⟨i, rest, hfirst, -⟩ := hserved.head hl
    rw [hfirst]
    exact List.cons_ne_nil _ _
  cases e with
  | sendDataAppl p data len => exact h.keeps (keepsFirst_zwSendDataAppl env p data len hserved.toShape)
  | abort handle => exact h.keeps (keepsFirst_zwSendDataApplAbort handle)
  | sendData p data len => exact h.keeps (keepsFirst_sendData env p data len .layer halloc)
  | layerDone n status report =>
    simp only [step]
    split
    · rename_i i _
      have hsame : Attributed { s with owedAppl := s.owedAppl.eraseIdx n } := hself _ rfl rfl rfl rfl rfl
      exact hsame.keeps (keepsFirst_runCallback env _ (.callbackEx i) status report)
    · exact h
  | radioDone n status report =>
    simp only [step]
    split
    · rename_i fb howed
      refine attributed_sendDataCallbackFunc env status report (some fb) h.results hnonempty ?_
      intro fb' hfb hl i rest hfirst
      obtain ⟨j, rest', hfirst', hone⟩ := h.owed hl
      rw [show s.sendDataList = i :: rest from hfirst] at hfirst'
      rw [hone] at howed
      injection hfirst' with hij
      have hmem : fb ∈ [s.idOf j] := List.mem_of_getElem? howed
      rw [← Option.some.inj hfb, List.mem_singleton.mp hmem, hij]
      rfl
    · exact h
  | discard i => exact h.keeps (keepsFirst_doDiscardTimeoutMemb env i hserved.toShape)
  | emergencyExpires =>
    simp only [step]
    split
    · exact hself _ rfl rfl rfl rfl rfl
    · exact h
  | backoffExpires =>
    simp only [step]
    split
    · exact hself _ rfl rfl rfl rfl rfl
    · exact h
  | otherEvents n =>
    simp only [step]
    split
    · exact hself _ rfl rfl rfl rfl rfl
    · exact h
  | frameRx snode =>
    simp only [step, frameRxNotify]
    split
    · exact hself _ rfl rfl rfl rfl rfl
    · exact h
  | deliver n =>
    simp only [step]
    split
    · rename_i e hn
      have hsame : Attributed { s with posted := s.posted.eraseIdx n } := hself _ rfl rfl rfl rfl rfl
      cases e with
      | emergencyTimer =>
        exact attributed_sendDataCallbackFunc env txFail false none h.results hnonempty fun _ hf => by cases hf
      | backoffTimer => exact hself _ rfl rfl rfl rfl rfl
      | sendNext =>
        simp only [process]
        split
        · exact hsame.keeps (keepsFirst_sendFirst env halloc)
        · exact hsame
      | sendNextLl => exact attributed_sendNextLl env hsame (hok hn)
    · exact h

/-! ### Delivery -/

/-- No layer owes a callback, no event is posted and no timer of the process runs. -/
def Idle (s : SendDataAppl) : Prop :=
  s.owedAppl = [] ∧ s.posted = [] ∧ s.emergencyTimer = false ∧ s.backoffTimer = false

structure Delivered (s : SendDataAppl) : Prop where
  once : ∀ fb ∈ acceptedIds s.out, completions s.out fb ≤ 1
  served : Idle s → ∀ fb ∈ acceptedIds s.out, completions s.out fb = 1
  order : (acceptedIds s.out).Nodup ∧ (startedIds s.out).Sublist (acceptedIds s.out)
  owner : ∀ i ∈ s.tokens, s.lock = true ∧ s.currentSession = some i
  results : ∀ fb popped status, .result fb popped status ∈ s.out → fb = popped

theorem Served.live_of_idle (h : Served s) (hkept : s.lost = false) (hidle : Idle s) : s.live = [] := by
  obtain ⟨howed, hposted, hemergency, hbackoff⟩ := hidle
  have hlockLl : s.lockLl = false := by
    by_contra hl
    rcases h.inFlight (by simpa using hl) with he | he
    · exact absurd (he.symm.trans hemergency) (by decide)
    · rw [hposted] at he
      cases he
  have hlist : s.sendDataList = [] := by
    by_contra hne
    rcases h.wakeLl hkept hne with hl | hl
    · exact absurd (hl.symm.trans hlockLl) (by decide)
    · rw [hposted] at hl
      cases hl
  have hlock : s.lock = false := by
    by_contra hl
    have hl : s.lock = true := by simpa using hl
    obtain ⟨i, hcur⟩ := h.current hl
    have hwaited := h.waited
    rw [Waited, tokens, howed, hlist, hl, hcur] at hwaited
    cases hwaited
  rw [live_of_unlock hlock]
  by_contra hne
  rcases h.wake hkept hne with hl | hb | hs | hb
  · exact absurd (hl.symm.trans hlock) (by decide)
  · exact absurd (hb.symm.trans hbackoff) (by decide)
  · rw [hposted] at hs
    cases hs
  · rw [hposted] at hb
    cases hb

theorem Served.delivered (h : Served s) (hkept : s.lost = false) (hattr : Attributed s) : Delivered s where
  once := by
    intro fb hfb
    rcases h.ledger.settled fb hfb with hlive | hdone
    · rw [h.ledger.pending fb hlive]
      exact Nat.zero_le 1
    · exact hdone.le
  served := by
    intro hidle fb hfb
    rcases h.ledger.settled fb hfb with hlive | hdone
    · rw [h.live_of_idle hkept hidle] at hlive
      cases hlive
    · exact hdone
  order := ⟨h.ledger.queued.imp Nat.ne_of_gt, h.ledger.startedIds_sublist⟩
  owner := by
    intro i hi
    rw [h.waited] at hi
    split at hi
    · rename_i hlock
      exact ⟨hlock, Option.mem_toList.mp hi⟩
    · cases hi
  results := hattr.results

/-- In every run in which the events that are posted find room and no frame is given to the radio while
it owes a callback, the sessions of the application are delivered. -/
theorem sessions_delivered (env : SendEnv) (inputs : List SendInput)
    (hok : Machine.Admissible (step env) Orderly init inputs) : Delivered (run env init inputs) := by
  have hinit : Attributed init := by
    refine ⟨fun fb popped status hmem => ?_, fun hl => ?_⟩
    · cases hmem
    · cases hl
  obtain ⟨hserved, hkept, hattr⟩ := @Machine.run_invariant_of_admissible SendDataAppl SendInput
    (step env) (fun s => Served s ∧ s.lost = false ∧ Attributed s) Orderly
    (fun s e hok h => ⟨served_step env s e h.1, (lost_step env s e hok.2).trans h.2.1,
      attributed_step env s e hok.1 h.1 h.2.2⟩) init inputs hok ⟨served_init, rfl, hinit⟩
  exact hserved.delivered hkept hattr

instance decidableAnswered (s : SendDataAppl) : (e : SendInput) → Decidable (Answered s e)
  | .deliver n => inferInstanceAs (Decidable (s.posted[n]? = some .sendNextLl → s.lockLl = false →
      s.sendDataList ≠ [] → s.owedRadio = []))
  | .sendDataAppl .. | .abort _ | .sendData .. | .layerDone .. | .radioDone .. | .discard _
  | .emergencyExpires | .backoffExpires | .otherEvents _ | .frameRx _ => .isTrue trivial

instance decidableOrderly (s : SendDataAppl) (e : SendInput) : Decidable (Orderly s e) :=
  inferInstanceAs (Decidable (_ ∧ _))

theorem sampleSendAppl_delivered :
    completions (run sampleSendEnv init [sampleSendAppl, .deliver 0, .deliver 0, .radioDone 0 txOk true,
      .deliver 0, .deliver 0]).out 0 = 1 := by
  have hdelivered := sessions_delivered sampleSendEnv [sampleSendAppl, .deliver 0, .deliver 0,
    .radioDone 0 txOk true, .deliver 0, .deliver 0] (by decide)
  exact hdelivered.served ⟨by decide, by decide, by decide, by decide⟩ 0 (by decide)

def lateResult : List SendInput :=
  [sampleSendAppl, sampleSendAppl, .deliver 0, .deliver 1, .emergencyExpires, .deliver 1, .deliver 0,
    .deliver 1, .radioDone 0 txOk true]

theorem lateResult_not_delivered : ¬ Delivered (run sampleSendEnv init lateResult) := by
  intro h
  have hfb := h.results 2 3 txOk (by decide)
  exact absurd hfb (by decide)

/-- The event of the session finds the queue full. -/
def fullQueue : List SendInput :=
  [.otherEvents 32, sampleSendAppl, .otherEvents 0]

example : Idle (run sampleSendEnv init fullQueue) ∧ completions (run sampleSendEnv init fullQueue).out 0 = 0 :=
  ⟨⟨by decide, by decide, by decide, by decide⟩, by decide⟩

end SendDataAppl

end ZipGateway

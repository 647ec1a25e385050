import ZipGateway.SendData.Ledger
import ZipGateway.SendData.Shape

/-!
# What every step of the send queues keeps

`Sound` says where the sessions are, that the log agrees with them, and that something is going to
happen as long as one is left and no event has been lost. There is one lemma for each kind of change;
the functions of the module are put together from these.
-/

namespace ZipGateway

open Function (update update_of_ne update_self)

namespace SendDataAppl

def idOf (s : SendDataAppl) (i : SendBlock) : Nat := (s.mem i).fb.id

structure Sound (s : SendDataAppl) : Prop extends Shape s where
  below : ∀ i ∈ s.live ++ s.sendDataList, s.idOf i < s.nBuffers
  ledger : SendLedger (s.live.map s.idOf) (s.sessionList.map s.idOf) s.nBuffers s.out
  wake : s.lost = false → s.sessionList ≠ [] → s.lock = true ∨ s.backoffTimer = true ∨
    .sendNext ∈ s.posted ∨ .backoffTimer ∈ s.posted
  inFlight : s.lockLl = true → s.emergencyTimer = true ∨ .emergencyTimer ∈ s.posted

def WakeLl (s : SendDataAppl) : Prop :=
  s.lost = false → s.sendDataList ≠ [] → s.lockLl = true ∨ .sendNextLl ∈ s.posted

theorem live_of_lock {s : SendDataAppl} {i : SendBlock} (hlock : s.lock = true)
    (hcur : s.currentSession = some i) : s.live = i :: s.sessionList := by
  rw [live, hlock, hcur]
  rfl

theorem live_of_unlock {s : SendDataAppl} (hlock : s.lock = false) : s.live = s.sessionList := by
  rw [live, hlock]
  rfl

section Steps

variable {s t : SendDataAppl} {i : SendBlock}

theorem Sound.congr (h : Sound s) (halloc : ∀ i, s.allocated i = true → t.allocated i = true)
    (hmem : t.mem = s.mem) (hlist : t.sessionList = s.sessionList)
    (hll : t.sendDataList = s.sendDataList) (hlock : t.lock = s.lock)
    (hlockLl : t.lockLl = s.lockLl)
    (hcur : t.lock = true → t.currentSession = s.currentSession)
    (hn : t.nBuffers = s.nBuffers) (hout : t.out = s.out)
    (hlost : t.lost = false → s.lost = false)
    (hwake : t.lost = false → t.lock = false → t.sessionList ≠ [] →
      s.backoffTimer = true ∨ .sendNext ∈ s.posted ∨ .backoffTimer ∈ s.posted →
      t.backoffTimer = true ∨ .sendNext ∈ t.posted ∨ .backoffTimer ∈ t.posted)
    (hflight : t.lockLl = true → s.emergencyTimer = true ∨ .emergencyTimer ∈ s.posted →
      t.emergencyTimer = true ∨ .emergencyTimer ∈ t.posted) : Sound t := by
  have hlive : t.live = s.live := by
    rw [live, live, hlist]
    cases hl : t.lock with
    | false => rw [← hlock, hl]; rfl
    | true => rw [← hlock, hl, hcur hl]
  have hid : t.idOf = s.idOf := by
    funext j
    rw [idOf, hmem, idOf]
  refine ⟨⟨?_, ?_, ?_, ?_, ?_⟩, ?_, ?_, ?_, ?_⟩
  · rw [hlive, hll]
    exact h.nodup
  · rw [hlive, hll]
    exact fun j hj => halloc j (h.alloc j hj)
  · intro hl
    rw [hcur hl]
    exact h.current (hlock.symm.trans hl)
  · rw [hmem, hll]
    exact h.timers
  · rw [hlockLl, hll, hmem]
    exact h.head
  · rw [hlive, hll, hid, hn]
    exact h.below
  · rw [hlive, hlist, hid, hn, hout]
    exact h.ledger
  · intro hkept hne
    cases hl : t.lock with
    | true => exact .inl rfl
    | false =>
      rcases h.wake (hlost hkept) (hlist ▸ hne) with hsl | hrest
      · exact absurd (hsl.symm.trans (hlock.symm.trans hl)) (by decide)
      · exact .inr (hwake hkept hl hne hrest)
  · exact fun hl => hflight hl (h.inFlight (hlockLl.symm.trans hl))

theorem Sound.post (h : Sound s) (e : SendEvent) : Sound (s.post e) := by
  refine h.congr (fun _ ha => ha) rfl rfl rfl rfl rfl (fun _ => rfl) rfl rfl lost_of_post ?_ ?_
  · rintro - - - (hb | hn | hb)
    · exact .inl hb
    · exact .inr (.inl (mem_post_of_mem hn))
    · exact .inr (.inr (mem_post_of_mem hb))
  · rintro - (he | he)
    · exact .inl he
    · exact .inr (mem_post_of_mem he)

theorem Sound.logOther (h : Sound s) {o : SendOut} (ho : o.ofSession = false) : Sound (s.log o) :=
  ⟨⟨h.nodup, h.alloc, h.current, h.timers, h.head⟩, h.below, h.ledger.logOther ho, h.wake, h.inFlight⟩

theorem Sound.retire (h : Sound s) (hi : i ∈ s.live) {status : UInt8}
    (hlive : t.live = s.live.erase i) (hlist : ∀ j ∈ t.sessionList, j ∈ s.sessionList)
    (halloc : t.allocated = update s.allocated i false) (hmem : t.mem = s.mem)
    (hll : t.sendDataList = s.sendDataList)
    (hcur : t.lock = true → s.lock = true ∧ t.currentSession = s.currentSession)
    (hlockLl : t.lockLl = s.lockLl) (hn : t.nBuffers = s.nBuffers)
    (hout : t.out = .completed (s.idOf i) status :: s.out)
    (hwake : t.lost = false → t.lock = true ∨ t.backoffTimer = true ∨ .sendNext ∈ t.posted ∨ .backoffTimer ∈ t.posted)
    (hflight : s.emergencyTimer = true ∨ .emergencyTimer ∈ s.posted →
      t.emergencyTimer = true ∨ .emergencyTimer ∈ t.posted) : Sound t := by
  have hdisj := List.nodup_append.mp h.nodup
  have hid : t.idOf = s.idOf := by
    funext j
    rw [idOf, hmem, idOf]
  have hsub : (t.live ++ t.sendDataList).Sublist (s.live ++ s.sendDataList) := by
    rw [hlive, hll]
    exact List.Sublist.append_right List.erase_sublist _
  have hnot : i ∉ t.live ++ t.sendDataList := by
    rw [hlive, hll]
    intro hmem
    rcases List.mem_append.mp hmem with hmem | hmem
    · exact hdisj.1.not_mem_erase hmem
    · exact hdisj.2.2 i hi i hmem rfl
  refine ⟨⟨h.nodup.sublist hsub, ?_, ?_, ?_, ?_⟩, ?_, ?_, ?_, ?_⟩
  · intro j hj
    have hji : j ≠ i := by
      rintro rfl
      exact hnot hj
    rw [halloc, update_of_ne hji]
    exact h.alloc j (hsub.subset hj)
  · intro hl
    rw [(hcur hl).2]
    exact h.current (hcur hl).1
  · rw [hmem, hll]
    exact h.timers
  · rw [hlockLl, hll, hmem]
    exact h.head
  · rw [hid, hn]
    exact fun j hj => h.below j (hsub.subset hj)
  · rw [hlive, hid, hn, hout]
    refine h.ledger.complete ((List.perm_cons_erase hi).map _) (List.erase_sublist.map _) ?_ status
    intro w hw
    obtain ⟨j, hj, rfl⟩ := List.mem_map.mp hw
    exact List.mem_map_of_mem (hlist j hj)
  · exact fun hkept _ => hwake hkept
  · rw [hlockLl]
    exact fun hl => hflight (h.inFlight hl)

theorem Sound.begin {rest : List SendBlock} (h : Sound s) (hunlock : s.lock = false)
    (hfirst : s.sessionList = i :: rest) (hlist : t.sessionList = rest) (hlock : t.lock = true)
    (hcur : t.currentSession = some i) (halloc : t.allocated = s.allocated) (hmem : t.mem = s.mem)
    (hll : t.sendDataList = s.sendDataList) (hlockLl : t.lockLl = s.lockLl)
    (hn : t.nBuffers = s.nBuffers) (hout : t.out = .started (s.idOf i) :: s.out)
    (hflight : s.emergencyTimer = true ∨ .emergencyTimer ∈ s.posted →
      t.emergencyTimer = true ∨ .emergencyTimer ∈ t.posted) : Sound t := by
  have hslive : s.live = i :: rest := (live_of_unlock hunlock).trans hfirst
  have hlive : t.live = s.live := by rw [live_of_lock hlock hcur, hlist, hslive]
  have hid : t.idOf = s.idOf := by
    funext j
    rw [idOf, hmem, idOf]
  refine ⟨⟨?_, ?_, fun _ => ⟨i, hcur⟩, ?_, ?_⟩, ?_, ?_, fun _ _ => .inl hlock, ?_⟩
  · rw [hlive, hll]
    exact h.nodup
  · rw [hlive, hll, halloc]
    exact h.alloc
  · rw [hmem, hll]
    exact h.timers
  · rw [hlockLl, hll, hmem]
    exact h.head
  · rw [hlive, hll, hid, hn]
    exact h.below
  · have hledger := h.ledger
    rw [hfirst, List.map_cons] at hledger
    rw [hlive, hlist, hid, hn, hout]
    exact hledger.start (by rw [hslive, List.map_cons])
  · rw [hlockLl]
    exact fun hl => hflight (h.inFlight hl)

/-! ### New blocks -/

section New

variable {x : SendDataApplSession}

theorem Shape.mem_of_new (h : Shape s) (hfree : s.allocated i = false) (hmem : t.mem = update s.mem i x) :
    ∀ j ∈ s.live ++ s.sendDataList, t.mem j = s.mem j := by
  intro j hj
  rw [hmem, update_of_ne]
  rintro rfl
  exact h.not_mem hfree hj

theorem Sound.blocks_of_new (h : Sound s) (hfree : s.allocated i = false)
    (hid : x.fb.id = s.nBuffers) (hmem : t.mem = update s.mem i x)
    (hperm : (t.live ++ t.sendDataList).Perm (i :: (s.live ++ s.sendDataList)))
    (halloc : t.allocated = update s.allocated i true) (hn : t.nBuffers = s.nBuffers + 1) :
    (t.live ++ t.sendDataList).Nodup ∧ (∀ j ∈ t.live ++ t.sendDataList, t.allocated j = true) ∧
      (∀ j ∈ t.live ++ t.sendDataList, t.idOf j < t.nBuffers) := by
  have hnot := h.toShape.not_mem hfree
  refine ⟨hperm.nodup_iff.mpr (List.nodup_cons.mpr ⟨hnot, h.nodup⟩), ?_, ?_⟩
  · intro j hj
    rw [halloc]
    rcases List.mem_cons.mp (hperm.mem_iff.mp hj) with rfl | hj
    · rw [update_self]
    · by_cases hji : j = i
      · rw [hji, update_self]
      · rw [update_of_ne hji]
        exact h.alloc j hj
  · intro j hj
    rw [hn]
    rcases List.mem_cons.mp (hperm.mem_iff.mp hj) with rfl | hj
    · rw [idOf, hmem, update_self, hid]
      exact Nat.lt_succ_self _
    · rw [idOf, h.toShape.mem_of_new hfree hmem j hj]
      exact Nat.lt_succ_of_lt (h.below j hj)

theorem Sound.accept (h : Sound s) (hfree : s.allocated i = false) (hid : x.fb.id = s.nBuffers)
    (hmem : t.mem = update s.mem i x) (htimer : x.discardTimer = false)
    (halloc : t.allocated = update s.allocated i true)
    (hlist : t.sessionList = s.sessionList ++ [i]) (hll : t.sendDataList = s.sendDataList)
    (hlock : t.lock = s.lock) (hcur : t.currentSession = s.currentSession)
    (hlockLl : t.lockLl = s.lockLl) (hn : t.nBuffers = s.nBuffers + 1) {handle : Nat}
    (hout : t.out = .accepted s.nBuffers handle :: s.out)
    (hemergency : t.emergencyTimer = s.emergencyTimer)
    (hposted : ∀ e ∈ s.posted, e ∈ t.posted) (hnew : t.lost = false → .sendNext ∈ t.posted) :
    Sound t := by
  have hlive : t.live = s.live ++ [i] := by
    rw [live, live, hlock, hcur, hlist, List.append_assoc]
  have hperm : (t.live ++ t.sendDataList).Perm (i :: (s.live ++ s.sendDataList)) := by
    rw [hlive, hll, List.append_assoc]
    exact List.perm_middle
  have hsame := h.toShape.mem_of_new hfree hmem
  obtain ⟨hnodup, halloc', hbelow⟩ := h.blocks_of_new hfree hid hmem hperm halloc hn
  have hids : ∀ l : List SendBlock, (∀ j ∈ l, j ∈ s.live) → (l ++ [i]).map t.idOf = l.map s.idOf ++ [s.nBuffers] := by
    intro l hl
    rw [List.map_append, List.map_congr_left fun j hj => ?_]
    · rw [List.map_singleton, idOf, hmem, update_self, hid]
    · rw [idOf, hsame j (List.mem_append_left _ (hl j hj)), idOf]
  refine ⟨⟨hnodup, halloc', ?_, ?_, ?_⟩, hbelow, ?_, ?_, ?_⟩
  · rw [hlock, hcur]
    exact h.current
  · rw [hll]
    intro j hj
    by_cases hji : j = i
    · rw [hji, hmem, update_self, htimer] at hj
      exact absurd hj (by decide)
    · rw [hmem, update_of_ne hji] at hj ⊢
      exact h.timers j hj
  · rw [hlockLl, hll]
    intro hl
    obtain ⟨j, rest, hrest, hjtimer⟩ := h.head hl
    refine ⟨j, rest, hrest, ?_⟩
    rw [hsame j (List.mem_append_right _ (by rw [hrest]; exact List.mem_cons_self))]
    exact hjtimer
  · rw [hlive, hlist, hn, hout, hids _ fun _ hj => hj, hids _ fun _ hj => List.mem_append_right _ hj]
    exact h.ledger.accept handle
  · exact fun hkept _ => .inr (.inr (.inl (hnew hkept)))
  · rw [hlockLl, hemergency]
    exact fun hl => (h.inFlight hl).imp_right (hposted _)

theorem Sound.enqueueLl (h : Sound s) (hfree : s.allocated i = false) (hid : x.fb.id = s.nBuffers)
    (hmem : t.mem = update s.mem i x)
    (htimer : x.discardTimer = true → x.fb.param.discardTimeout ≠ 0)
    (halloc : t.allocated = update s.allocated i true)
    (hlist : t.sessionList = s.sessionList) (hll : t.sendDataList = s.sendDataList ++ [i])
    (hlock : t.lock = s.lock) (hcur : t.currentSession = s.currentSession)
    (hlockLl : t.lockLl = s.lockLl) (hn : t.nBuffers = s.nBuffers + 1) (hout : t.out = s.out)
    (hbackoff : t.backoffTimer = s.backoffTimer) (hemergency : t.emergencyTimer = s.emergencyTimer)
    (hposted : ∀ e ∈ s.posted, e ∈ t.posted) (hlost : t.lost = false → s.lost = false) :
    Sound t := by
  have hlive : t.live = s.live := by rw [live, live, hlock, hcur, hlist]
  have hperm : (t.live ++ t.sendDataList).Perm (i :: (s.live ++ s.sendDataList)) := by
    rw [hlive, hll, ← List.append_assoc]
    exact List.perm_append_singleton _ _
  have hsame := h.toShape.mem_of_new hfree hmem
  obtain ⟨hnodup, halloc', hbelow⟩ := h.blocks_of_new hfree hid hmem hperm halloc hn
  have hids : ∀ l : List SendBlock, (∀ j ∈ l, j ∈ s.live) → l.map t.idOf = l.map s.idOf := by
    intro l hl
    refine List.map_congr_left fun j hj => ?_
    rw [idOf, hsame j (List.mem_append_left _ (hl j hj)), idOf]
  refine ⟨⟨hnodup, halloc', ?_, ?_, ?_⟩, hbelow, ?_, ?_, ?_⟩
  · rw [hlock, hcur]
    exact h.current
  · rw [hll]
    intro j hj
    by_cases hji : j = i
    · rw [hji, hmem, update_self] at hj ⊢
      exact ⟨List.mem_append_right _ List.mem_cons_self, htimer hj⟩
    · rw [hmem, update_of_ne hji] at hj ⊢
      exact ⟨List.mem_append_left _ (h.timers j hj).1, (h.timers j hj).2⟩
  · rw [hlockLl]
    intro hl
    obtain ⟨j, rest, hrest, hjtimer⟩ := h.head hl
    refine ⟨j, rest ++ [i], by rw [hll, hrest, List.cons_append], ?_⟩
    rw [hsame j (List.mem_append_right _ (by rw [hrest]; exact List.mem_cons_self))]
    exact hjtimer
  · rw [hlive, hlist, hn, hout, hids _ fun _ hj => hj, hids _ fun _ hj => List.mem_append_right _ hj]
    exact h.ledger.mono (Nat.le_succ _)
  · rw [hlist, hlock, hbackoff]
    intro hkept hne
    rcases h.wake (hlost hkept) hne with hl | hb | hs | hb
    · exact .inl hl
    · exact .inr (.inl hb)
    · exact .inr (.inr (.inl (hposted _ hs)))
    · exact .inr (.inr (.inr (hposted _ hb)))
  · rw [hlockLl, hemergency]
    exact fun hl => (h.inFlight hl).imp_right (hposted _)

end New

/-! ### Physical frames -/

theorem Sound.dropLl (h : Sound s) (hi : i ∈ s.sendDataList) (hll : t.sendDataList = s.sendDataList.erase i)
    (halloc : t.allocated = update s.allocated i false)
    (hmem : ∀ j, j ≠ i → t.mem j = s.mem j) (htimer : (t.mem i).discardTimer = false)
    (hlist : t.sessionList = s.sessionList) (hlock : t.lock = s.lock)
    (hcur : t.currentSession = s.currentSession) (hn : t.nBuffers = s.nBuffers)
    (hout : t.out = s.out) (hposted : t.posted = s.posted)
    (hlost : t.lost = s.lost) (hbackoff : t.backoffTimer = s.backoffTimer)
    (hlockLl : t.lockLl = true → s.lockLl = true ∧ s.sendDataList.head? ≠ some i ∧
      t.emergencyTimer = s.emergencyTimer) : Sound t := by
  have hlive : t.live = s.live := by rw [live, live, hlock, hcur, hlist]
  have hdisj := List.nodup_append.mp h.nodup
  have hnotLive : i ∉ s.live := fun hmem => hdisj.2.2 i hmem i hi rfl
  have hsub : (t.live ++ t.sendDataList).Sublist (s.live ++ s.sendDataList) := by
    rw [hlive, hll]
    exact List.Sublist.append_left List.erase_sublist _
  have hne : ∀ j ∈ t.live ++ t.sendDataList, j ≠ i := by
    rintro j hj rfl
    rw [hlive, hll] at hj
    rcases List.mem_append.mp hj with hj | hj
    · exact hnotLive hj
    · exact hdisj.2.1.not_mem_erase hj
  have hids : ∀ l : List SendBlock, (∀ j ∈ l, j ∈ s.live) → l.map t.idOf = l.map s.idOf := by
    intro l hl
    refine List.map_congr_left fun j hj => ?_
    rw [idOf, hmem, idOf]
    rintro rfl
    exact hnotLive (hl j hj)
  refine ⟨⟨h.nodup.sublist hsub, ?_, ?_, ?_, ?_⟩, ?_, ?_, ?_, ?_⟩
  · intro j hj
    rw [halloc, update_of_ne (hne j hj)]
    exact h.alloc j (hsub.subset hj)
  · rw [hlock, hcur]
    exact h.current
  · intro j hj
    have hji : j ≠ i := by
      rintro rfl
      exact absurd (hj.symm.trans htimer) (by decide)
    rw [hmem j hji] at hj ⊢
    rw [hll]
    exact ⟨(List.mem_erase_of_ne hji).mpr (h.timers j hj).1, (h.timers j hj).2⟩
  · intro hl
    obtain ⟨hsl, hhead, -⟩ := hlockLl hl
    obtain ⟨j, rest, hrest, hjtimer⟩ := h.head hsl
    have hji : j ≠ i := by
      rintro rfl
      rw [hrest] at hhead
      exact hhead rfl
    refine ⟨j, rest.erase i, ?_, by rw [hmem j hji]; exact hjtimer⟩
    rw [hll, hrest, List.erase_cons_tail (by simpa using hji)]
  · intro j hj
    rw [idOf, hmem j (hne j hj), hn]
    exact h.below j (hsub.subset hj)
  · rw [hlive, hlist, hn, hout, hids _ fun _ hj => hj, hids _ fun _ hj => List.mem_append_right _ hj]
    exact h.ledger
  · rw [hlost, hlist, hlock, hbackoff, hposted]
    exact h.wake
  · intro hl
    obtain ⟨hsl, -, hemergency⟩ := hlockLl hl
    rw [hemergency, hposted]
    exact h.inFlight hsl

theorem Sound.startLl {rest : List SendBlock} (h : Sound s) (hfirst : s.sendDataList = i :: rest)
    (hmem : ∀ j, j ≠ i → t.mem j = s.mem j) (hfb : (t.mem i).fb = (s.mem i).fb)
    (htimer : (t.mem i).discardTimer = false) (halloc : t.allocated = s.allocated)
    (hlist : t.sessionList = s.sessionList) (hll : t.sendDataList = s.sendDataList)
    (hlock : t.lock = s.lock) (hcur : t.currentSession = s.currentSession)
    (hn : t.nBuffers = s.nBuffers) (hout : t.out = s.out) (hposted : t.posted = s.posted)
    (hlost : t.lost = s.lost) (hbackoff : t.backoffTimer = s.backoffTimer)
    (hemergency : t.emergencyTimer = true) : Sound t := by
  have hlive : t.live = s.live := by rw [live, live, hlock, hcur, hlist]
  have hid : t.idOf = s.idOf := by
    funext j
    by_cases hji : j = i
    · rw [hji, idOf, hfb, idOf]
    · rw [idOf, hmem j hji, idOf]
  refine ⟨⟨?_, ?_, ?_, ?_, ?_⟩, ?_, ?_, ?_, fun _ => .inl hemergency⟩
  · rw [hlive, hll]
    exact h.nodup
  · rw [hlive, hll, halloc]
    exact h.alloc
  · rw [hlock, hcur]
    exact h.current
  · intro j hj
    have hji : j ≠ i := by
      rintro rfl
      exact absurd (hj.symm.trans htimer) (by decide)
    rw [hmem j hji] at hj ⊢
    rw [hll]
    exact h.timers j hj
  · intro _
    exact ⟨i, rest, hll.trans hfirst, htimer⟩
  · rw [hlive, hll, hid, hn]
    exact h.below
  · rw [hlive, hlist, hid, hn, hout]
    exact h.ledger
  · rw [hlost, hlist, hlock, hbackoff, hposted]
    exact h.wake

end Steps

end SendDataAppl

end ZipGateway

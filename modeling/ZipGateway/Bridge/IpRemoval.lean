import Mathlib.Data.List.Count
import ZipGateway.Bridge.IpCompletion

/-!
# Bulk removal of associations

A removal marks the associations it picks and counts them, and then removes the first marked one until
the count is down. The marks are in the table and the count is not: a mark that is there already makes
the removal take an association that it did not pick, and leave one that it did. A removal command that
does not reach its node leaves marks and count behind; one that is refused completes the operation while
the rest is still going on.
-/

set_option maxRecDepth 8000

theorem List.countP_le_countP_iff {α : Type*} {p q : α → Bool} :
    ∀ {l : List α}, (∀ a ∈ l, p a → q a) → (l.countP q ≤ l.countP p ↔ ∀ a ∈ l, q a → p a)
  | [], _ => by simp
  | a :: l, h => by
      have hrest : ∀ b ∈ l, p b → q b := fun b hb => h b (List.mem_cons_of_mem a hb)
      have hmono : l.countP p ≤ l.countP q := List.countP_mono_left hrest
      rw [List.forall_mem_cons, ← List.countP_le_countP_iff hrest, List.countP_cons, List.countP_cons]
      have ha := h a List.mem_cons_self
      cases hq : q a with
      | false => simp [Bool.eq_false_iff.mpr fun hp => absurd (ha hp) (by simp [hq])]
      | true =>
        by_cases hp : p a = true
        · simp [hp]
        · rw [if_pos rfl, if_neg hp]
          exact iff_of_false (by omega) fun hboth => hp (hboth.1 rfl)

namespace ZipGateway.IpAssoc

def Out.isFailedRemoval : Out → Bool
  | .callback (.removal _) status =>
    status ≠ transmitCompleteOk ∧ status ≠ transmitCompleteNoAck
  | _ => false

variable {i : Block} {o : Out}

namespace State

def markedList (s : State) : List Block :=
  s.table.filter fun i => (s.mem i).markRemoval = 1

def Faultless (s : State) : Prop :=
  ∀ o ∈ s.out, o.isFault = false

variable {env : Env} {s t : State} {f : Frame}

theorem sendZipAck_cases (s : State) (status : UInt8) :
    s.sendZipAck status = s ∨ ∃ ok, s.sendZipAck status = s.put (.ack ok) := by
  unfold sendZipAck
  split_ifs
  · exact .inr ⟨true, rfl⟩
  · exact .inr ⟨false, rfl⟩
  · exact .inl rfl

/-! ### The marks -/

theorem picks_findAndMark (q q' : Selector) (s : State) (i : Block) :
    q.picks ((s.findAndMarkForRemoval q').mem i) = q.picks (s.mem i) := by
  unfold findAndMarkForRemoval
  dsimp only
  split_ifs <;> rfl

theorem marked_findAndMark (q : Selector) (s : State) :
    ∀ i ∈ s.table, q.picks (s.mem i) → ((s.findAndMarkForRemoval q).mem i).markRemoval = 1 := by
  intro i hi hpicks
  unfold findAndMarkForRemoval
  dsimp only
  rw [if_pos ⟨hi, hpicks⟩]

theorem picks_or_marked {q : Selector} (hmarked : ((s.findAndMarkForRemoval q).mem i).markRemoval = 1) :
    q.picks (s.mem i) ∨ (s.mem i).markRemoval = 1 := by
  by_cases hpicks : q.picks (s.mem i) = true
  · exact .inl hpicks
  · right
    have hkept : (s.findAndMarkForRemoval q).mem i = s.mem i := if_neg fun h => hpicks h.2
    rwa [hkept] at hmarked

theorem mark_kept (q : Selector) (hmarked : (s.mem i).markRemoval = 1) :
    ((s.findAndMarkForRemoval q).mem i).markRemoval = 1 := by
  unfold findAndMarkForRemoval
  dsimp only
  split_ifs
  · rfl
  · exact hmarked

theorem marked_le_length (q : Selector) (s : State) :
    (s.findAndMarkForRemoval q).marked ≤ (s.findAndMarkForRemoval q).markedList.length := by
  unfold markedList
  rw [← List.countP_eq_length_filter]
  apply List.countP_mono_left
  intro i hi hpicks
  simpa using marked_findAndMark q s i hi hpicks

theorem length_le_marked_iff (q : Selector) (s : State) :
    (s.findAndMarkForRemoval q).markedList.length ≤ (s.findAndMarkForRemoval q).marked ↔
      ∀ i ∈ s.table, (s.mem i).markRemoval = 1 → q.picks (s.mem i) := by
  have hlength : (s.findAndMarkForRemoval q).markedList.length =
      s.table.countP fun i => ((s.findAndMarkForRemoval q).mem i).markRemoval = 1 := by
    rw [List.countP_eq_length_filter]
    rfl
  have hiff := List.countP_le_countP_iff (l := s.table) (p := fun i => q.picks (s.mem i))
    (q := fun i => ((s.findAndMarkForRemoval q).mem i).markRemoval = 1)
    fun i hi hpicks => by simpa using marked_findAndMark q s i hi hpicks
  rw [hlength]
  refine hiff.trans ⟨?_, ?_⟩
  · intro h i hi hmarked
    exact h i hi (by simpa using mark_kept q hmarked)
  · intro h i hi hmarked
    exact (picks_or_marked (by simpa using hmarked)).elim id (h i hi)

/-! ### How far a removal has come -/

/-- The associations left after some marked ones were removed from `base`. -/
structure Remains (q : Selector) (base : State) (rest : List Block) (s : State) : Prop where
  contents : s.mem = base.mem
  list : s.markedList = rest
  marks : ∀ i ∈ s.table, q.picks (s.mem i) → (s.mem i).markRemoval = 1
  gone : ∀ i ∈ base.table, i ∉ s.table → i ∈ base.markedList
  sent : ∀ o ∈ s.out, o.isFailedRemoval = false
  picked : base.marked + rest.length ≤ (s.table.countP fun i => q.picks (base.mem i)) + base.markedList.length

/-- The count is what is left. If `more` says that more nodes are removed, it may also have been
cleared by that while the last association was on its way. -/
structure Midway (more : Prop) (q : Selector) (base : State) (rest : List Block) (left : Nat)
    (s : State) : Prop extends Remains q base rest s where
  marked : s.marked = left ∨ more ∧ left = 1 ∧ s.marked = 0

inductive RemoveStage (more : Prop) (q : Selector) (base s : State) : Prop
  | failed (hpending : s.pending = []) (hleft : s.markedList ≠ [])
      (hpicked : ∃ i ∈ s.table, q.picks (s.mem i)) (hok : s.SaysOk) (o : Out) (hmem : o ∈ s.out)
      (hfailed : o.isFailedRemoval)
  | sending (j : Nat) (i : Block) (rest : List Block) (hj : j < base.marked)
      (hi : base.markedList.drop j = i :: rest) (hpending : s.pending = [.removal i])
      (hmidway : Midway more q base (base.markedList.drop j) (base.marked - j) s)
  | removing (j : Nat) (hj : j < base.marked) (hpending : s.pending = [.virtualRemove])
      (hmidway : Midway more q base (base.markedList.drop (j + 1)) (base.marked - j) s)
  | done (hpending : s.pending = []) (hmarked : s.marked = 0) (hok : s.SaysOk)
      (hremains : Remains q base (base.markedList.drop base.marked) s)

section Removal

variable {more : Prop} {q : Selector} {base : State} {rest : List Block} {j left : Nat} {next : State → State}

theorem Remains.put (h : Remains q base rest s) (hsent : o.isFailedRemoval = false) :
    Remains q base rest (s.put o) where
  contents := h.contents
  list := h.list
  marks := h.marks
  gone := h.gone
  sent := by
    simp only [State.put, List.forall_mem_cons]
    exact ⟨hsent, h.sent⟩
  picked := h.picked

theorem Remains.congr (h : Remains q base rest s) (hmem : t.mem = s.mem)
    (htable : t.table = s.table) (hout : t.out = s.out) : Remains q base rest t where
  contents := hmem.trans h.contents
  list := by
    have hlist := h.list
    unfold markedList at *
    rwa [hmem, htable]
  marks := by
    rw [hmem, htable]
    exact h.marks
  gone := htable ▸ h.gone
  sent := hout ▸ h.sent
  picked := htable ▸ h.picked

theorem Remains.unlink (h : Remains q base (i :: rest) s) (hi : i ∈ base.markedList) :
    Remains q base rest (s.withTable (s.table.erase i)) where
  contents := h.contents
  list := by
    have hlist := h.list
    unfold markedList at *
    change (s.table.erase i).filter (fun j => (s.mem j).markRemoval = 1) = rest
    rw [← List.erase_filter, hlist, List.erase_cons_head]
  marks j hj := h.marks j (List.mem_of_mem_erase hj)
  gone j hj hgone := by
    by_cases hji : j = i
    · exact hji ▸ hi
    · exact h.gone j hj fun hmem => hgone ((List.mem_erase_of_ne hji).mpr hmem)
  sent := h.sent
  picked := by
    have hpicked := h.picked
    have herase := List.countP_erase (fun j => q.picks (base.mem j)) s.table i
    rw [List.length_cons] at hpicked
    simp only [withTable]
    split_ifs at herase <;> omega

theorem Midway.put (h : Midway more q base rest left s) (hsent : o.isFailedRemoval = false) :
    Midway more q base rest left (s.put o) where
  toRemains := h.toRemains.put hsent
  marked := h.marked

theorem Midway.sendZipAck (h : Midway more q base rest left s) (status : UInt8) :
    Midway more q base rest left (s.sendZipAck status) := by
  rcases s.sendZipAck_cases status with heq | ⟨ok, heq⟩
  · rwa [heq]
  · rw [heq]
    exact h.put rfl

theorem Midway.congr (h : Midway more q base rest left s) (hmem : t.mem = s.mem)
    (htable : t.table = s.table) (hmarked : t.marked = s.marked) (hout : t.out = s.out) :
    Midway more q base rest left t where
  toRemains := h.toRemains.congr hmem htable hout
  marked := by
    rw [hmarked]
    exact h.marked

theorem Midway.unlink (h : Midway more q base (i :: rest) left s) (hi : i ∈ base.markedList) :
    Midway more q base rest left (s.withTable (s.table.erase i)) where
  toRemains := h.toRemains.unlink hi
  marked := h.marked

namespace RemoveStage

theorem congr (h : RemoveStage more q base s) (hmem : t.mem = s.mem) (htable : t.table = s.table)
    (hmarked : t.marked = s.marked) (hout : t.out = s.out) (hpending : t.pending = s.pending) :
    RemoveStage more q base t := by
  cases h with
  | failed hp hleft hpicked hok o ho hfailed =>
    refine .failed (hpending.trans hp) ?_ ?_ (by rwa [SaysOk, hout]) o (hout ▸ ho) hfailed
    · unfold markedList at *
      rwa [hmem, htable]
    · rwa [hmem, htable]
  | sending j i rest hj hi hp hmidway =>
    exact .sending j i rest hj hi (hpending.trans hp) (hmidway.congr hmem htable hmarked hout)
  | removing j hj hp hmidway =>
    exact .removing j hj (hpending.trans hp) (hmidway.congr hmem htable hmarked hout)
  | done hp hm hok hr =>
    exact .done (hpending.trans hp) (hmarked.trans hm) (by rwa [SaysOk, hout]) (hr.congr hmem htable hout)

theorem put (h : RemoveStage more q base s) (hsent : o.isFailedRemoval = false) :
    RemoveStage more q base (s.put o) := by
  cases h with
  | failed hp hleft hpicked hok o' ho' hfailed =>
    exact .failed hp hleft hpicked ((saysOk_put o).mpr (.inr hok)) o' (List.mem_cons_of_mem o ho') hfailed
  | sending j i rest hj hi hp hmidway => exact .sending j i rest hj hi hp (hmidway.put hsent)
  | removing j hj hp hmidway => exact .removing j hj hp (hmidway.put hsent)
  | done hp hm hok hr => exact .done hp hm ((saysOk_put o).mpr (.inr hok)) (hr.put hsent)

theorem finishRemoval (h : Remains q base (base.markedList.drop base.marked) s)
    (hmarked : s.marked = 0) (hpending : s.pending = []) : RemoveStage more q base s.finishRemoval := by
  have hack : (s.sendZipAck transmitCompleteOk) = s.put (.ack true) := rfl
  unfold State.finishRemoval
  rw [hack]
  refine .done hpending hmarked ?_ (((h.put rfl).put rfl).put rfl)
  simp [reportSendCompleted, Out.isOk]

/-- A node without associations is removed while at most one of the marked ones is left. -/
theorem overtake (hmore : more) (h : RemoveStage more q base s) (hle : s.marked ≤ 1) (node : NodeId) :
    RemoveStage more q base (((s.withMarked 0).put (.nodeRemoved node 0)).put (.posted .virtNodeRemoveDone)) := by
  have hmarked {rest : List Block} {left : Nat} (hleft : 0 < left) (hm : Midway more q base rest left s) :
      Midway more q base rest left ((s.withMarked 0).put (.nodeRemoved node 0)) := by
    refine ⟨(hm.toRemains.congr (t := s.withMarked 0) rfl rfl rfl).put rfl, .inr ⟨hmore, ?_, rfl⟩⟩
    rcases hm.marked with heq | ⟨-, hone, -⟩
    · omega
    · exact hone
  apply RemoveStage.put _ rfl
  cases h with
  | failed hp hleft hpicked hok o ho hfailed =>
    exact .failed hp hleft hpicked ((saysOk_put _).mpr (.inr hok)) o (List.mem_cons_of_mem _ ho) hfailed
  | sending j i rest hj hi hp hmidway =>
    exact .sending j i rest hj hi hp (hmarked (Nat.sub_pos_of_lt hj) hmidway)
  | removing j hj hp hmidway => exact .removing j hj hp (hmarked (Nat.sub_pos_of_lt hj) hmidway)
  | done hp hm hok hr =>
    exact .done hp rfl ((saysOk_put _).mpr (.inr hok)) ((hr.congr (t := s.withMarked 0) rfl rfl rfl).put rfl)

def GoesOn (more : Prop) (q : Selector) (base : State) (j : Nat) (next : State → State) : Prop :=
  ∀ t : State, Midway more q base (base.markedList.drop (j + 1)) (base.marked - j) t → t.pending = [] →
    RemoveStage more q base (next t)

theorem removeWith (hj : j < base.marked) (hi : base.markedList.drop j = i :: rest)
    (hnext : GoesOn more q base j next) (h : Midway more q base (base.markedList.drop j) (base.marked - j) s)
    (hpending : s.pending = []) : RemoveStage more q base (s.removeWith env next i) := by
  have hrest : rest = base.markedList.drop (j + 1) := by
    rw [← List.tail_drop, hi, List.tail_cons]
  have hmem : i ∈ base.markedList := List.mem_of_mem_drop (hi ▸ List.mem_cons_self)
  have hlogged : Midway more q base (base.markedList.drop j) (base.marked - j)
      (s.rdRemoveNode env (s.mem i).type (s.mem i).virtualId) := h.put rfl
  rw [hi, hrest] at hlogged
  have hunlinked := hlogged.unlink hmem
  let t := (s.rdRemoveNode env (s.mem i).type (s.mem i).virtualId).withTable (s.table.erase i)
  change Midway more q base _ _ t at hunlinked
  have hfreed (u : State) (hu : RemoveStage more q base u) : RemoveStage more q base (u.membFree i) :=
    hu.congr rfl rfl rfl rfl rfl
  unfold State.removeWith
  dsimp only
  apply hfreed
  split_ifs
  · have hcounted : Midway more q base (base.markedList.drop (j + 1)) (base.marked - j)
        { t with nLearn := t.nLearn + 1 } := hunlinked.congr rfl rfl rfl rfl
    rcases setSlaveLearnMode_cases env t .virtualRemove false (s.mem i).virtualId with hasked | hasked
    · rw [hasked]
      refine .removing j hj (congrArg _ hpending) ?_
      exact (hcounted.put rfl).congr rfl rfl rfl rfl
    · rw [hasked]
      exact hnext _ (hcounted.put rfl) hpending
  · exact hnext t hunlinked hpending

theorem sendAssocRemoveWith (hj : j < base.marked) (hi : base.markedList.drop j = i :: rest)
    (hnext : GoesOn more q base j next) (h : Midway more q base (base.markedList.drop j) (base.marked - j) s)
    (hpending : s.pending = []) : RemoveStage more q base (s.sendAssocRemoveWith env next i) := by
  have hcounted : Midway more q base (base.markedList.drop j) (base.marked - j)
      { s with nSend := s.nSend + 1 } := h.congr rfl rfl rfl rfl
  unfold State.sendAssocRemoveWith
  dsimp only
  split_ifs
  · rcases sendDataAppl_cases env s (.removal i) (s.mem i).hanNodeid (s.removalFrame env (s.mem i)) with hsent | hsent
    · rw [hsent]
      refine .sending j i rest hj hi (congrArg _ hpending) ?_
      exact (hcounted.put rfl).congr rfl rfl rfl rfl
    · -- the removal goes on all the same, and the command is completed by the caller as well
      rw [hsent]
      let u := { s with nSend := s.nSend + 1 }.put (.sent (s.mem i).hanNodeid (s.removalFrame env (s.mem i)) false)
      have hnacked := (hcounted.put (o := .sent (s.mem i).hanNodeid
        (s.removalFrame env (s.mem i)) false) rfl).sendZipAck transmitCompleteError
      have hpending' : (u.sendZipAck transmitCompleteError).pending = [] := by
        rcases u.sendZipAck_cases transmitCompleteError with heq | ⟨ok, heq⟩ <;> rw [heq] <;>
          exact hpending
      exact (removeWith hj hi hnext hnacked hpending').put rfl
  · exact removeWith hj hi hnext h hpending

theorem removeAllMarkedWith (hj : j < base.marked) (hk : base.marked ≤ base.markedList.length)
    (hnext : GoesOn more q base j next)
    (h : Midway more q base (base.markedList.drop j) (base.marked - j) s) (hpending : s.pending = []) :
    RemoveStage more q base (s.removeAllMarkedWith env next) := by
  have hdrop : base.markedList.drop j = base.markedList[j] :: base.markedList.drop (j + 1) :=
    List.drop_eq_getElem_cons (by omega)
  have hfirst : s.firstMarked = some base.markedList[j] := by
    unfold firstMarked
    rw [← List.head?_filter]
    have hlist := h.list
    unfold markedList at hlist
    rw [hlist]
    exact congrArg List.head? hdrop
  unfold State.removeAllMarkedWith
  rw [hfirst]
  exact sendAssocRemoveWith hj hdrop hnext h hpending

theorem continueRemoval (env : Env) (hk : base.marked ≤ base.markedList.length) (n : Nat) :
    ∀ (j : Nat) (s : State), j < base.marked →
      Midway more q base (base.markedList.drop (j + 1)) (base.marked - j) s → s.pending = [] →
        s.marked < n → RemoveStage more q base (s.continueRemoval env n) := by
  induction n with
  | zero =>
    intro j s _ _ _ hlt
    omega
  | succ n ih =>
    intro j s hj h hpending hlt
    have hcounted : Remains q base (base.markedList.drop (j + 1)) (s.withMarked (s.marked - 1)) :=
      h.toRemains.congr rfl rfl rfl
    unfold State.continueRemoval
    dsimp only
    split_ifs with hmore
    · change s.marked - 1 ≠ 0 at hmore
      have hmarked : s.marked = base.marked - j := h.marked.resolve_right fun hmore => by omega
      have hleft : (s.withMarked (s.marked - 1)).marked = base.marked - (j + 1) := by
        simp only [withMarked]
        omega
      refine removeAllMarkedWith (by omega) hk ?_ ⟨hcounted, .inl hleft⟩ hpending
      intro t ht htpending
      refine ih (j + 1) t (by omega) ht htpending ?_
      rcases ht.marked with heq | ⟨-, -, hzero⟩ <;> omega
    · change ¬s.marked - 1 ≠ 0 at hmore
      have hlast : j + 1 = base.marked := by
        rcases h.marked with heq | ⟨-, hone, -⟩ <;> omega
      rw [hlast] at hcounted
      exact finishRemoval hcounted (not_not.mp hmore) hpending

theorem goesOn (env : Env) (hk : base.marked ≤ base.markedList.length) (hj : j < base.marked) :
    GoesOn more q base j (continueWithNext env) :=
  fun t ht hpending => continueRemoval env hk (t.marked + 1) j t hj ht hpending (Nat.lt_succ_self _)

theorem removeAllMarked (hj : j < base.marked) (hk : base.marked ≤ base.markedList.length)
    (h : Midway more q base (base.markedList.drop j) (base.marked - j) s) (hpending : s.pending = []) :
    RemoveStage more q base (s.removeAllMarked env) :=
  removeAllMarkedWith hj hk (goesOn env hk hj) h hpending

theorem removeCallback (hj : j < base.marked) (hk : base.marked ≤ base.markedList.length)
    (hi : base.markedList.drop j = i :: rest)
    (h : Midway more q base (base.markedList.drop j) (base.marked - j) s) (hpending : s.pending = [])
    (status : UInt8) :
    RemoveStage more q base ((s.put (.callback (.removal i) status)).removeCallback env i status) := by
  unfold State.removeCallback
  split_ifs with hok
  · have hlogged : Midway more q base (base.markedList.drop j) (base.marked - j)
        (s.put (.callback (.removal i) status)) := by
      refine h.put ?_
      rcases hok with rfl | rfl <;> rfl
    exact removeWith hj hi (goesOn env hk hj) hlogged hpending
  · let u := s.put (.callback (.removal i) status)
    have hleft : s.markedList ≠ [] := by
      rw [h.list, hi]
      exact List.cons_ne_nil i rest
    have hpicked : ∃ i ∈ s.table, q.picks (s.mem i) := by
      have hcount := h.picked
      rw [List.length_drop] at hcount
      have hpos : 0 < s.table.countP fun i => q.picks (base.mem i) := by omega
      rw [h.contents]
      exact List.countP_pos_iff.mp hpos
    have hfailed : (Out.callback (.removal i) status).isFailedRemoval := by
      rw [not_or] at hok
      simp [Out.isFailedRemoval, hok]
    change RemoveStage more q base ((u.sendZipAck transmitCompleteFail).reportSendCompleted transmitCompleteOk)
    have hcompleted : ((u.sendZipAck transmitCompleteFail).reportSendCompleted
        transmitCompleteOk).SaysOk := (saysOk_put _).mpr (.inl rfl)
    rcases u.sendZipAck_cases transmitCompleteFail with heq | ⟨ok, heq⟩
    · rw [heq] at hcompleted ⊢
      exact .failed hpending hleft hpicked hcompleted _ (List.mem_cons_of_mem _ List.mem_cons_self) hfailed
    · rw [heq] at hcompleted ⊢
      exact .failed hpending hleft hpicked hcompleted _
        (List.mem_cons_of_mem _ (List.mem_cons_of_mem _ List.mem_cons_self)) hfailed

theorem step (hk : base.marked ≤ base.markedList.length) (h : RemoveStage more q base s) {e : Event}
    (he : e.isCallback) : RemoveStage more q base (s.step env e) := by
  have hclock : RemoveStage more q base { s with clock := s.clock + 1 } := h.congr rfl rfl rfl rfl rfl
  cases h with
  | failed hpending | done hpending =>
    rw [step_of_not_pending env he (by simp [hpending])]
    exact hclock
  | sending j i rest hj hi hpending hmidway =>
    by_cases hawaited : e.awaited = some (.removal i)
    · cases e <;> cases hawaited
      next status =>
      let u : State := { s with clock := s.clock + 1, pending := s.pending.erase (.removal i) }
      have hstep : s.step env (.removalSent i status) =
          (u.put (.callback (.removal i) status)).removeCallback env i status :=
        if_pos (by simp [hpending])
      have hmidway' : Midway more q base (base.markedList.drop j) (base.marked - j) u :=
        hmidway.congr rfl rfl rfl rfl
      rw [hstep]
      exact removeCallback hj hk hi hmidway' (by simp [u, hpending]) status
    · rw [step_of_not_pending env he (by simpa [hpending] using hawaited)]
      exact hclock
  | removing j hj hpending hmidway =>
    by_cases hawaited : e.awaited = some .virtualRemove
    · cases e <;> cases hawaited
      let u : State := { s with clock := s.clock + 1, pending := s.pending.erase .virtualRemove }
      have hstep : s.step env .virtualRemoved = u.continueWithNext env :=
        if_pos (by simp [hpending])
      have hmidway' : Midway more q base (base.markedList.drop (j + 1)) (base.marked - j) u :=
        hmidway.congr rfl rfl rfl rfl
      rw [hstep]
      exact goesOn env hk hj u hmidway' (by simp [u, hpending])
    · rw [step_of_not_pending env he (by simpa [hpending] using hawaited)]
      exact hclock

theorem run (hk : base.marked ≤ base.markedList.length) {answers : List Event}
    (hcallbacks : ∀ e ∈ answers, e.isCallback) :
    ∀ {s : State}, RemoveStage more q base s → RemoveStage more q base (s.run env answers) := by
  induction answers with
  | nil =>
    intro s h
    exact h
  | cons e answers ih =>
    intro s h
    have he := hcallbacks e List.mem_cons_self
    have hrest : ∀ e' ∈ answers, e'.isCallback := fun e' he' =>
      hcallbacks e' (List.mem_cons_of_mem e he')
    exact ih hrest (h.step hk he)

theorem start (q : Selector) (hsent : ∀ o ∈ s.out, o.isFailedRemoval = false) :
    let base := s.findAndMarkForRemoval q
    Midway more q base base.markedList base.marked base := by
  intro base
  refine ⟨⟨rfl, rfl, ?_, ?_, hsent, ?_⟩, .inl rfl⟩
  · intro i hi hpicks
    rw [picks_findAndMark] at hpicks
    exact marked_findAndMark q s i hi hpicks
  · exact fun i hi hgone => absurd hi hgone
  · simp only [base, picks_findAndMark]
    exact le_rfl

theorem handleIpAssociationRemove (hpending : s.pending = [])
    (hsent : ∀ o ∈ s.out, o.isFailedRemoval = false) (hmarked : s.marked = 0) :
    RemoveStage more f.selector (s.findAndMarkForRemoval f.selector) (s.handleIpAssociationRemove env f) := by
  let base := s.findAndMarkForRemoval f.selector
  have hstart : Midway more f.selector base base.markedList base.marked base := start f.selector hsent
  unfold State.handleIpAssociationRemove
  rw [if_neg (by simpa using hmarked)]
  dsimp only
  split_ifs with hmatching
  · exact removeAllMarked (Nat.pos_of_ne_zero hmatching) (marked_le_length f.selector s) hstart hpending
  · have hzero : base.marked = 0 := by simpa using hmatching
    refine .done hpending hzero ?_ ?_
    · exact (saysOk_put _).mpr (.inl rfl)
    · rw [hzero, List.drop_zero]
      exact (hstart.toRemains.put (o := .ack true) rfl).put rfl

theorem removeByNodeid (hpending : s.pending = []) (hsent : ∀ o ∈ s.out, o.isFailedRemoval = false) (node : NodeId)
    (hmatching : (s.findAndMarkForRemoval ⟨node, 0, 0, none⟩).marked ≠ 0) :
    RemoveStage more ⟨node, 0, 0, none⟩ (s.findAndMarkForRemoval ⟨node, 0, 0, none⟩) (s.removeByNodeid env node) := by
  let q : Selector := ⟨node, 0, 0, none⟩
  let base := s.findAndMarkForRemoval q
  have hstart : Midway more q base (base.markedList.drop 0) (base.marked - 0)
      (base.put (.nodeRemoved node base.marked)) := (start q hsent).put rfl
  unfold State.removeByNodeid
  dsimp only
  rw [if_pos (by exact hmatching)]
  exact removeAllMarked (Nat.pos_of_ne_zero hmatching) (marked_le_length q s) hstart hpending

end RemoveStage

end Removal

/-! ### Whole removals -/

def Event.removes (s : State) : Event → Option Selector
  | .command f =>
    if f.command = associationRemove ∧ f.firstQueue = false ∧ s.marked = 0 then some f.selector
    else none
  | .nodeRemoved node =>
    if s.table.any fun i => Selector.picks ⟨node, 0, 0, none⟩ (s.mem i) then
      some ⟨node, 0, 0, none⟩
    else none
  | _ => none

/-- What a removal owes to the state `s` before it: only what it picks is gone, and once completed nothing is
marked. -/
structure Tidy (q : Selector) (s t : State) : Prop where
  matching : ∀ i ∈ s.table, i ∉ t.table → q.picks (s.mem i)
  unmarked : t.out.any Out.isCompletion → t.marked = 0 ∧ t.markedList = []

def Event.isCommand : Event → Bool
  | .command _ => true
  | _ => false

/-- A node that leaves in the middle of a removal has no associations, and at most one association of
the removal is left. -/
def Apart (s : State) : Event → Prop
  | .nodeRemoved node => s.marked ≤ 1 ∧ ∀ i ∈ s.table, Selector.picks ⟨node, 0, 0, none⟩ (s.mem i) = false
  | _ => True

/-- The event starts a removal in which nothing goes wrong: nothing is under way and no mark is old,
every removal command gets through, after one that is refused there is nothing left to wait for, and
node removals in between do not get in its way. -/
structure Orderly (env : Env) (q : Selector) (s : State) (e : Event) (answers : List Event) : Prop where
  idle : s.pending = []
  marks : ∀ i ∈ s.table, (s.mem i).markRemoval = 1 → q.picks (s.mem i)
  sent : ∀ o ∈ (s.fresh.run env (e :: answers)).out, o.isFailedRemoval = false
  accepted : ∀ n, ¬(s.fresh.run env ((e :: answers).take n)).Faultless →
    (s.fresh.run env ((e :: answers).take n)).pending = []
  apart : Machine.Admissible (step env) Apart (s.fresh.step env e) answers

theorem apart_of_callbacks {answers : List Event} (hcallbacks : ∀ e ∈ answers, e.isCallback) :
    ∀ s : State, Machine.Admissible (step env) Apart s answers := by
  induction answers with
  | nil => exact fun _ => trivial
  | cons e answers ih =>
    intro s
    refine ⟨?_, ih (fun e' he' => hcallbacks e' (List.mem_cons_of_mem e he')) _⟩
    have he := hcallbacks e List.mem_cons_self
    cases e with
    | nodeRemoved node => cases he
    | command | otherPacket | virtualAdded | associationSent | routeAssigned | removalSent
    | virtualRemoved | reportSent => trivial

theorem step_nodeRemoved (env : Env) {node : NodeId} (hapart : Apart s (.nodeRemoved node)) :
    s.step env (.nodeRemoved node) = ((({ s with clock := s.clock + 1 }).withMarked 0).put (.nodeRemoved node 0)).put
        (.posted .virtNodeRemoveDone) := by
  obtain ⟨-, hnone⟩ := hapart
  have hzero : (s.table.countP fun i => Selector.picks ⟨node, 0, 0, none⟩ (s.mem i)) = 0 :=
    List.countP_eq_zero.mpr fun i hi => by simp [hnone i hi]
  have hmark : { s with clock := s.clock + 1 }.findAndMarkForRemoval ⟨node, 0, 0, none⟩ =
      ({ s with clock := s.clock + 1 }).withMarked 0 := by
    have hmem : (fun i => if i ∈ s.table ∧ Selector.picks ⟨node, 0, 0, none⟩ (s.mem i) then
        { s.mem i with markRemoval := 1 } else s.mem i) = s.mem := by
      funext i
      refine if_neg fun h => ?_
      rw [hnone i h.1] at h
      exact Bool.false_ne_true h.2
    simp only [findAndMarkForRemoval, withMarked, hmem, hzero]
  change State.removeByNodeid env _ node = _
  unfold removeByNodeid
  rw [hmark]
  exact if_neg (not_not.mpr rfl)

theorem tally_answer (env : Env) (hs : Creating s) {e : Event} (he : e.isCommand = false)
    (hapart : Apart s e) : Tally 0 0 s (s.step env e) := by
  cases e with
  | command f => cases he
  | otherPacket f => exact Tally.of_eq rfl rfl rfl rfl
  | nodeRemoved node =>
    rw [step_nodeRemoved env hapart]
    let u := { s with clock := s.clock + 1 }.withMarked 0
    have hcleared : Tally 0 0 s u := Tally.of_eq rfl rfl rfl rfl
    have hremoved : Tally 0 0 u (u.put (.nodeRemoved node 0)) := Tally.put u _ rfl rfl rfl rfl
    exact ((hcleared.trans hremoved).trans (Tally.posted _ _)).weaken rfl (by decide)
  | virtualAdded | associationSent | routeAssigned | removalSent | virtualRemoved | reportSent =>
    exact tally_callback env hs rfl

theorem RemoveStage.answer {more : Prop} {q : Selector} {base : State}
    (hk : base.marked ≤ base.markedList.length) (h : RemoveStage more q base s) {e : Event}
    (he : e.isCommand = false) (hmore : e.isCallback ∨ more) (hapart : Apart s e) :
    RemoveStage more q base (s.step env e) := by
  cases e with
  | command f => cases he
  | otherPacket f => exact h.congr rfl rfl rfl rfl rfl
  | nodeRemoved node =>
    rw [step_nodeRemoved env hapart]
    exact (h.congr (t := { s with clock := s.clock + 1 }) rfl rfl rfl rfl rfl).overtake
      (hmore.resolve_left Bool.false_ne_true) hapart.1 node
  | virtualAdded | associationSent | routeAssigned | removalSent | virtualRemoved | reportSent =>
    exact h.step hk rfl

structure Underway (more : Prop) (q : Selector) (s t : State) : Prop where
  stage : ∃ base : State, base.table = s.table ∧ base.markedList = (s.findAndMarkForRemoval q).markedList ∧
      base.marked = (s.findAndMarkForRemoval q).marked ∧ RemoveStage more q base t
  count : t.out.countP Out.isCompletion + t.pending.length = 1 + t.out.countP Out.isFault

theorem underway_start {more : Prop} (env : Env) (hidle : s.pending = []) {e : Event} {q : Selector}
    (hstart : e.removes s = some q) : Underway more q s (s.fresh.step env e) := by
  cases e with
  | command f =>
    obtain ⟨⟨hremove, hqueue, hmarked⟩, hq⟩ := Option.ite_none_right_eq_some.mp hstart
    cases hq
    let u : State := { s with clock := s.clock + 1, backup := f, out := [.handled f] }
    have hset : f.command ≠ associationSet := by simp [hremove, associationSet, associationRemove]
    have hlater : ¬(f.firstQueue = true ∧ f.command ≠ associationGet) := by simp [hqueue]
    have hstep : s.fresh.step env (.command f) = u.handleIpAssociationRemove env f :=
      ((if_neg hlater).trans (if_neg hset)).trans (if_pos hremove)
    have hnotGet : f.isShortGet = false := by
      simp [Frame.isShortGet, hremove, associationGet, associationRemove]
    rw [hstep]
    refine ⟨⟨u.findAndMarkForRemoval f.selector, rfl, rfl, rfl, ?_⟩, ?_⟩
    · exact RemoveStage.handleIpAssociationRemove hidle (by simp [u, Out.isFailedRemoval]) hmarked
    · exact (completions_of_operation (Tally.handleIpAssociationRemove env u f) hidle rfl rfl hnotGet).1
  | nodeRemoved node =>
    obtain ⟨hany, hq⟩ := Option.ite_none_right_eq_some.mp hstart
    cases hq
    let q : Selector := ⟨node, 0, 0, none⟩
    let u : State := { s with clock := s.clock + 1, out := [] }
    let base := u.findAndMarkForRemoval q
    have hmatching : base.marked ≠ 0 := by
      obtain ⟨i, hi, hpicks⟩ := List.any_eq_true.mp hany
      have hpos : 0 < s.table.countP fun i => q.picks (s.mem i) :=
        List.countP_pos_iff.mpr ⟨i, hi, hpicks⟩
      exact hpos.ne'
    have hstep : s.fresh.step env (.nodeRemoved node) =
        (base.put (.nodeRemoved node base.marked)).removeAllMarkedWith env (continueWithNext env) :=
      if_pos hmatching
    refine ⟨⟨base, rfl, rfl, rfl, ?_⟩, ?_⟩
    · exact RemoveStage.removeByNodeid (s := u) hidle (fun _ hmem => absurd hmem List.not_mem_nil) node hmatching
    · rw [hstep]
      have htally := Tally.removeAllMarkedWith env (s := base.put (.nodeRemoved node base.marked))
        (Tally.completes_continue env _)
      exact (completions_of_operation htally hidle rfl (by simpa [Out.isOperation] using hmatching)
        rfl).1
  | otherPacket | virtualAdded | associationSent | routeAssigned | removalSent | virtualRemoved
  | reportSent => cases hstart

namespace Underway

variable {more : Prop} {q : Selector}

theorem step (hs : Creating t) (h : Underway more q s t) {e : Event} (he : e.isCommand = false)
    (hmore : e.isCallback ∨ more) (hapart : Apart t e) : Underway more q s (t.step env e) := by
  obtain ⟨base, htable, hlist, hmarked, hstage⟩ := h.stage
  refine ⟨⟨base, htable, hlist, hmarked, hstage.answer ?_ he hmore hapart⟩, ?_⟩
  · rw [hmarked, hlist]
    exact marked_le_length q s
  · have htally := tally_answer env hs he hapart
    have hcompletions := htally.completions
    have hcount := h.count
    simp only [completionBalance, sum_dueCompletions, htally.operations, htally.lost] at hcompletions
    omega

/-- The log of a part of the answers is a part of the log. -/
theorem run {answers : List Event} (hanswers : ∀ e ∈ answers, e.isCommand = false)
    (hmore : ∀ e ∈ answers, e.isCallback ∨ more) :
    ∀ {t : State}, Machine.Admissible (State.step env) Apart t answers → Creating t → Underway more q s t →
      ∀ n, Underway more q s (t.run env (answers.take n)) ∧
        (t.run env (answers.take n)).out <:+ (t.run env answers).out := by
  induction answers with
  | nil =>
    intro t _ _ h n
    rw [List.take_nil]
    exact ⟨h, List.suffix_rfl⟩
  | cons e answers ih =>
    intro t hapart hs h n
    have he := hanswers e List.mem_cons_self
    have htally := tally_answer env hs he hapart.1
    have hrest := ih (fun e' he' => hanswers e' (List.mem_cons_of_mem e he'))
      (fun e' he' => hmore e' (List.mem_cons_of_mem e he')) hapart.2 (htally.creating hs)
      (h.step hs he (hmore e List.mem_cons_self) hapart.1)
    cases n with
    | zero => exact ⟨h, htally.suffix.trans (hrest 0).2⟩
    | succ n => exact hrest n

theorem completed_of_idle (h : Underway more q s t) (hidle : t.pending = []) : t.out.any Out.isCompletion := by
  have hcount := h.count
  rw [hidle, List.length_nil] at hcount
  have hpos : 0 < t.out.countP Out.isCompletion := by omega
  obtain ⟨o, hmem, ho⟩ := List.countP_pos_iff.mp hpos
  exact List.any_eq_true.mpr ⟨o, hmem, ho⟩

theorem completed_iff (h : Underway more q s t) (hpending : t.pending.length = 1) :
    t.out.any Out.isCompletion ↔ ¬t.Faultless := by
  have hcount := h.count
  rw [hpending] at hcount
  have hfaults : ¬t.Faultless ↔ 0 < t.out.countP Out.isFault := by
    simp [Faultless, List.countP_pos_iff]
  have hcompleted : t.out.any Out.isCompletion ↔ 0 < t.out.countP Out.isCompletion := by
    simp [List.countP_pos_iff]
  rw [hfaults, hcompleted]
  omega

theorem marks_of_tidy (h : Underway more q s t) (hidle : t.pending = []) (htidy : Tidy q s t) :
    (∀ i ∈ s.table, (s.mem i).markRemoval = 1 → q.picks (s.mem i)) ∧ ∀ o ∈ t.out, o.isFailedRemoval = false := by
  obtain ⟨base, htable, hlist, hmarked, hstage⟩ := h.stage
  obtain ⟨-, hempty⟩ := htidy.unmarked (h.completed_of_idle hidle)
  cases hstage with
  | failed _ hleft => exact absurd hempty hleft
  | sending j i rest hj hi hp => simp [hidle] at hp
  | removing j hj hp => simp [hidle] at hp
  | done _ _ _ hr =>
    refine ⟨(length_le_marked_iff q s).mp ?_, hr.sent⟩
    have hdrop := hr.list.symm.trans hempty
    rw [hlist, hmarked] at hdrop
    exact List.drop_eq_nil_iff.mp hdrop

theorem pending_of_tidy (h : Underway False q s t) (htidy : Tidy q s t) (hfault : ¬t.Faultless) : t.pending = [] := by
  obtain ⟨base, htable, hlist, hmarked, hstage⟩ := h.stage
  -- the count is up while a callback is outstanding
  have hwaiting {rest : List Block} {left : Nat} (hlength : t.pending.length = 1)
      (hm : Midway False q base rest left t) (hleft : 0 < left) : t.pending = [] := by
    have hzero := (htidy.unmarked ((h.completed_iff hlength).mpr hfault)).1
    have hmarked := hm.marked.resolve_right And.left
    omega
  cases hstage with
  | failed hp | done hp => exact hp
  | sending j i rest hj hi hp hmidway => exact hwaiting (by simp [hp]) hmidway (by omega)
  | removing j hj hp hmidway => exact hwaiting (by simp [hp]) hmidway (by omega)

theorem tidy (h : Underway more q s t) (hmarks : ∀ i ∈ s.table, (s.mem i).markRemoval = 1 → q.picks (s.mem i))
    (hsent : ∀ o ∈ t.out, o.isFailedRemoval = false)
    (haccepted : ¬t.Faultless → t.pending = []) : Tidy q s t := by
  obtain ⟨base, htable, hlist, hmarked, hstage⟩ := h.stage
  have hpicks : ∀ i ∈ base.markedList, q.picks (s.mem i) := by
    rw [hlist]
    intro i hi
    obtain ⟨hi, hmarked⟩ := List.mem_filter.mp hi
    exact (picks_or_marked (by simpa using hmarked)).elim id (hmarks i hi)
  -- while something is pending nothing was completed
  have hwaiting (hpending : t.pending.length = 1) : ¬t.out.any Out.isCompletion := by
    rw [h.completed_iff hpending]
    intro hfault
    simp [haccepted hfault] at hpending
  cases hstage with
  | failed _ _ _ _ o hmem hfailed =>
    rw [hsent o hmem] at hfailed
    cases hfailed
  | sending j i rest hj hi hp hmidway =>
    refine ⟨?_, fun hcompleted => absurd hcompleted (hwaiting (by simp [hp]))⟩
    rw [← htable]
    exact fun i hi hgone => hpicks i (hmidway.gone i hi hgone)
  | removing j hj hp hmidway =>
    refine ⟨?_, fun hcompleted => absurd hcompleted (hwaiting (by simp [hp]))⟩
    rw [← htable]
    exact fun i hi hgone => hpicks i (hmidway.gone i hi hgone)
  | done _ hzero _ hr =>
    refine ⟨?_, fun _ => ⟨hzero, ?_⟩⟩
    · rw [← htable]
      exact fun i hi hgone => hpicks i (hr.gone i hi hgone)
    · rw [hr.list, hlist, hmarked]
      exact List.drop_eq_nil_iff.mpr ((length_le_marked_iff q s).mpr hmarks)

end Underway

/-- A removal takes what it picks and leaves no marks behind when nothing goes wrong on the way, also
if nodes without associations leave the network meanwhile; and when it has the field to itself only then. -/
theorem removal_tidy_iff (env : Env) (before : List Event) {e : Event} {q : Selector}
    {answers : List Event} (hstart : e.removes (init.run env before) = some q)
    (hanswers : ∀ e ∈ answers, e.isCommand = false) :
    (Orderly env q (init.run env before) e answers → ∀ n, Tidy q (init.run env before)
        ((init.run env before).fresh.run env ((e :: answers).take n))) ∧
    ((init.run env before).pending = [] → (∀ e ∈ answers, e.isCallback) →
      ((init.run env before).fresh.run env (e :: answers)).pending = [] →
      (∀ n, Tidy q (init.run env before) ((init.run env before).fresh.run env ((e :: answers).take n))) →
      Orderly env q (init.run env before) e answers) := by
  have hs : Creating (init.run env before) := creating_run env before
  generalize init.run env before = s at *
  have hstarted : Creating (s.fresh.step env e) :=
    creating_step env s.fresh e (creating_congr hs rfl rfl rfl)
  constructor
  · intro horderly n
    cases n with
    | zero => exact ⟨fun i hi hgone => absurd hi hgone, fun hany => by cases hany⟩
    | succ n =>
      have hbegun : Underway True q s (s.fresh.step env e) := underway_start env horderly.idle hstart
      obtain ⟨hunderway, hlog⟩ :=
        Underway.run hanswers (fun _ _ => .inr trivial) horderly.apart hstarted hbegun n
      refine hunderway.tidy horderly.marks ?_ (horderly.accepted (n + 1))
      exact fun o ho => horderly.sent o (hlog.subset ho)
  · intro hidle hcallbacks hdone htidy
    have hunderway (n : Nat) : Underway False q s (s.fresh.run env (e :: answers.take n)) :=
      (Underway.run hanswers (fun e' he' => .inl (hcallbacks e' he')) (apart_of_callbacks hcallbacks _)
        hstarted (underway_start env hidle hstart) n).1
    have hfinal : Underway False q s (s.fresh.run env (e :: answers)) := by
      have hall := hunderway answers.length
      rwa [List.take_length] at hall
    have hend := htidy (answers.length + 1)
    rw [List.take_of_length_le (by simp)] at hend
    obtain ⟨hmarks, hsent⟩ := hfinal.marks_of_tidy hdone hend
    refine ⟨hidle, hmarks, hsent, fun n hfault => ?_, apart_of_callbacks hcallbacks _⟩
    cases n with
    | zero => exact hidle
    | succ n => exact (hunderway n).pending_of_tidy (htidy (n + 1)) hfault

/-- The nodes 5 and 6 support everything, and the serial API takes all requests. -/
def twoNodes : Env where
  nodeOfIp := fun ip => if ip = 0xfd00 then 6 else 0
  directory := fun _ => ⟨fun node => node = 5 ∨ node = 6, fun _ _ => true, fun _ _ _ => true, fun _ _ => true⟩
  learnMode := fun _ => true
  sendAppl := fun _ => true
  assignRoute := fun _ => true
  sendZip := fun _ => true

def setFiveSix : Frame :=
  { Frame.zero with
    payload := Mem.ofBytes ([0x5c, 0x01, 1] ++ List.replicate 14 0 ++ [0xfd, 0x00, 0])
    len := 20, payloadLen := 20, destNode := 5, sendNack := true }

def removeFive : Frame :=
  { Frame.zero with
    payload := Mem.ofBytes [0x5c, 0x04], len := 20, payloadLen := 20, destNode := 5, sendNack := true }

def fiveSixSetUp : List Event :=
  [.command setFiveSix, .associationSent 0 transmitCompleteOk, .routeAssigned transmitCompleteOk]

/-- Node 7, which has no associations, leaves in the middle. -/
theorem removeFive_tidy : (init.run twoNodes fiveSixSetUp).table = [0] ∧
      ∀ n, Tidy removeFive.selector (init.run twoNodes fiveSixSetUp)
        ((init.run twoNodes fiveSixSetUp).fresh.run twoNodes
          ([.command removeFive, .nodeRemoved 7, .removalSent 0 transmitCompleteOk].take n)) := by
  refine ⟨by decide, (removal_tidy_iff twoNodes fiveSixSetUp ?_ ?_).1 ⟨?_, ?_, ?_, ?_, ?_⟩⟩
  · rfl
  · decide
  · decide
  · decide
  · decide
  · intro n hfault
    refine absurd ?_ hfault
    unfold Faultless
    rcases n with _ | _ | _ | n
    · decide
    · decide
    · decide
    · simp only [List.take_succ_cons, List.take_nil]
      decide
  · exact ⟨⟨by decide, by decide⟩, trivial, trivial⟩

def sixSetUp : List Event :=
  [.command { setFiveSix with destNode := 6 }, .associationSent 1 transmitCompleteOk, .routeAssigned transmitCompleteOk]

/-- The removal command does not reach node 5. The removal is completed, the mark and the count stay, and
the next removal is refused. Or it does, but node 6 has left the network before: its association is
still marked when the removal is completed with OK. -/
theorem removeFive_not_tidy :
    let s := init.run twoNodes fiveSixSetUp
    let t := s.fresh.run twoNodes [.command removeFive, .removalSent 0 transmitCompleteFail]
    let u := init.run twoNodes (fiveSixSetUp ++ sixSetUp)
    let v := u.fresh.run twoNodes [.command removeFive, .nodeRemoved 6, .removalSent 0 transmitCompleteOk]
    s.pending = [] ∧ t.pending = [] ∧ t.out.any Out.isCompletion ∧ t.marked = 1 ∧
      ¬Tidy removeFive.selector s t ∧ ((Event.command removeFive).removes t).isNone ∧
      u.pending = [] ∧ v.SaysOk ∧ v.markedList = [1] ∧ ¬Tidy removeFive.selector u v := by
  intro s t u v
  have hcompleted : t.out.any Out.isCompletion := by decide
  have hmarked : t.marked = 1 := by decide
  have hcompleted' : v.out.any Out.isCompletion := by decide
  have hleft : v.markedList = [1] := by decide
  refine ⟨by decide, by decide, hcompleted, hmarked, ?_, by decide, by decide, ?_, hleft, ?_⟩
  · intro htidy
    have hzero := (htidy.unmarked hcompleted).1
    omega
  · unfold SaysOk
    decide
  · intro htidy
    have hnone := (htidy.unmarked hcompleted').2
    exact List.cons_ne_nil _ _ (hleft.symm.trans hnone)

end State

end ZipGateway.IpAssoc

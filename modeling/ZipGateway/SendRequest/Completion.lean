import Mathlib.Data.List.TakeWhile
import ZipGateway.SendRequest.Requests

/-!
# The end of a request

A request is called back for the last time when it fails, or when its callback for a response returns
that no more responses are expected. Its block is free from then on, so that nothing refers to it any
more: no timer runs, no transmission is owed, and it is not in the list.

`ZW_Abort_SendRequest` takes the link of a block after it has taken the block out of the list. The loop
is over with the first request it finds, and a request that is still being sent is not looked for.
-/

namespace ZipGateway

open Function (update update_of_ne update_self)

namespace ReqOut

def ends (a : Nat) : ReqOut → Bool
  | .failed id => id == a
  | .returned id more => id == a && !more
  | _ => false

def calls (a : Nat) : ReqOut → Bool
  | .accepted _ => false
  | .failed id => id == a
  | .answered id => id == a
  | .returned id _ => id == a

theorem calls_of_ends {a : Nat} {o : ReqOut} (h : o.ends a = true) : o.calls a = true := by
  cases o with
  | accepted id => cases h
  | answered id => cases h
  | failed id => exact h
  | returned id more => exact (Bool.and_eq_true_iff.mp h).1

end ReqOut

def Ordered (out : List ReqOut) : Prop :=
  out.Pairwise fun o' o => ∀ a, o.ends a = true → o'.calls a = false

theorem Ordered.once {out : List ReqOut} (h : Ordered out) (a : Nat) : out.countP (ReqOut.ends a) ≤ 1 := by
  induction out with
  | nil => exact Nat.zero_le 1
  | cons o rest ih =>
    obtain ⟨hfirst, hrest⟩ := List.pairwise_cons.mp h
    cases ho : o.ends a with
    | false =>
      rw [List.countP_cons_of_neg (by simp [ho])]
      exact ih hrest
    | true =>
      have hnone : rest.countP (ReqOut.ends a) = 0 := by
        refine List.countP_eq_zero.mpr fun o' ho' hends => ?_
        have hcalls := hfirst o' ho' a hends
        rw [ReqOut.calls_of_ends ho] at hcalls
        cases hcalls
      rw [List.countP_cons_of_pos ho, hnone]

structure ReqLedger (live : Nat → Prop) (n : Nat) (out : List ReqOut) : Prop where
  bound : ∀ a, live a → a < n
  below : ∀ o ∈ out, ∀ a, o.calls a = true → a < n
  unended : ∀ a, live a → ∀ o ∈ out, o.ends a = false
  ordered : Ordered out

namespace ReqLedger

variable {live live' : Nat → Prop} {n a : Nat} {out : List ReqOut} {o : ReqOut}

theorem mono (h : ReqLedger live n out) (hlive : ∀ a, live' a → live a) {m : Nat} (hm : n ≤ m) :
    ReqLedger live' m out where
  bound := fun a ha => lt_of_lt_of_le (h.bound a (hlive a ha)) hm
  below := fun o ho a ha => lt_of_lt_of_le (h.below o ho a ha) hm
  unended := fun a ha => h.unended a (hlive a ha)
  ordered := h.ordered

theorem accept (h : ReqLedger live n out) (hlive : ∀ a, live' a → live a ∨ a = n) :
    ReqLedger live' (n + 1) (.accepted n :: out) := by
  refine ⟨fun a ha => ?_, fun o ho a hcalls => ?_, fun a ha o ho => ?_, ?_⟩
  · rcases hlive a ha with ha | rfl
    · exact Nat.lt_succ_of_lt (h.bound a ha)
    · exact Nat.lt_succ_self a
  · rcases List.mem_cons.mp ho with rfl | ho
    · cases hcalls
    · exact Nat.lt_succ_of_lt (h.below o ho a hcalls)
  · rcases List.mem_cons.mp ho with rfl | hold
    · rfl
    · rcases hlive a ha with ha | ha
      · exact h.unended a ha o hold
      · -- A number that was not given yet occurs nowhere in the log.
        by_contra hends
        have hcalls := ReqOut.calls_of_ends (Bool.eq_true_of_not_eq_false hends)
        exact absurd ha (Nat.ne_of_lt (h.below o hold a hcalls))
  · exact List.pairwise_cons.mpr ⟨fun _ _ _ _ => rfl, h.ordered⟩

theorem call (h : ReqLedger live n out) (ha : live a) (ho : ∀ b, o.calls b = true → b = a)
    (hlive : ∀ b, live' b → live b) (hends : ∀ b, live' b → o.ends b = false) :
    ReqLedger live' n (o :: out) := by
  refine ⟨fun b hb => h.bound b (hlive b hb), fun o' ho' b hcalls => ?_, fun b hb o' ho' => ?_, ?_⟩
  · rcases List.mem_cons.mp ho' with rfl | ho'
    · rw [ho b hcalls]
      exact h.bound a ha
    · exact h.below o' ho' b hcalls
  · rcases List.mem_cons.mp ho' with rfl | ho'
    · exact hends b hb
    · exact h.unended b (hlive b hb) o' ho'
  · refine List.pairwise_cons.mpr ⟨fun o' ho' b hb => ?_, h.ordered⟩
    by_contra hcalls
    have hba := ho b (Bool.eq_true_of_not_eq_false hcalls)
    rw [hba, h.unended a ha o' ho'] at hb
    cases hb

end ReqLedger

/-! ### What follows a block -/

section After

variable {α : Type*} [DecidableEq α] {l : List α} {i j k : α}

theorem followers_cons (a : α) (l : List α) (i : α) : followers (a :: l) i = if a = i then l else followers l i := by
  by_cases h : a = i
  · simp [followers, h]
  · simp [followers, h]

theorem mem_of_mem_followers (h : j ∈ followers l i) : j ∈ l :=
  (List.dropWhile_sublist _).subset (List.mem_of_mem_tail h)

theorem followers_of_not_mem (h : i ∉ l) : followers l i = [] := by
  have hall : l.dropWhile (fun a => decide (a ≠ i)) = [] := by
    refine List.dropWhile_eq_nil_iff.mpr fun a ha => decide_eq_true ?_
    rintro rfl
    exact h ha
  rw [followers, hall]
  rfl

theorem mem_followers_erase (h : j ∈ followers (l.erase k) i) : j ∈ followers l i := by
  induction l with
  | nil => exact h
  | cons a l ih =>
    by_cases hak : a = k
    · rw [hak, List.erase_cons_head] at h
      rw [followers_cons]
      split
      · exact mem_of_mem_followers h
      · exact h
    · rw [List.erase_cons_tail (by simpa using hak), followers_cons] at h
      rw [followers_cons]
      split
      · rename_i hai
        rw [if_pos hai] at h
        exact List.mem_of_mem_erase h
      · rename_i hai
        rw [if_neg hai] at h
        exact ih h

theorem mem_followers_append (h : j ∈ followers (l ++ [k]) i) : j ∈ followers l i ∨ j = k := by
  induction l with
  | nil =>
    right
    exact List.mem_singleton.mp (mem_of_mem_followers h)
  | cons a l ih =>
    rw [List.cons_append, followers_cons] at h
    rw [followers_cons]
    split
    · rename_i hai
      rw [if_pos hai] at h
      rcases List.mem_append.mp h with h | h
      · exact .inl h
      · exact .inr (List.mem_singleton.mp h)
    · rename_i hai
      rw [if_neg hai] at h
      exact ih h

end After

def ReqFrame.response? : ReqFrame → Option ReqBlock
  | .response s => some s
  | _ => none

def Stacked : List ReqFrame → Prop
  | [] => True
  | .abort _ _ :: rest => Stacked rest
  | _ :: rest => rest = []

namespace SendRequest

variable {s t : SendRequest} {i j : ReqBlock}

def idOf (s : SendRequest) (i : ReqBlock) : Nat := (s.mem i).id

def stateOf (s : SendRequest) (i : ReqBlock) : ReqState := (s.mem i).state

def answering (s : SendRequest) : List ReqBlock :=
  s.frames.filterMap ReqFrame.response?

def Live (s : SendRequest) (a : Nat) : Prop :=
  ∃ i, s.allocated i = true ∧ s.idOf i = a

structure Kept (s : SendRequest) : Prop where
  nodup : (s.reqsList ++ s.answering).Nodup
  alloc : ∀ i, s.allocated i = true ↔ i ∈ s.reqsList ++ s.answering
  ids : ∀ i j, s.allocated i = true → s.allocated j = true → s.idOf i = s.idOf j → i = j
  ledger : ReqLedger s.Live s.nRequests s.out
  owed : s.owed.Nodup
  sending : ∀ i ∈ s.owed, i ∈ s.reqsList ∧ s.stateOf i = .sending
  timers : ∀ i, (s.mem i).timer = true → i ∈ s.reqsList ∧ s.stateOf i = .waiting
  handed : ∀ i ∈ s.answering, s.stateOf i = .done
  stacked : Stacked s.frames
  behind : ∀ n i, .abort n i ∈ s.frames → ∀ j ∈ followers s.reqsList i, s.stateOf j = .sending

theorem kept_init : Kept init where
  nodup := .nil
  alloc := fun i => ⟨fun h => (by cases h), fun h => (by cases h)⟩
  ids := fun i j h => by cases h
  ledger := ⟨fun a ⟨i, h, _⟩ => (by cases h), fun o h => (by cases h), fun a _ o h => (by cases h), .nil⟩
  owed := .nil
  sending := fun i h => by cases h
  timers := fun i h => by cases h
  handed := fun i h => by cases h
  stacked := trivial
  behind := fun n i h => by cases h

namespace Kept

theorem live_lt (h : Kept s) (hi : s.allocated i = true) : s.idOf i < s.nRequests :=
  h.ledger.bound _ ⟨i, hi, rfl⟩

theorem allocated_of_list (h : Kept s) (hi : i ∈ s.reqsList) : s.allocated i = true :=
  (h.alloc i).mpr (List.mem_append_left _ hi)

theorem not_mem_of_free (h : Kept s) (hi : s.allocated i = false) : i ∉ s.reqsList ++ s.answering := by
  intro hmem
  have hon := (h.alloc i).mpr hmem
  rw [hi] at hon
  cases hon

theorem list_of_waiting (h : Kept s) (hi : s.allocated i = true) (hstate : s.stateOf i = .waiting) :
    i ∈ s.reqsList := by
  rcases List.mem_append.mp ((h.alloc i).mp hi) with hmem | hmem
  · exact hmem
  · have hdone := h.handed i hmem
    rw [hstate] at hdone
    cases hdone

theorem not_owed (h : Kept s) (hstate : s.stateOf i ≠ .sending) : i ∉ s.owed :=
  fun hmem => hstate (h.sending i hmem).2

end Kept

section Changes

variable {x : SendRequestState}

theorem stateOf_update (hmem : t.mem = update s.mem i x) (hj : j ≠ i) : t.stateOf j = s.stateOf j := by
  rw [stateOf, hmem, update_of_ne hj, stateOf]

theorem idOf_update (hmem : t.mem = update s.mem i x) (hj : j ≠ i) : t.idOf j = s.idOf j := by
  rw [idOf, hmem, update_of_ne hj, idOf]

theorem Kept.retire (h : Kept s) (hi : i ∈ s.reqsList) (howed : i ∉ s.owed) {f : ReqFrame}
    (halloc : t.allocated = update s.allocated i false)
    (hmem : t.mem = update s.mem i x) (hx : x.timer = false)
    (hlist : t.reqsList = s.reqsList.erase i) (hframes : t.frames = f :: s.frames)
    (hsame : t.owed = s.owed) (hn : t.nRequests = s.nRequests) (hout : t.out = .failed (s.idOf i) :: s.out)
    (hf : f.response? = none) (hstack : Stacked (f :: s.frames))
    (habort : ∀ n j, f = .abort n j → j = i) : Kept t := by
  have hnodup := List.nodup_append.mp h.nodup
  have hanswering : t.answering = s.answering := by
    rw [answering, hframes, List.filterMap_cons_none hf, answering]
  have hnot : i ∉ t.reqsList ++ t.answering := by
    rw [hlist, hanswering]
    intro hmem
    rcases List.mem_append.mp hmem with hmem | hmem
    · exact hnodup.1.not_mem_erase hmem
    · exact hnodup.2.2 i hi i hmem rfl
  have hstay : ∀ j, j ≠ i → (j ∈ t.reqsList ++ t.answering ↔ j ∈ s.reqsList ++ s.answering) := by
    intro j hj
    rw [hlist, hanswering, List.mem_append, List.mem_append, List.mem_erase_of_ne hj]
  have hleft : ∀ j, t.allocated j = true → j ≠ i ∧ s.allocated j = true := by
    intro j hj
    rw [halloc] at hj
    by_cases hji : j = i
    · rw [hji, update_self] at hj
      cases hj
    · rw [update_of_ne hji] at hj
      exact ⟨hji, hj⟩
  refine ⟨?_, fun j => ?_, fun j k hj hk hid => ?_, ?_, ?_, fun j hj => ?_, fun j hj => ?_,
    fun j hj => ?_, ?_, fun n j hmem' k hk => ?_⟩
  · rw [hlist, hanswering]
    exact h.nodup.sublist (List.Sublist.append_right List.erase_sublist _)
  · by_cases hji : j = i
    · rw [hji, halloc, update_self]
      exact ⟨fun hon => absurd hon Bool.false_ne_true, fun hin => absurd hin hnot⟩
    · rw [hstay j hji, ← h.alloc j, halloc, update_of_ne hji]
  · obtain ⟨hji, hj'⟩ := hleft j hj
    obtain ⟨hki, hk'⟩ := hleft k hk
    rw [idOf_update hmem hji, idOf_update hmem hki] at hid
    exact h.ids j k hj' hk' hid
  · rw [hn, hout]
    have hlive : s.Live (s.idOf i) := ⟨i, h.allocated_of_list hi, rfl⟩
    refine h.ledger.call hlive (fun b hb => (eq_of_beq hb).symm) ?_ ?_
    · rintro b ⟨j, hj, hid⟩
      obtain ⟨hji, hj'⟩ := hleft j hj
      exact ⟨j, hj', (idOf_update hmem hji).symm.trans hid⟩
    · rintro b ⟨j, hj, hid⟩
      obtain ⟨hji, hj'⟩ := hleft j hj
      rw [idOf_update hmem hji] at hid
      refine beq_eq_false_iff_ne.mpr fun heq => ?_
      exact hji (h.ids j i hj' (h.allocated_of_list hi) (hid.trans heq.symm))
  · rw [hsame]
    exact h.owed
  · rw [hsame] at hj
    have hji : j ≠ i := by
      rintro rfl
      exact howed hj
    rw [hlist, stateOf_update hmem hji]
    exact ⟨(List.mem_erase_of_ne hji).mpr (h.sending j hj).1, (h.sending j hj).2⟩
  · by_cases hji : j = i
    · rw [hji, hmem, update_self, hx] at hj
      cases hj
    · rw [hmem, update_of_ne hji] at hj
      rw [hlist, stateOf_update hmem hji]
      exact ⟨(List.mem_erase_of_ne hji).mpr (h.timers j hj).1, (h.timers j hj).2⟩
  · rw [hanswering] at hj
    have hji : j ≠ i := by
      rintro rfl
      exact hnodup.2.2 j hi j hj rfl
    rw [stateOf_update hmem hji]
    exact h.handed j hj
  · rw [hframes]
    exact hstack
  · rw [hlist] at hk
    have hki : k ≠ i := by
      rintro rfl
      exact hnodup.1.not_mem_erase (mem_of_mem_followers hk)
    rw [stateOf_update hmem hki]
    rw [hframes] at hmem'
    rcases List.mem_cons.mp hmem' with heq | hmem'
    · -- The block that the loop stands at is out of the list.
      rw [habort n j heq.symm, followers_of_not_mem hnodup.1.not_mem_erase] at hk
      cases hk
    · exact h.behind n j hmem' k (mem_followers_erase hk)

theorem Kept.dropOwed (h : Kept s) (n : Nat) : Kept { s with owed := s.owed.eraseIdx n } where
  nodup := h.nodup
  alloc := h.alloc
  ids := h.ids
  ledger := h.ledger
  owed := h.owed.sublist (List.eraseIdx_sublist _ _)
  sending := fun i hi => h.sending i (List.mem_of_mem_eraseIdx hi)
  timers := h.timers
  handed := h.handed
  stacked := h.stacked
  behind := h.behind

theorem Kept.wait (h : Kept s) (hidle : s.frames = []) (hi : i ∈ s.reqsList) (howed : i ∉ s.owed)
    (hid : x.id = s.idOf i) (hstate : x.state = .waiting) : Kept (s.setMem i x) := by
  have hanswering : s.answering = [] := by
    rw [answering, hidle]
    rfl
  have hids : ∀ j, (s.setMem i x).idOf j = s.idOf j := by
    intro j
    by_cases hji : j = i
    · subst hji
      exact (congrArg SendRequestState.id (update_self _ _ _)).trans hid
    · exact idOf_update rfl hji
  refine ⟨h.nodup, h.alloc, fun j k hj hk hjk => ?_, ?_, h.owed, fun j hj => ?_, fun j hj => ?_,
    fun j hj => ?_, h.stacked, fun n j hj => ?_⟩
  · rw [hids, hids] at hjk
    exact h.ids j k hj hk hjk
  · refine h.ledger.mono ?_ (Nat.le_refl _)
    rintro a ⟨j, hj, rfl⟩
    exact ⟨j, hj, (hids j).symm⟩
  · have hji : j ≠ i := by
      rintro rfl
      exact howed hj
    rw [stateOf_update rfl hji]
    exact h.sending j hj
  · by_cases hji : j = i
    · subst hji
      exact ⟨hi, (congrArg SendRequestState.state (update_self _ _ _)).trans hstate⟩
    · have htimer : (s.mem j).timer = true :=
        (congrArg SendRequestState.timer (update_of_ne hji _ _)).symm.trans hj
      rw [stateOf_update rfl hji]
      exact h.timers j htimer
  · exact absurd (hanswering ▸ hj : j ∈ []) List.not_mem_nil
  · exact absurd (hidle ▸ hj : _ ∈ []) List.not_mem_nil

theorem Kept.accept (h : Kept s) (hfree : s.allocated i = false)
    (halloc : t.allocated = update s.allocated i true)
    (hmem : t.mem = update s.mem i x) (hx : x.id = s.nRequests) (hstate : x.state = .sending)
    (htimer : x.timer = (s.mem i).timer) (hlist : t.reqsList = s.reqsList ++ [i])
    (hframes : t.frames = s.frames) (howed : t.owed = s.owed ++ [i]) (hn : t.nRequests = s.nRequests + 1)
    (hout : t.out = .accepted s.nRequests :: s.out) : Kept t := by
  have hnot := h.not_mem_of_free hfree
  have hnotList : i ∉ s.reqsList := fun hmem => hnot (List.mem_append_left _ hmem)
  have hnotOwed : i ∉ s.owed := fun hmem => hnotList (h.sending i hmem).1
  have hne : ∀ j, s.allocated j = true → j ≠ i := by
    rintro j hj rfl
    rw [hfree] at hj
    cases hj
  have hanswering : t.answering = s.answering := by
    rw [answering, hframes, answering]
  have hself : t.idOf i = s.nRequests := by
    rw [idOf, hmem, update_self, hx]
  have hselfState : t.stateOf i = .sending := by
    rw [stateOf, hmem, update_self, hstate]
  have hold : ∀ j, t.allocated j = true → j = i ∨ (j ≠ i ∧ s.allocated j = true) := by
    intro j hj
    by_cases hji : j = i
    · exact .inl hji
    · rw [halloc, update_of_ne hji] at hj
      exact .inr ⟨hji, hj⟩
  have hmemIff : ∀ j, j ∈ t.reqsList ++ t.answering ↔ j = i ∨ j ∈ s.reqsList ++ s.answering := by
    intro j
    rw [hlist, hanswering]
    simp only [List.mem_append, List.mem_singleton]
    tauto
  refine ⟨?_, fun j => ?_, fun j k hj hk hid => ?_, ?_, ?_, fun j hj => ?_, fun j hj => ?_,
    fun j hj => ?_, ?_, fun n j hj k hk => ?_⟩
  · rw [hlist, hanswering, List.append_assoc]
    refine List.nodup_middle.mpr ?_
    exact List.nodup_cons.mpr ⟨hnot, h.nodup⟩
  · rw [hmemIff, halloc]
    by_cases hji : j = i
    · rw [hji, update_self]
      exact ⟨fun _ => .inl rfl, fun _ => rfl⟩
    · rw [update_of_ne hji, h.alloc j]
      exact ⟨fun hin => .inr hin, fun hin => hin.resolve_left hji⟩
  · rcases hold j hj with rfl | ⟨hji, hj'⟩
    · rcases hold k hk with rfl | ⟨hki, hk'⟩
      · rfl
      · rw [hself, idOf_update hmem hki] at hid
        exact absurd hid (Nat.ne_of_gt (h.live_lt hk'))
    · rcases hold k hk with rfl | ⟨hki, hk'⟩
      · rw [hself, idOf_update hmem hji] at hid
        exact absurd hid (Nat.ne_of_lt (h.live_lt hj'))
      · rw [idOf_update hmem hji, idOf_update hmem hki] at hid
        exact h.ids j k hj' hk' hid
  · rw [hn, hout]
    refine h.ledger.accept ?_
    rintro a ⟨j, hj, rfl⟩
    rcases hold j hj with rfl | ⟨hji, hj'⟩
    · exact .inr hself
    · exact .inl ⟨j, hj', (idOf_update hmem hji).symm⟩
  · rw [howed]
    refine List.nodup_append.mpr ⟨h.owed, List.nodup_singleton i, fun j hj k hk hjk => ?_⟩
    exact hnotOwed (List.mem_singleton.mp hk ▸ hjk ▸ hj)
  · rw [howed] at hj
    rw [hlist]
    rcases List.mem_append.mp hj with hj | hj
    · obtain ⟨hin, hsending⟩ := h.sending j hj
      rw [stateOf_update hmem (hne j (h.allocated_of_list hin))]
      exact ⟨List.mem_append_left _ hin, hsending⟩
    · rw [List.mem_singleton.mp hj]
      exact ⟨List.mem_append_right _ List.mem_cons_self, hselfState⟩
  · by_cases hji : j = i
    · rw [hji, hmem, update_self, htimer] at hj
      exact absurd (h.timers i hj).1 hnotList
    · rw [hmem, update_of_ne hji] at hj
      rw [hlist, stateOf_update hmem hji]
      exact ⟨List.mem_append_left _ (h.timers j hj).1, (h.timers j hj).2⟩
  · rw [hanswering] at hj
    have hji : j ≠ i := by
      rintro rfl
      exact hnot (List.mem_append_right _ hj)
    rw [stateOf_update hmem hji]
    exact h.handed j hj
  · rw [hframes]
    exact h.stacked
  · rw [hframes] at hj
    rw [hlist] at hk
    by_cases hki : k = i
    · rw [hki]
      exact hselfState
    · rw [stateOf_update hmem hki]
      exact h.behind n j hj k ((mem_followers_append hk).resolve_right hki)

theorem Kept.fill (h : Kept s) (hfree : s.allocated i = false)
    (halloc : t.allocated = s.allocated) (hmem : t.mem = update s.mem i x)
    (htimer : x.timer = (s.mem i).timer) (hlist : t.reqsList = s.reqsList)
    (hframes : t.frames = s.frames) (howed : t.owed = s.owed) (hn : s.nRequests ≤ t.nRequests)
    (hout : t.out = s.out) : Kept t := by
  have hnot := h.not_mem_of_free hfree
  have hanswering : t.answering = s.answering := by
    rw [answering, hframes, answering]
  have hne : ∀ j, j ∈ s.reqsList ++ s.answering → j ≠ i := by
    rintro j hj rfl
    exact hnot hj
  have hids : ∀ j, s.allocated j = true → t.idOf j = s.idOf j := fun j hj =>
    idOf_update hmem (hne j ((h.alloc j).mp hj))
  refine ⟨?_, fun j => ?_, fun j k hj hk hid => ?_, ?_, ?_, fun j hj => ?_, fun j hj => ?_,
    fun j hj => ?_, ?_, fun n j hj k hk => ?_⟩
  · rw [hlist, hanswering]
    exact h.nodup
  · rw [halloc, hlist, hanswering]
    exact h.alloc j
  · rw [halloc] at hj hk
    rw [hids j hj, hids k hk] at hid
    exact h.ids j k hj hk hid
  · rw [hout]
    refine h.ledger.mono ?_ hn
    rintro a ⟨j, hj, rfl⟩
    rw [halloc] at hj
    exact ⟨j, hj, (hids j hj).symm⟩
  · rw [howed]
    exact h.owed
  · rw [howed] at hj
    obtain ⟨hin, hsending⟩ := h.sending j hj
    rw [hlist, stateOf_update hmem (hne j (List.mem_append_left _ hin))]
    exact ⟨hin, hsending⟩
  · by_cases hji : j = i
    · rw [hji, hmem, update_self, htimer] at hj
      exact absurd (List.mem_append_left _ (h.timers i hj).1) hnot
    · rw [hmem, update_of_ne hji] at hj
      rw [hlist, stateOf_update hmem hji]
      exact h.timers j hj
  · rw [hanswering] at hj
    rw [stateOf_update hmem (hne j (List.mem_append_right _ hj))]
    exact h.handed j hj
  · rw [hframes]
    exact h.stacked
  · rw [hframes] at hj
    rw [hlist] at hk
    rw [stateOf_update hmem (hne k (List.mem_append_left _ (mem_of_mem_followers hk)))]
    exact h.behind n j hj k hk

theorem Kept.hand (h : Kept s) (hidle : s.frames = []) (hi : i ∈ s.reqsList)
    (hwaiting : s.stateOf i = .waiting) (halloc : t.allocated = s.allocated)
    (hmem : t.mem = update s.mem i x) (hid : x.id = s.idOf i) (hstate : x.state = .done)
    (htimer : x.timer = false) (hlist : t.reqsList = s.reqsList.erase i)
    (hframes : t.frames = [.response i]) (howed : t.owed = s.owed) (hn : t.nRequests = s.nRequests)
    (hout : t.out = .answered (s.idOf i) :: s.out) : Kept t := by
  have hanswering : s.answering = [] := by
    rw [answering, hidle]
    rfl
  have hanswering' : t.answering = [i] := by
    rw [answering, hframes]
    rfl
  have hnodup : s.reqsList.Nodup := (List.nodup_append.mp h.nodup).1
  have hnotOwed : i ∉ s.owed := h.not_owed (by rw [hwaiting]; decide)
  have hperm : (t.reqsList ++ t.answering).Perm (s.reqsList ++ s.answering) := by
    rw [hlist, hanswering, hanswering', List.append_nil]
    exact List.perm_append_comm.trans (List.perm_cons_erase hi).symm
  have hids : ∀ j, t.idOf j = s.idOf j := by
    intro j
    by_cases hji : j = i
    · rw [hji, idOf, hmem, update_self, hid]
    · exact idOf_update hmem hji
  refine ⟨hperm.nodup_iff.mpr h.nodup, fun j => ?_, fun j k hj hk hjk => ?_, ?_, ?_, fun j hj => ?_,
    fun j hj => ?_, fun j hj => ?_, ?_, fun n j hj => ?_⟩
  · rw [halloc, hperm.mem_iff]
    exact h.alloc j
  · rw [halloc] at hj hk
    rw [hids, hids] at hjk
    exact h.ids j k hj hk hjk
  · rw [hn, hout]
    have hlive : s.Live (s.idOf i) := ⟨i, h.allocated_of_list hi, rfl⟩
    refine h.ledger.call hlive (fun b hb => (eq_of_beq hb).symm) ?_ fun _ _ => rfl
    rintro b ⟨j, hj, rfl⟩
    rw [halloc] at hj
    exact ⟨j, hj, (hids j).symm⟩
  · rw [howed]
    exact h.owed
  · rw [howed] at hj
    have hji : j ≠ i := by
      rintro rfl
      exact hnotOwed hj
    rw [hlist, stateOf_update hmem hji]
    exact ⟨(List.mem_erase_of_ne hji).mpr (h.sending j hj).1, (h.sending j hj).2⟩
  · by_cases hji : j = i
    · rw [hji, hmem, update_self, htimer] at hj
      cases hj
    · rw [hmem, update_of_ne hji] at hj
      rw [hlist, stateOf_update hmem hji]
      exact ⟨(List.mem_erase_of_ne hji).mpr (h.timers j hj).1, (h.timers j hj).2⟩
  · rw [hanswering'] at hj
    rw [List.mem_singleton.mp hj, stateOf, hmem, update_self, hstate]
  · rw [hframes]
    rfl
  · rw [hframes] at hj
    cases List.mem_singleton.mp hj

theorem Kept.returned (h : Kept s) {more : Bool} (hframes : s.frames = [.response i])
    (halloc : t.allocated = if more then s.allocated else update s.allocated i false)
    (hmem : ∀ j, j ≠ i → t.mem j = s.mem j) (hid : t.idOf i = s.idOf i)
    (hstate : more = true → t.stateOf i = .waiting)
    (htimer : more = false → (t.mem i).timer = (s.mem i).timer)
    (hlist : t.reqsList = if more then s.reqsList ++ [i] else s.reqsList) (hidle : t.frames = [])
    (howed : t.owed = s.owed) (hn : t.nRequests = s.nRequests)
    (hout : t.out = .returned (s.idOf i) more :: s.out) : Kept t := by
  have hanswering : s.answering = [i] := by
    rw [answering, hframes]
    rfl
  have hanswering' : t.answering = [] := by
    rw [answering, hidle]
    rfl
  have hnodup := List.nodup_append.mp h.nodup
  have hnot : i ∉ s.reqsList := fun hmem =>
    hnodup.2.2 i hmem i (by rw [hanswering]; exact List.mem_cons_self) rfl
  have hne : ∀ j ∈ s.reqsList, j ≠ i := by
    rintro j hj rfl
    exact hnot hj
  have hon : s.allocated i = true :=
    (h.alloc i).mpr (List.mem_append_right _ (by rw [hanswering]; exact List.mem_cons_self))
  have hids : ∀ j, t.idOf j = s.idOf j := by
    intro j
    by_cases hji : j = i
    · rw [hji, hid]
    · rw [idOf, hmem j hji, idOf]
  have hstates : ∀ j, j ≠ i → t.stateOf j = s.stateOf j := fun j hji => by
    rw [stateOf, hmem j hji, stateOf]
  have hsub : ∀ j ∈ s.reqsList, j ∈ t.reqsList := by
    intro j hj
    rw [hlist]
    split
    · exact List.mem_append_left _ hj
    · exact hj
  have hleft : ∀ j, t.allocated j = true → s.allocated j = true ∧ (more = false → j ≠ i) := by
    intro j hj
    rw [halloc] at hj
    cases more with
    | true => exact ⟨hj, fun hf => by cases hf⟩
    | false =>
      rw [if_neg Bool.false_ne_true] at hj
      by_cases hji : j = i
      · rw [hji, update_self] at hj
        cases hj
      · rw [update_of_ne hji] at hj
        exact ⟨hj, fun _ => hji⟩
  refine ⟨?_, fun j => ?_, fun j k hj hk hjk => ?_, ?_, ?_, fun j hj => ?_, fun j hj => ?_,
    fun j hj => ?_, ?_, fun n j hj => ?_⟩
  · rw [hanswering', hlist, List.append_nil]
    cases more with
    | true =>
      rw [if_pos rfl, ← hanswering]
      exact h.nodup
    | false => exact hnodup.1
  · rw [hanswering', hlist, List.append_nil, halloc]
    cases more with
    | true =>
      rw [if_pos rfl, if_pos rfl, ← hanswering]
      exact h.alloc j
    | false =>
      rw [if_neg Bool.false_ne_true, if_neg Bool.false_ne_true]
      by_cases hji : j = i
      · rw [hji, update_self]
        exact ⟨fun hf => absurd hf Bool.false_ne_true, fun hin => absurd hin hnot⟩
      · rw [update_of_ne hji, h.alloc j, hanswering, List.mem_append, List.mem_singleton]
        exact ⟨fun hin => hin.resolve_right hji, fun hin => .inl hin⟩
  · rw [hids, hids] at hjk
    exact h.ids j k (hleft j hj).1 (hleft k hk).1 hjk
  · rw [hn, hout]
    refine h.ledger.call ⟨i, hon, rfl⟩ (fun b hb => (eq_of_beq hb).symm) ?_ ?_
    · rintro b ⟨j, hj, rfl⟩
      exact ⟨j, (hleft j hj).1, (hids j).symm⟩
    · rintro b ⟨j, hj, rfl⟩
      cases more with
      | true => exact Bool.and_false _
      | false =>
        obtain ⟨hj', hji⟩ := hleft j hj
        rw [ReqOut.ends, Bool.not_false, Bool.and_true, hids]
        refine beq_eq_false_iff_ne.mpr fun heq => ?_
        exact hji rfl (h.ids j i hj' hon heq.symm)
  · rw [howed]
    exact h.owed
  · rw [howed] at hj
    obtain ⟨hin, hsending⟩ := h.sending j hj
    rw [hstates j (hne j hin)]
    exact ⟨hsub j hin, hsending⟩
  · by_cases hji : j = i
    · subst hji
      cases more with
      | true =>
        refine ⟨?_, hstate rfl⟩
        rw [hlist, if_pos rfl]
        exact List.mem_append_right _ List.mem_cons_self
      | false =>
        rw [htimer rfl] at hj
        exact absurd (h.timers j hj).1 hnot
    · rw [hmem j hji] at hj
      rw [hstates j hji]
      exact ⟨hsub j (h.timers j hj).1, (h.timers j hj).2⟩
  · rw [hanswering'] at hj
    cases hj
  · rw [hidle]
    trivial
  · rw [hidle] at hj
    cases hj

end Changes

end SendRequest

end ZipGateway

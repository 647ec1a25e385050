import Mathlib.Tactic.IntervalCases
import ZipGateway.Multicast.AutoSplit

/-!
# The rounds of a split multicast

A call makes one multicast for every security class that is the highest of a listed node, to the nodes
of that class, and with follow-ups it makes a second round. In the second round every classic node of a
class gets one follow-up, in increasing order. An abort cuts the rounds short, and a send that the S2
layer refuses has no follow-ups behind it.
-/

set_option maxRecDepth 8000

namespace ZipGateway.MulticastSplit

open Bitmap (Marked mark)

section Claims

namespace Call

variable (c : Call)

def inClass (cls n : Nat) : Bool :=
  testNode n c.nodeList ∧ subMaskOf (c.flags n) = some (cls + 1)

def isUsed (cls : Nat) : Bool :=
  (List.range' 1 zwMaxNodes).any (c.inClass cls)

def roundOf (state : Nat) : Option (Nat × Bool) :=
  match classOfState state with
  | some cls => if c.isUsed cls then some (cls, decide (mcAutoC2 < state)) else none
  | none => none

def roundsUpTo (state : Nat) : List (Nat × Bool) :=
  (List.range' 1 state).filterMap c.roundOf

def lastState : Nat :=
  if c.followups then mcAutoC2Fu else mcAutoC2

def rounds : List (Nat × Bool) :=
  c.roundsUpTo c.lastState

def classicBelow (cls bound : Nat) : List Nat :=
  (List.range' 1 (bound - 1)).filter (c.inClass cls)

def classicNodes (cls : Nat) : List Nat :=
  c.classicBelow cls (zwClassicMaxNodes + 1)

end Call

def Out.multicast? : Out → Option (Nat × Bool)
  | .multicast cls followups _ _ _ => some (cls, followups)
  | _ => none

def Out.followup? (cls : Nat) : Out → Option Nat
  | .followup cls' node _ _ => if cls' = cls then some node else none
  | _ => none

def Out.isCalled : Out → Bool
  | .called _ => true
  | _ => false

def Out.isRefusal (cls : Nat) : Out → Bool
  | .multicast cls' true _ _ false => cls' = cls
  | .followup cls' _ _ false => cls' = cls
  | _ => false

namespace State

variable (s : State)

def multicasts : List (Nat × Bool) :=
  s.log.filterMap Out.multicast?

def followups (cls : Nat) : List Nat :=
  s.log.filterMap (Out.followup? cls)

def Aborted : Prop :=
  .aborted ∈ s.log

def Refused (cls : Nat) : Prop :=
  ∃ x ∈ s.log, x.isRefusal cls = true

end State

/-- A follow-up comes after an accepted multicast of its class. -/
def Requested (log : List Out) : Prop :=
  ∀ before after cls node data taken, log = before ++ .followup cls node data taken :: after →
    ∃ nodes data, .multicast cls true nodes data true ∈ before

structure Split (s : State) : Prop where
  rounds : s.multicasts <+: s.call.rounds
  nodes : ∀ cls followups nodes data taken, .multicast cls followups nodes data taken ∈ s.log →
    ∀ n, testNode n nodes = s.call.inClass cls n
  followups : ∀ cls, s.followups cls <+: s.call.classicNodes cls
  requested : Requested s.log
  complete : s.state = mcAutoIdle → ¬s.Aborted → s.multicasts = s.call.rounds ∧
    ∀ cls, (cls, true) ∈ s.call.rounds → ¬s.Refused cls → s.followups cls = s.call.classicNodes cls
  once : s.log.countP Out.isCalled = if s.state = mcAutoIdle then 1 else 0
  waits : s.state ≠ mcAutoIdle → s.outstanding = true

end Claims

section Masks

theorem isValid_iff {n : Nat} : isValid n = true ↔ 0 < n ∧ n ≤ 232 ∨ 256 ≤ n ∧ n ≤ 4000 := by
  simp only [isValid, isClassic, isLr, Bool.or_eq_true, Bool.and_eq_true, decide_eq_true_eq]
  rfl

theorem bitOf_eq (n : Nat) : bitOf n = if 0 < n ∧ n ≤ 232 then n - 1 else n := by
  simp only [bitOf, isClassic, Bool.and_eq_true, decide_eq_true_eq]
  rfl

theorem bitOf_inj {m n : Nat} (hm : isValid m = true) (hn : isValid n = true) (h : bitOf m = bitOf n) : m = n := by
  rw [isValid_iff] at hm hn
  rw [bitOf_eq, bitOf_eq] at h
  split_ifs at h <;> omega

theorem bitOf_lt {n : Nat} (hn : isValid n = true) : bitOf n / 8 < nodemaskSize := by
  rw [isValid_iff] at hn
  rw [bitOf_eq]
  show _ < 501
  split_ifs <;> omega

theorem mem_range'_of_isValid {n : Nat} (hn : isValid n = true) : n ∈ List.range' 1 zwMaxNodes := by
  rw [isValid_iff] at hn
  rw [List.mem_range'_1]
  show 1 ≤ n ∧ n < 1 + 4000
  omega

theorem exists_bit {x : UInt8} (hx : x ≠ 0) : ∃ j < 8, x &&& (1 <<< UInt8.ofNat j) ≠ 0 := by
  have hall : ∀ n : Fin 256, n ≠ 0 → ∃ j < 8, UInt8.ofFin n &&& (1 <<< UInt8.ofNat j) ≠ 0 := by
    decide
  refine hall x.toFin ?_
  intro hzero
  exact hx (UInt8.toFin_inj.mp hzero)

variable {c : Call} {cls k n : Nat}

theorem marked_splitNode (subMask : Nat → Mem) (n k i : Nat) : Marked (splitNode c subMask n k) i ↔
      (testNode n c.nodeList = true ∧ subMaskOf (c.flags n) = some k ∧ bitOf n = i) ∨ Marked (subMask k) i := by
  unfold splitNode
  by_cases htest : testNode n c.nodeList = true
  · have hvalid : isValid n = true := by
      simp only [testNode, decide_eq_true_eq] at htest
      exact htest.1
    rw [if_pos htest]
    cases hsub : subMaskOf (c.flags n) with
    | none => simp
    | some j =>
      by_cases hk : j = k
      · subst hk
        simp only [Function.update_self, addNode, hvalid, if_true, Bitmap.marked_mark, htest, true_and]
      · simp only [Function.update_of_ne (Ne.symm hk), Option.some.injEq, hk, false_and, and_false, false_or]
  · rw [if_neg htest]
    simp [htest]

theorem marked_foldl_splitNode (nodes : List Nat) (subMask : Nat → Mem) (k i : Nat) :
    Marked (nodes.foldl (splitNode c) subMask k) i ↔
      (∃ n ∈ nodes, testNode n c.nodeList = true ∧ subMaskOf (c.flags n) = some k ∧ bitOf n = i) ∨
        Marked (subMask k) i := by
  induction nodes generalizing subMask with
  | nil => simp
  | cons n nodes ih =>
    rw [List.foldl_cons, ih, marked_splitNode]
    simp only [List.mem_cons, or_and_right, exists_or, exists_eq_left]
    rw [← or_assoc, or_comm (b := testNode n c.nodeList = true ∧ _)]

theorem marked_splitNodes (k i : Nat) : Marked (splitNodes c k) i ↔
      ∃ n, testNode n c.nodeList = true ∧ subMaskOf (c.flags n) = some k ∧ bitOf n = i := by
  rw [splitNodes, marked_foldl_splitNode]
  constructor
  · rintro (⟨n, -, h⟩ | hmarked)
    · exact ⟨n, h⟩
    · exact absurd hmarked (Bitmap.not_marked_zero i)
  · rintro ⟨n, htest, h⟩
    refine .inl ⟨n, mem_range'_of_isValid ?_, htest, h⟩
    simp only [testNode, decide_eq_true_eq] at htest
    exact htest.1

theorem testNode_splitNodes (c : Call) (cls n : Nat) : testNode n (splitNodes c (cls + 1)) = c.inClass cls n := by
  rw [Bool.eq_iff_iff]
  simp only [testNode, Call.inClass, decide_eq_true_eq, marked_splitNodes]
  constructor
  · rintro ⟨hvalid, m, ⟨hm, hmarked⟩, hsub, hbit⟩
    obtain rfl := bitOf_inj hm hvalid hbit
    exact ⟨⟨hm, hmarked⟩, hsub⟩
  · rintro ⟨⟨hvalid, hmarked⟩, hsub⟩
    exact ⟨hvalid, n, ⟨hvalid, hmarked⟩, hsub, rfl⟩

theorem isEmptyMask_splitNodes (c : Call) (cls : Nat) : isEmptyMask (splitNodes c (cls + 1)) = !c.isUsed cls := by
  rw [Bool.eq_iff_iff, Bool.not_eq_true', ← Bool.not_eq_true, isEmptyMask, Call.isUsed, List.any_eq_true,
    List.all_eq_true]
  constructor
  · rintro hempty ⟨n, -, hn⟩
    rw [← testNode_splitNodes] at hn
    simp only [testNode, decide_eq_true_eq] at hn
    have hbyte := hempty (bitOf n / 8) (List.mem_range.mpr (bitOf_lt hn.1))
    have hzero : splitNodes c (cls + 1) (bitOf n / 8) = 0 := by simpa using hbyte
    refine hn.2 ?_
    rw [hzero]
    simp
  · intro hunused i hi
    by_contra hbyte
    have hne : splitNodes c (cls + 1) i ≠ 0 := by simpa using hbyte
    obtain ⟨j, hj, hbit⟩ := exists_bit hne
    have hmarked : Marked (splitNodes c (cls + 1)) (8 * i + j) := by
      unfold Marked
      have hdiv : (8 * i + j) / 8 = i := by omega
      have hmod : (8 * i + j) % 8 = j := by omega
      rwa [hdiv, hmod]
    obtain ⟨n, htest, hsub, -⟩ := (marked_splitNodes _ _).mp hmarked
    refine hunused ⟨n, mem_range'_of_isValid ?_, ?_⟩
    · simp only [testNode, decide_eq_true_eq] at htest
      exact htest.1
    · simp [Call.inClass, htest, hsub]

end Masks

section Nodes

variable {c : Call} {cls : Nat}

theorem classicBelow_succ (c : Call) (cls : Nat) {b : Nat} (hb : 1 ≤ b) :
    c.classicBelow cls (b + 1) = c.classicBelow cls b ++ if c.inClass cls b then [b] else [] := by
  obtain ⟨b, rfl⟩ := Nat.exists_eq_add_of_le' hb
  unfold Call.classicBelow
  rw [Nat.add_sub_cancel, Nat.add_sub_cancel, List.range'_1_concat, List.filter_append, Nat.add_comm 1 b]
  by_cases hin : c.inClass cls (b + 1) = true
  · rw [if_pos hin, List.filter_cons_of_pos hin, List.filter_nil]
  · rw [if_neg hin, List.filter_cons_of_neg hin, List.filter_nil]

theorem classicBelow_prefix (c : Call) (cls : Nat) {b b' : Nat} (h : b ≤ b') :
    c.classicBelow cls b <+: c.classicBelow cls b' := by
  unfold Call.classicBelow
  refine List.IsPrefix.filter _ ⟨List.range' (1 + (b - 1)) (b' - 1 - (b - 1)), ?_⟩
  rw [List.range'_append_1]
  congr 1
  omega

theorem classicBelow_skip {r r' : Nat} (hr : 1 ≤ r) (hle : r ≤ r')
    (hnone : ∀ n, r ≤ n → n < r' → c.inClass cls n = false) :
    c.classicBelow cls r' = c.classicBelow cls r := by
  induction r', hle using Nat.le_induction with
  | base => rfl
  | succ r' hle ih =>
    rw [classicBelow_succ c cls (hr.trans hle), ih fun n hn hlt => hnone n hn (Nat.lt_succ_of_lt hlt),
      hnone r' hle (Nat.lt_succ_self r')]
    simp

theorem nextNode_spec {mask : Mem} (hmask : ∀ n, testNode n mask = c.inClass cls n) {r : Nat}
    (hr : 1 ≤ r) (hr' : r ≤ 233) :
    r ≤ nextNode mask r ∧ nextNode mask r ≤ 233 ∧ (∀ n, r ≤ n → n < nextNode mask r → c.inClass cls n = false) ∧
      (nextNode mask r ≤ 232 → c.inClass cls (nextNode mask r) = true) := by
  unfold nextNode
  by_cases hvalid : isValid r = true
  · rw [if_pos hvalid]
    have hmax : zwClassicMaxNodes + 1 = 233 := rfl
    rw [hmax]
    cases hfind : (List.range' r (233 - r)).find? fun n => testNode n mask with
    | some n =>
      obtain ⟨htest, hmem, hfirst⟩ := List.find?_range'_eq_some.mp hfind
      rw [List.mem_range'_1] at hmem
      refine ⟨by simp only [Option.getD_some]; omega, by simp only [Option.getD_some]; omega, ?_, ?_⟩
      · intro j hj hlt
        have := hfirst j hj (by simpa using hlt)
        rw [← hmask]
        simpa using this
      · intro _
        rw [Option.getD_some, ← hmask]
        exact htest
    | none =>
      rw [List.find?_range'_eq_none] at hfind
      refine ⟨by simp only [Option.getD_none]; omega, by simp, ?_, by simp⟩
      intro j hj hlt
      have hlt : j < 233 := by simpa using hlt
      have := hfind j hj (by omega)
      rw [← hmask]
      simpa using this
  · rw [if_neg hvalid]
    rw [isValid_iff] at hvalid
    refine ⟨Nat.le_refl r, hr', fun n hn hlt => absurd hlt (by omega), fun hle => ?_⟩
    omega

end Nodes

section Log

variable {c : Call} {s t : State} {x : Out} {k cls : Nat}

theorem roundsUpTo_succ (c : Call) (k : Nat) : c.roundsUpTo (k + 1) = c.roundsUpTo k ++ (c.roundOf (k + 1)).toList := by
  unfold Call.roundsUpTo
  rw [List.range'_1_concat, List.filterMap_append, Nat.add_comm 1 k]
  cases hround : c.roundOf (k + 1) with
  | none => simp [hround]
  | some p => simp [hround]

theorem roundsUpTo_prefix (c : Call) {k k' : Nat} (h : k ≤ k') : c.roundsUpTo k <+: c.roundsUpTo k' := by
  induction k', h using Nat.le_induction with
  | base => exact List.prefix_refl _
  | succ k' _ ih =>
    rw [roundsUpTo_succ]
    exact ih.trans (List.prefix_append _ _)

def Over (s : State) (cls : Nat) : Prop :=
  s.Aborted ∨ s.Refused cls ∨ s.followups cls = s.call.classicNodes cls

structure Sends (s : State) (k : Nat) : Prop where
  subMask : s.subMask = splitNodes s.call
  termination : s.terminationState = s.call.lastState
  le : k ≤ s.call.lastState
  multicasts : s.multicasts = s.call.roundsUpTo k
  nodes : ∀ cls followups nodes data taken, .multicast cls followups nodes data taken ∈ s.log →
    ∀ n, testNode n nodes = s.call.inClass cls n
  followups : ∀ cls, s.followups cls <+: s.call.classicNodes cls
  requested : Requested s.log
  later : ∀ cls, k < cls + 4 → s.followups cls = []
  uncalled : s.log.countP Out.isCalled = 0
  aborted : s.abort = true → s.Aborted

structure Passed (s : State) (k : Nat) : Prop extends Sends s k where
  settled : ∀ cls, cls + 4 ≤ k → Over s cls
  mc : s.mc = .idle
  outstanding : s.outstanding = false

structure Reached (s : State) (bound : Nat) : Prop where
  second : 3 < s.state
  taken : ∃ nodes data, .multicast s.s2Class true nodes data true ∈ s.log
  pos : 1 ≤ bound
  le : bound ≤ 233
  followups : s.followups s.s2Class = s.call.classicBelow s.s2Class bound

def Progress (s : State) : Prop :=
  match s.mc with
  | .idle => False
  | .sendFirstNoFollowup => s.state ≤ 3
  | .sendFirst => Reached s s.rNode.toNat
  | .send => s.rNode.toNat ≤ 232 ∧ Reached s (s.rNode.toNat + 1)
  | .abort => s.Aborted

structure Held (s : State) : Prop extends Sends s s.state where
  settled : ∀ cls, cls + 4 < s.state → Over s cls
  pos : 1 ≤ s.state
  callback : s.s2SendCallback = true
  nodeList : s.nodeList = s.subMask (nodeMaskMap s.state)
  s2Class : classOfState s.state = some s.s2Class

structure Running (s : State) : Prop extends Held s where
  outstanding : s.outstanding = true
  progress : Progress s

/-- No call is under way, and the last one was as claimed. -/
structure Idle (s : State) : Prop where
  state : s.state = mcAutoIdle
  mc : s.mc = .idle
  outstanding : s.outstanding = false
  split : 0 < s.calls → Split s

theorem lastState_le (c : Call) : c.lastState ≤ 6 := by
  unfold Call.lastState
  split <;> decide

structure SameCall (s t : State) : Prop where
  call : t.call = s.call
  subMask : t.subMask = s.subMask
  terminationState : t.terminationState = s.terminationState
  abort : t.abort = s.abort

theorem Requested.concat {log : List Out} (h : Requested log)
    (hx : ∀ cls node data taken, x = .followup cls node data taken →
      ∃ nodes data, .multicast cls true nodes data true ∈ log) : Requested (log ++ [x]) := by
  intro before after cls node data taken heq
  rcases List.eq_nil_or_concat after with rfl | ⟨after, y, rfl⟩
  · obtain ⟨rfl, hlast⟩ := List.append_inj' heq rfl
    exact hx cls node data taken (List.head_eq_of_cons_eq hlast)
  · rw [List.concat_eq_append, ← List.cons_append, ← List.append_assoc] at heq
    exact h _ _ _ _ _ _ (List.append_inj' heq rfl).1

theorem followups_append {s t : State} {x : Out} (hlog : t.log = s.log ++ [x]) (cls : Nat) :
    t.followups cls = s.followups cls ++ (x.followup? cls).toList := by
  unfold State.followups
  rw [hlog, List.filterMap_append]
  cases hx : x.followup? cls with
  | none => simp [hx]
  | some n => simp [hx]

theorem multicasts_append {s t : State} {x : Out} (hlog : t.log = s.log ++ [x]) :
    t.multicasts = s.multicasts ++ x.multicast?.toList := by
  unfold State.multicasts
  rw [hlog, List.filterMap_append]
  cases hx : x.multicast? with
  | none => simp [hx]
  | some p => simp [hx]

theorem Over.congr (h : Over s cls) (hsame : SameCall s t) (hlog : t.log = s.log) : Over t cls := by
  unfold Over State.Aborted State.Refused State.followups at h ⊢
  rw [hlog, hsame.call]
  exact h

theorem Over.append (h : Over s cls) (hsame : SameCall s t) (hlog : t.log = s.log ++ [x])
    (hx : x.followup? cls = none) : Over t cls := by
  rcases h with haborted | ⟨y, hy, hrefused⟩ | hall
  · refine .inl ?_
    unfold State.Aborted
    rw [hlog]
    exact List.mem_append_left _ haborted
  · refine .inr (.inl ⟨y, ?_, hrefused⟩)
    rw [hlog]
    exact List.mem_append_left _ hy
  · refine .inr (.inr ?_)
    rw [followups_append hlog, hx, hsame.call, hall]
    simp

theorem Sends.congr (h : Sends s k) (hsame : SameCall s t) (hlog : t.log = s.log) : Sends t k := by
  refine ⟨?_, ?_, ?_, ?_, ?_, ?_, ?_, ?_, ?_, ?_⟩
  · rw [hsame.subMask, hsame.call, h.subMask]
  · rw [hsame.terminationState, hsame.call, h.termination]
  · rw [hsame.call]
    exact h.le
  · unfold State.multicasts
    rw [hlog, hsame.call]
    exact h.multicasts
  · rw [hlog, hsame.call]
    exact h.nodes
  · unfold State.followups
    rw [hlog, hsame.call]
    exact h.followups
  · rw [hlog]
    exact h.requested
  · unfold State.followups
    rw [hlog]
    exact h.later
  · rw [hlog]
    exact h.uncalled
  · unfold State.Aborted
    rw [hlog, hsame.abort]
    exact h.aborted

theorem Sends.skip (h : Sends s k) (hk : k < s.call.lastState) (hround : s.call.roundOf (k + 1) = none)
    (hsame : SameCall s t) (hlog : t.log = s.log) : Sends t (k + 1) := by
  have hcongr := h.congr hsame hlog
  refine { hcongr with le := ?_, multicasts := ?_, later := ?_ }
  · rw [hsame.call]
    exact hk
  · rw [hcongr.multicasts, roundsUpTo_succ, hsame.call, hround]
    simp
  · intro cls hcls
    exact hcongr.later cls (by omega)

theorem Sends.append (h : Sends s k) {k' : Nat} (hk : k ≤ k') (hk' : k' ≤ s.call.lastState)
    (hrounds : s.call.roundsUpTo k' = s.call.roundsUpTo k ++ x.multicast?.toList)
    (hnodes : ∀ cls followups nodes data taken, x = .multicast cls followups nodes data taken →
      ∀ n, testNode n nodes = s.call.inClass cls n)
    (hfollowup : ∀ cls node, x.followup? cls = some node → cls + 4 ≤ k' ∧
      s.followups cls ++ [node] <+: s.call.classicNodes cls ∧
      ∃ nodes data, .multicast cls true nodes data true ∈ s.log)
    (hcalled : x.isCalled = false) (hcall : t.call = s.call) (hsubMask : t.subMask = s.subMask)
    (htermination : t.terminationState = s.terminationState)
    (habort : t.abort = s.abort ∨ x = .aborted) (hlog : t.log = s.log ++ [x]) : Sends t k' := by
  have hold : ∀ y ∈ s.log, y ∈ t.log := by
    intro y hy
    rw [hlog]
    exact List.mem_append_left _ hy
  refine ⟨?_, ?_, ?_, ?_, ?_, ?_, ?_, ?_, ?_, ?_⟩
  · rw [hsubMask, hcall, h.subMask]
  · rw [htermination, hcall, h.termination]
  · rw [hcall]
    exact hk'
  · rw [multicasts_append hlog, hcall, hrounds, h.multicasts]
  · intro cls followups nodes data taken hmem
    rw [hlog] at hmem
    rw [hcall]
    obtain hmem | hmem := List.mem_append.mp hmem
    · exact h.nodes _ _ _ _ _ hmem
    · exact hnodes _ _ _ _ _ (List.mem_singleton.mp hmem).symm
  · intro cls
    rw [followups_append hlog, hcall]
    cases hx : x.followup? cls with
    | none => simpa using h.followups cls
    | some node => exact (hfollowup cls node hx).2.1
  · rw [hlog]
    refine h.requested.concat fun cls node data taken hx => (hfollowup cls node ?_).2.2
    rw [hx, Out.followup?, if_pos rfl]
  · intro cls hcls
    rw [followups_append hlog, h.later cls (by omega)]
    cases hx : x.followup? cls with
    | none => rfl
    | some node => exact absurd (hfollowup cls node hx).1 (by omega)
  · rw [hlog, List.countP_append, h.uncalled]
    simp [hcalled]
  · intro haborted
    obtain hsame | rfl := habort
    · rw [hsame] at haborted
      exact hold _ (h.aborted haborted)
    · unfold State.Aborted
      simp [hlog]

theorem Sends.multicast (h : Sends s k) (hk : k < s.call.lastState) {followups : Bool} {nodes : Mem}
    {data : Bytes} {taken : Bool} (hround : s.call.roundOf (k + 1) = some (cls, followups))
    (hnodes : ∀ n, testNode n nodes = s.call.inClass cls n) (hsame : SameCall s t)
    (hlog : t.log = s.log ++ [.multicast cls followups nodes data taken]) : Sends t (k + 1) := by
  refine h.append (Nat.le_succ k) hk ?_ ?_ ?_ rfl hsame.call hsame.subMask hsame.terminationState
    (.inl hsame.abort) hlog
  · rw [roundsUpTo_succ, hround]
    rfl
  · rintro cls' followups' nodes' data' taken' ⟨⟩
    exact hnodes
  · intro cls' node hx
    cases hx

theorem Sends.followup (h : Sends s k) (hk : k = cls + 4) {node : Nat} {data : Bytes} {taken : Bool}
    (hpre : s.followups cls ++ [node] <+: s.call.classicNodes cls)
    (hrequested : ∃ nodes data, .multicast cls true nodes data true ∈ s.log) (hsame : SameCall s t)
    (hlog : t.log = s.log ++ [.followup cls node data taken]) : Sends t k := by
  refine h.append (Nat.le_refl k) h.le (List.append_nil _).symm ?_ ?_ rfl hsame.call hsame.subMask
    hsame.terminationState (.inl hsame.abort) hlog
  · rintro cls' followups' nodes' data' taken' ⟨⟩
  · intro cls' node' hx
    simp only [Out.followup?] at hx
    split_ifs at hx with hcls
    cases hx
    subst hcls
    exact ⟨hk.ge, hpre, hrequested⟩

theorem Sends.abort (h : Sends s k) (hcall : t.call = s.call) (hsubMask : t.subMask = s.subMask)
    (htermination : t.terminationState = s.terminationState) (hlog : t.log = s.log ++ [.aborted]) :
    Sends t k := by
  refine h.append (Nat.le_refl k) h.le (List.append_nil _).symm ?_ ?_ rfl hcall hsubMask htermination (.inr rfl) hlog
  · rintro cls' followups' nodes' data' taken' ⟨⟩
  · intro cls' node' hx
    cases hx

end Log

section Steps

variable {s t : State} {k n : Nat} {status : UInt8}

theorem state_facts {k : Nat} (hk : k < 6) : ∃ cls, classOfState (k + 1) = some cls ∧
    nodeMaskMap (k + 1) = cls + 1 ∧ (3 < k + 1 → k + 1 = cls + 4) := by
  interval_cases k <;> exact ⟨_, rfl, rfl, by decide⟩

theorem add_four_le_of_mem_rounds {c : Call} {cls : Nat} (h : (cls, true) ∈ c.roundsUpTo k) (hk : k ≤ 6) :
    cls + 4 ≤ k := by
  obtain ⟨state, hstate, hround⟩ := List.mem_filterMap.mp h
  rw [List.mem_range'_1] at hstate
  obtain ⟨j, rfl⟩ := Nat.exists_eq_add_of_le' hstate.1
  obtain ⟨cls', hclass, -, hfour⟩ := state_facts (k := j) (by omega)
  unfold Call.roundOf at hround
  rw [hclass] at hround
  simp only at hround
  split_ifs at hround
  obtain ⟨rfl, hlt⟩ : cls' = cls ∧ mcAutoC2 < j + 1 := by simpa using hround
  have := hfour hlt
  omega

theorem Passed.finish (h : Passed s k) (hend : k = s.call.lastState ∨ s.abort = true) :
    Idle ({ s with state := mcAutoIdle }.put (.called status)) := by
  have hlog : ({ s with state := mcAutoIdle }.put (.called status)).log = s.log ++ [.called status] := rfl
  have hfollowups : ∀ cls, ({ s with state := mcAutoIdle }.put (.called status)).followups cls = s.followups cls := by
    intro cls
    rw [followups_append hlog]
    exact List.append_nil _
  have hmulticasts : ({ s with state := mcAutoIdle }.put (.called status)).multicasts = s.call.roundsUpTo k := by
    rw [multicasts_append hlog, h.multicasts]
    exact List.append_nil _
  refine ⟨rfl, h.mc, h.outstanding, fun _ => ⟨?_, ?_, ?_, ?_, ?_, ?_, ?_⟩⟩
  · rw [hmulticasts]
    exact roundsUpTo_prefix s.call h.le
  · intro cls followups nodes data taken hmem
    obtain hmem | hmem := List.mem_append.mp hmem
    · exact h.nodes _ _ _ _ _ hmem
    · cases List.mem_singleton.mp hmem
  · intro cls
    rw [hfollowups]
    exact h.followups cls
  · exact h.requested.concat (by rintro cls node data taken ⟨⟩)
  · intro _ hunaborted
    have hs : ¬s.Aborted := fun haborted => hunaborted (List.mem_append_left _ haborted)
    obtain rfl : k = s.call.lastState := hend.resolve_right fun habort => hs (h.aborted habort)
    refine ⟨hmulticasts, fun cls hcls hunrefused => ?_⟩
    rw [hfollowups]
    refine ((h.settled cls (add_four_le_of_mem_rounds hcls (lastState_le _))).resolve_left hs).resolve_left ?_
    rintro ⟨x, hx, hrefused⟩
    exact hunrefused ⟨x, List.mem_append_left _ hx, hrefused⟩
  · rw [hlog, List.countP_append, h.uncalled]
    rfl
  · intro hne
    exact absurd rfl hne

def State.next (s : State) (k cls : Nat) : State :=
  { s with state := k + 1, nodeList := s.subMask (cls + 1) }

theorem sendCallbackAuto_next (hstate : s.state ≠ mcAutoIdle)
    (hgoes : ¬(s.state = s.terminationState ∨ s.abort = true)) {cls : Nat}
    (hclass : classOfState (s.state + 1) = some cls) (hmap : nodeMaskMap (s.state + 1) = cls + 1) :
    sendCallbackAuto (n + 1) s status =
      if isEmptyMask (s.subMask (cls + 1)) then sendCallbackAuto n (s.next s.state cls) status
      else
        let r := sendMulticast (s.next s.state cls) cls (decide (mcAutoC2 < s.state + 1))
        if r.2 then r.1 else sendCallbackAuto n r.1 status := by
  rw [sendCallbackAuto, if_neg fun hboth => hgoes hboth.2]
  simp only [if_neg hstate, hclass, hmap, State.next]
  rfl

theorem classicNodes_eq_nil {c : Call} {cls : Nat} (hunused : c.isUsed cls = false) : c.classicNodes cls = [] := by
  refine List.filter_eq_nil_iff.mpr ?_
  intro n _ hin
  rw [Call.isUsed, List.any_eq_false] at hunused
  refine hunused n (mem_range'_of_isValid ?_) hin
  simp only [Call.inClass, testNode, decide_eq_true_eq] at hin
  exact hin.1.1

theorem sendMulticast_taken (hmc : s.mc = .idle) (htakes : s.takes = true) (cls : Nat)
    (followups : Bool) : sendMulticast s cls followups = ({ s.put (.multicast cls followups s.nodeList s.data true) with
        rNode := 1
        mcData := s.data
        s2Class := cls
        s2SendCallback := true
        answers := s.answers.tail
        mc := if followups then .sendFirst else .sendFirstNoFollowup
        outstanding := true }, true) := by
  rw [sendMulticast, if_pos hmc, htakes]
  rfl

theorem sendMulticast_refused (hmc : s.mc = .idle) (htakes : s.takes = false) (cls : Nat)
    (followups : Bool) : sendMulticast s cls followups =
      ({ s.put (.multicast cls followups s.nodeList s.data false) with
        rNode := 1
        mcData := s.data
        s2Class := cls
        s2SendCallback := true
        answers := s.answers.tail }, false) := by
  rw [sendMulticast, if_pos hmc, htakes]
  rfl

theorem Passed.taken (h : Passed s k) (hk : k < s.call.lastState) {cls : Nat}
    (hclass : classOfState (k + 1) = some cls) (hmap : nodeMaskMap (k + 1) = cls + 1)
    (hfour : 3 < k + 1 → k + 1 = cls + 4)
    (hround : s.call.roundOf (k + 1) = some (cls, decide (mcAutoC2 < k + 1)))
    (hnodes : ∀ n, testNode n (s.subMask (cls + 1)) = s.call.inClass cls n) (htakes : s.takes = true)
    (hidle : (s.next k cls).mc = .idle) :
    Running (sendMulticast (s.next k cls) cls (decide (mcAutoC2 < k + 1))).1 := by
  rw [sendMulticast_taken hidle htakes]
  refine ⟨⟨h.toSends.multicast hk hround hnodes ⟨rfl, rfl, rfl, rfl⟩ rfl, ?_, Nat.succ_pos k, rfl, ?_, hclass⟩, rfl, ?_⟩
  · intro cls' hcls'
    exact (h.settled cls' (Nat.le_of_lt_succ hcls')).append ⟨rfl, rfl, rfl, rfl⟩ rfl rfl
  · show s.subMask (cls + 1) = s.subMask (nodeMaskMap (k + 1))
    rw [hmap]
  · unfold Progress
    by_cases hsecond : 3 < k + 1
    · have hdecide : decide (mcAutoC2 < k + 1) = true := decide_eq_true hsecond
      rw [hdecide]
      refine ⟨hsecond, ⟨s.subMask (cls + 1), s.data, ?_⟩, Nat.le_refl 1,
        show (1 : UInt8).toNat ≤ 233 by decide, ?_⟩
      · exact List.mem_append_right _ (List.mem_singleton_self _)
      · refine (followups_append (s := s) rfl cls).trans ?_
        rw [h.later cls (by omega)]
        rfl
    · have hdecide : decide (mcAutoC2 < k + 1) = false := decide_eq_false hsecond
      rw [hdecide]
      exact Nat.le_of_not_lt hsecond

theorem Passed.refused (h : Passed s k) (hk : k < s.call.lastState) {cls : Nat} (hfour : 3 < k + 1 → k + 1 = cls + 4)
    (hround : s.call.roundOf (k + 1) = some (cls, decide (mcAutoC2 < k + 1)))
    (hnodes : ∀ n, testNode n (s.subMask (cls + 1)) = s.call.inClass cls n) (htakes : s.takes = false)
    (hidle : (s.next k cls).mc = .idle) :
    Passed (sendMulticast (s.next k cls) cls (decide (mcAutoC2 < k + 1))).1 (k + 1) := by
  rw [sendMulticast_refused hidle htakes]
  refine ⟨h.toSends.multicast hk hround hnodes ⟨rfl, rfl, rfl, rfl⟩ rfl, ?_, h.mc, h.outstanding⟩
  intro cls' hcls'
  by_cases hold : cls' + 4 ≤ k
  · exact (h.settled cls' hold).append ⟨rfl, rfl, rfl, rfl⟩ rfl rfl
  · have hsecond : 3 < k + 1 := by omega
    have hdecide : decide (mcAutoC2 < k + 1) = true := decide_eq_true hsecond
    obtain rfl : cls' = cls := by
      have := hfour hsecond
      omega
    refine .inr (.inl ⟨.multicast cls' true (s.subMask (cls' + 1)) s.data false, ?_, ?_⟩)
    · rw [hdecide]
      exact List.mem_append_right _ (List.mem_singleton_self _)
    · simp [Out.isRefusal]

theorem Passed.sendCallbackAuto (h : Passed s k) (hstate : s.state = k) (hn : s.call.lastState < k + n) :
    Idle (sendCallbackAuto n s status) ∨ Running (sendCallbackAuto n s status) := by
  induction n generalizing s k with
  | zero => exact absurd h.le (by omega)
  | succ n ih =>
    have hmax := h.le.trans (lastState_le s.call)
    have hbusy : s.state ≠ mcAutoIdle := by
      rw [hstate]
      show k ≠ 7
      omega
    by_cases hend : s.state = s.terminationState ∨ s.abort = true
    · rw [MulticastSplit.sendCallbackAuto, if_pos ⟨hbusy, hend⟩]
      refine .inl (h.finish (hend.imp_left fun heq => ?_))
      rw [← hstate, heq, h.termination]
    · have hk : k < s.call.lastState := by
        refine lt_of_le_of_ne h.le fun heq => hend (.inl ?_)
        rw [hstate, heq, h.termination]
      obtain ⟨cls, hclass, hmap, hfour⟩ := state_facts (hk.trans_le (lastState_le s.call))
      have hidle : (s.next k cls).mc = .idle := h.mc
      rw [sendCallbackAuto_next hbusy hend (by rw [hstate, hclass]) (by rw [hstate, hmap]), hstate,
        h.subMask, isEmptyMask_splitNodes]
      have hlast : s.call.lastState < k + 1 + n := by omega
      by_cases hused : s.call.isUsed cls = true
      · have hround : s.call.roundOf (k + 1) = some (cls, decide (mcAutoC2 < k + 1)) := by
          unfold Call.roundOf
          rw [hclass]
          simp [hused]
        have hnodes : ∀ n, testNode n (s.subMask (cls + 1)) = s.call.inClass cls n := by
          intro n
          rw [h.subMask, testNode_splitNodes]
        simp only [hused, Bool.not_true, Bool.false_eq_true, if_false]
        by_cases htakes : s.takes = true
        · have htaken := h.taken hk hclass hmap hfour hround hnodes htakes hidle
          rw [sendMulticast_taken hidle htakes] at htaken ⊢
          exact .inr htaken
        · have htakes : s.takes = false := by simpa using htakes
          have hrefused := h.refused hk hfour hround hnodes htakes hidle
          rw [sendMulticast_refused hidle htakes] at hrefused ⊢
          exact ih hrefused rfl hlast
      · have hused : s.call.isUsed cls = false := by simpa using hused
        have hround : s.call.roundOf (k + 1) = none := by
          unfold Call.roundOf
          rw [hclass]
          simp [hused]
        simp only [hused, Bool.not_false, if_true]
        refine ih (k := k + 1) ⟨h.toSends.skip hk hround ⟨rfl, rfl, rfl, rfl⟩ rfl, ?_, h.mc, h.outstanding⟩ rfl hlast
        intro cls' hcls'
        by_cases hold : cls' + 4 ≤ k
        · exact (h.settled cls' hold).congr ⟨rfl, rfl, rfl, rfl⟩ rfl
        · obtain rfl : cls' = cls := by
            have := hfour (by omega)
            omega
          refine .inr (.inr ?_)
          show s.followups cls' = s.call.classicNodes cls'
          rw [h.later cls' (by omega), classicNodes_eq_nil hused]

theorem sendCallbackAuto_first (hstate : s.state = mcAutoIdle) : sendCallbackAuto (n + 1) s status =
      sendCallbackAuto n { s with state := 0, nodeList := s.subMask 0 } status := by
  rw [MulticastSplit.sendCallbackAuto, if_neg fun hboth => hboth.1 hstate]
  simp only [hstate, if_true]
  exact ite_self _

theorem Idle.sendMulticastAutoSplit (h : Idle s) (c : Call) :
    Idle (sendMulticastAutoSplit s c).1 ∨ Running (sendMulticastAutoSplit s c).1 := by
  rw [MulticastSplit.sendMulticastAutoSplit, if_neg (not_not_intro h.state)]
  simp only
  rw [sendCallbackAuto_first]
  swap
  · exact h.state
  refine Passed.sendCallbackAuto (k := 0) ?_ rfl ?_
  swap
  · have := lastState_le c
    show c.lastState < 0 + 7
    omega
  refine ⟨⟨?_, rfl, Nat.zero_le _, rfl, ?_, ?_, ?_, ?_, rfl, ?_⟩, ?_, h.mc, h.outstanding⟩
  · simp only
  · intro cls followups nodes data taken hmem
    cases hmem
  · intro cls
    exact List.nil_prefix
  · intro before after cls node data taken heq
    exact absurd heq (by simp)
  · intro cls _
    rfl
  · intro habort
    cases habort
  · intro cls hcls
    omega

theorem Held.facts (h : Held s) : nodeMaskMap s.state = s.s2Class + 1 ∧ (3 < s.state → s.state = s.s2Class + 4) := by
  obtain ⟨j, hj⟩ := Nat.exists_eq_add_of_le' h.pos
  have hmax := h.le.trans (lastState_le s.call)
  obtain ⟨cls, hclass, hmap, hfour⟩ := state_facts (k := j) (by omega)
  rw [← hj] at hclass hmap hfour
  obtain rfl : cls = s.s2Class := by
    have := h.s2Class
    rw [hclass] at this
    exact Option.some.inj this
  exact ⟨hmap, hfour⟩

theorem Held.passed (h : Held s) (hsends : Sends t s.state)
    (hkept : ∀ cls, cls + 4 < s.state → Over t cls) (hover : 3 < s.state → Over t s.s2Class)
    (hmc : t.mc = .idle) (houtstanding : t.outstanding = false) : Passed t s.state := by
  refine ⟨hsends, ?_, hmc, houtstanding⟩
  intro cls hcls
  by_cases hlt : cls + 4 < s.state
  · exact hkept cls hlt
  · have hsecond : 3 < s.state := by omega
    obtain rfl : cls = s.s2Class := by
      have := h.facts.2 hsecond
      omega
    exact hover hsecond

theorem Passed.sendDoneCallback (h : Passed s s.state) (hcallback : s.s2SendCallback = true) :
    Idle (sendDoneCallback s status) ∨ Running (sendDoneCallback s status) := by
  have hle := lastState_le s.call
  rw [MulticastSplit.sendDoneCallback, if_pos hcallback]
  refine Passed.sendCallbackAuto (k := s.state) ⟨h.toSends.congr ⟨rfl, rfl, rfl, rfl⟩ rfl, ?_, h.mc,
    h.outstanding⟩ rfl ?_
  · intro cls hcls
    exact (h.settled cls hcls).congr ⟨rfl, rfl, rfl, rfl⟩ rfl
  · show s.call.lastState < s.state + 8
    omega

theorem Held.nextFollowup (h : Held s) (hreached : Reached s s.rNode.toNat) (houtstanding : s.outstanding = false) :
    Idle (nextFollowup s status) ∨ Running (nextFollowup s status) := by
  obtain ⟨hmap, hfour⟩ := h.facts
  have hnodes : ∀ n, testNode n s.nodeList = s.call.inClass s.s2Class n := by
    intro n
    rw [h.nodeList, hmap, h.subMask, testNode_splitNodes]
  obtain ⟨hle, hmax, hnone, hfound⟩ := nextNode_spec hnodes hreached.pos hreached.le
  unfold MulticastSplit.nextFollowup
  generalize nextNode s.nodeList s.rNode.toNat = r at hle hmax hnone hfound
  have hbelow : s.followups s.s2Class = s.call.classicBelow s.s2Class r := by
    rw [hreached.followups, classicBelow_skip hreached.pos hle hnone]
  have hone := hreached.pos
  simp only
  by_cases hvalid : isValid r = true
  · rw [if_pos hvalid]
    have hr : r ≤ 232 := by
      rw [isValid_iff] at hvalid
      omega
    have hsucc : s.call.classicBelow s.s2Class (r + 1) = s.followups s.s2Class ++ [r] := by
      rw [classicBelow_succ _ _ (hone.trans hle), hfound hr, hbelow]
      rfl
    have hpre : s.followups s.s2Class ++ [r] <+: s.call.classicNodes s.s2Class := by
      rw [← hsucc]
      exact classicBelow_prefix _ _ (by show r + 1 ≤ 233; omega)
    have hkept : ∀ taken cls, cls + 4 < s.state → (Out.followup s.s2Class r s.mcData taken).followup? cls = none := by
      intro taken cls hcls
      have := hfour hreached.second
      rw [Out.followup?, if_neg (by omega)]
    by_cases htakes : s.takes = true
    · rw [if_pos htakes, htakes]
      have htoNat : (UInt8.ofNat r).toNat = r := Nat.mod_eq_of_lt (by omega)
      refine .inr ⟨⟨h.toSends.followup (hfour hreached.second) hpre hreached.taken ⟨rfl, rfl, rfl, rfl⟩
        rfl, ?_, h.pos, h.callback, h.nodeList, h.s2Class⟩, rfl, ?_, ?_⟩
      · intro cls hcls
        exact (h.settled cls hcls).append ⟨rfl, rfl, rfl, rfl⟩ rfl (hkept true cls hcls)
      · show (UInt8.ofNat r).toNat ≤ 232
        rw [htoNat]
        exact hr
      · obtain ⟨nodes, data, hmem⟩ := hreached.taken
        refine ⟨hreached.second, ⟨nodes, data, List.mem_append_left _ hmem⟩, ?_, ?_, ?_⟩
        · exact Nat.le_add_left 1 _
        · show (UInt8.ofNat r).toNat + 1 ≤ 233
          omega
        · show _ = s.call.classicBelow s.s2Class ((UInt8.ofNat r).toNat + 1)
          rw [htoNat, hsucc]
          refine (followups_append (s := s) rfl s.s2Class).trans ?_
          rw [Out.followup?, if_pos rfl]
          rfl
    · have htakes : s.takes = false := by simpa using htakes
      rw [htakes]
      simp only [Bool.false_eq_true, if_false]
      refine Passed.sendDoneCallback (h.passed (h.toSends.followup (hfour hreached.second) hpre
        hreached.taken ⟨rfl, rfl, rfl, rfl⟩ rfl) ?_ ?_ rfl houtstanding) h.callback
      · intro cls hcls
        exact (h.settled cls hcls).append ⟨rfl, rfl, rfl, rfl⟩ rfl (hkept false cls hcls)
      · intro _
        refine .inr (.inl ⟨.followup s.s2Class r s.mcData false, ?_, ?_⟩)
        · exact List.mem_append_right _ (List.mem_singleton_self _)
        · simp [Out.isRefusal]
  · rw [if_neg hvalid]
    obtain rfl : r = 233 := by
      rw [isValid_iff] at hvalid
      omega
    refine Passed.sendDoneCallback (h.passed (h.toSends.congr ⟨rfl, rfl, rfl, rfl⟩ rfl) ?_ ?_ rfl
      houtstanding) h.callback
    · intro cls hcls
      exact (h.settled cls hcls).congr ⟨rfl, rfl, rfl, rfl⟩ rfl
    · intro _
      exact .inr (.inr hbelow)

theorem Running.sendDoneEvent (h : Running s) : Idle (sendDoneEvent { s with outstanding := false } status) ∨
      Running (sendDoneEvent { s with outstanding := false } status) := by
  have hprogress := h.progress
  have hkept : ∀ t : State, SameCall s t → t.log = s.log → Sends t s.state ∧ ∀ cls, cls + 4 < s.state → Over t cls := by
    intro t hsame hlog
    exact ⟨h.toSends.congr hsame hlog, fun cls hcls => (h.settled cls hcls).congr hsame hlog⟩
  unfold Progress at hprogress
  unfold MulticastSplit.sendDoneEvent
  cases hmc : s.mc with
  | idle =>
    rw [hmc] at hprogress
    exact hprogress.elim
  | sendFirstNoFollowup =>
    rw [hmc] at hprogress
    obtain ⟨hsends, hover⟩ := hkept { s with mc := .idle, outstanding := false } ⟨rfl, rfl, rfl, rfl⟩ rfl
    refine Passed.sendDoneCallback (h.toHeld.passed hsends hover ?_ rfl rfl) h.callback
    intro hsecond
    exact absurd hsecond (Nat.not_lt.mpr hprogress)
  | abort =>
    rw [hmc] at hprogress
    obtain ⟨hsends, hover⟩ := hkept { s with mc := .idle, outstanding := false, rNode := s.rNode + 1 }
      ⟨rfl, rfl, rfl, rfl⟩ rfl
    refine Passed.sendDoneCallback (h.toHeld.passed hsends hover ?_ rfl rfl) h.callback
    intro _
    exact .inl hprogress
  | sendFirst =>
    rw [hmc] at hprogress
    obtain ⟨hsends, hover⟩ := hkept { s with mc := .sendFirst, outstanding := false } ⟨rfl, rfl, rfl, rfl⟩ rfl
    refine Held.nextFollowup ⟨hsends, hover, h.pos, h.callback, h.nodeList, h.s2Class⟩ ?_ rfl
    exact ⟨hprogress.second, hprogress.taken, hprogress.pos, hprogress.le, hprogress.followups⟩
  | send =>
    rw [hmc] at hprogress
    obtain ⟨hle, hreached⟩ := hprogress
    obtain ⟨hsends, hover⟩ := hkept { s with mc := .send, outstanding := false, rNode := s.rNode + 1 }
      ⟨rfl, rfl, rfl, rfl⟩ rfl
    have hnext : (s.rNode + 1).toNat = s.rNode.toNat + 1 := by
      rw [UInt8.toNat_add]
      exact Nat.mod_eq_of_lt (by show s.rNode.toNat + 1 < 256; omega)
    refine Held.nextFollowup ⟨hsends, hover, h.pos, h.callback, h.nodeList, h.s2Class⟩ ?_ rfl
    show Reached _ (s.rNode + 1).toNat
    rw [hnext]
    exact ⟨hreached.second, hreached.taken, hreached.pos, hreached.le, hreached.followups⟩

theorem Held.abort (h : Held s) (hcall : t.call = s.call) (hsubMask : t.subMask = s.subMask)
    (htermination : t.terminationState = s.terminationState) (hstate : t.state = s.state)
    (hcallback : t.s2SendCallback = s.s2SendCallback) (hnodeList : t.nodeList = s.nodeList)
    (hclass : t.s2Class = s.s2Class) (hlog : t.log = s.log ++ [.aborted]) : Held t := by
  have haborted : t.Aborted := by
    unfold State.Aborted
    rw [hlog]
    exact List.mem_append_right _ (List.mem_singleton_self _)
  refine ⟨?_, fun _ _ => .inl haborted, ?_, ?_, ?_, ?_⟩
  · rw [hstate]
    exact h.toSends.abort hcall hsubMask htermination hlog
  · rw [hstate]
    exact h.pos
  · rw [hcallback]
    exact h.callback
  · rw [hnodeList, hsubMask, hstate]
    exact h.nodeList
  · rw [hstate, hclass]
    exact h.s2Class

theorem Reached.abort {bound : Nat} (h : Reached s bound) : Reached { s.put .aborted with abort := true } bound := by
  obtain ⟨nodes, data, hmem⟩ := h.taken
  refine ⟨h.second, ⟨nodes, data, List.mem_append_left _ hmem⟩, h.pos, h.le, ?_⟩
  refine (followups_append (s := s) rfl s.s2Class).trans ?_
  rw [h.followups]
  exact List.append_nil _

theorem Progress.abort (h : Progress s) : Progress { s.put .aborted with abort := true } := by
  unfold Progress at h ⊢
  show match s.mc with
    | .idle => False
    | .sendFirstNoFollowup => s.state ≤ 3
    | .sendFirst => Reached { s.put .aborted with abort := true } s.rNode.toNat
    | .send => s.rNode.toNat ≤ 232 ∧ Reached { s.put .aborted with abort := true } (s.rNode.toNat + 1)
    | .abort => .aborted ∈ s.log ++ [.aborted]
  split
  · rename_i hmc
    rw [hmc] at h
    exact h
  · rename_i hmc
    rw [hmc] at h
    exact h
  · rename_i hmc
    rw [hmc] at h
    exact h.abort
  · rename_i hmc
    rw [hmc] at h
    exact ⟨h.1, h.2.abort⟩
  · exact List.mem_append_right _ (List.mem_singleton_self _)

theorem Split.abort (h : Split s) (hidle : s.state = mcAutoIdle) : Split { s.put .aborted with abort := true } := by
  have hlog : ({ s.put .aborted with abort := true } : State).log = s.log ++ [.aborted] := rfl
  have hmulticasts : ({ s.put .aborted with abort := true } : State).multicasts = s.multicasts :=
    (multicasts_append hlog).trans (List.append_nil _)
  have hfollowups : ∀ cls, ({ s.put .aborted with abort := true } : State).followups cls = s.followups cls := by
    intro cls
    rw [followups_append hlog]
    exact List.append_nil _
  refine ⟨?_, ?_, ?_, ?_, ?_, ?_, fun hbusy => absurd hidle hbusy⟩
  · rw [hmulticasts]
    exact h.rounds
  · intro cls followups nodes data taken hmem
    obtain hmem | hmem := List.mem_append.mp hmem
    · exact h.nodes _ _ _ _ _ hmem
    · cases List.mem_singleton.mp hmem
  · intro cls
    rw [hfollowups]
    exact h.followups cls
  · exact h.requested.concat (by rintro cls node data taken ⟨⟩)
  · intro _ hunaborted
    exact absurd (List.mem_append_right _ (List.mem_singleton_self _)) hunaborted
  · rw [hlog, List.countP_append, h.once]
    rfl

end Steps

section Runs

variable {s : State}

theorem step_good (h : Idle s ∨ Running s) (e : Event) : Idle (step s e) ∨ Running (step s e) := by
  cases e with
  | split c =>
    obtain hidle | hrunning := h
    · exact hidle.sendMulticastAutoSplit c
    · have hle := hrunning.le.trans (lastState_le s.call)
      have hbusy : s.state ≠ mcAutoIdle := by
        show s.state ≠ 7
        omega
      refine .inr ?_
      rw [step, sendMulticastAutoSplit, if_pos hbusy]
      exact hrunning
  | done status =>
    obtain hidle | hrunning := h
    · rw [step, hidle.outstanding]
      exact .inl hidle
    · rw [step, if_pos hrunning.outstanding]
      exact hrunning.sendDoneEvent
  | abortSplit =>
    obtain hidle | hrunning := h
    · exact .inl ⟨hidle.state, hidle.mc, hidle.outstanding, fun hcalls => (hidle.split hcalls).abort hidle.state⟩
    · exact .inr ⟨hrunning.toHeld.abort rfl rfl rfl rfl rfl rfl rfl rfl, hrunning.outstanding, hrunning.progress.abort⟩
  | abortMulticast =>
    obtain hidle | hrunning := h
    · rw [step, if_neg (not_not_intro hidle.mc)]
      exact .inl hidle
    · rw [step]
      split
      · refine .inr ⟨hrunning.toHeld.abort rfl rfl rfl rfl rfl rfl rfl rfl, hrunning.outstanding, ?_⟩
        exact List.mem_append_right _ (List.mem_singleton_self _)
      · exact .inr hrunning

theorem run_good (answers : List Bool) (events : List Event) :
    Idle (run answers events) ∨ Running (run answers events) := by
  have hstart : Idle (.init answers) ∨ Running (.init answers) := by
    refine .inl ⟨rfl, rfl, rfl, ?_⟩
    intro hcalls
    exact absurd hcalls (Nat.lt_irrefl 0)
  have hstep : ∀ s e, Idle s ∨ Running s → Idle (step s e) ∨ Running (step s e) := by
    intro s e h
    exact step_good h e
  exact Machine.run_invariant hstep hstart events

theorem Running.split (h : Running s) : Split s := by
  have hle := h.le.trans (lastState_le s.call)
  have hbusy : s.state ≠ mcAutoIdle := by
    show s.state ≠ 7
    omega
  refine ⟨?_, h.nodes, h.followups, h.requested, fun hidle => absurd hidle hbusy, ?_, fun _ => h.outstanding⟩
  · rw [h.multicasts]
    exact roundsUpTo_prefix s.call h.le
  · rw [h.uncalled, if_neg hbusy]

/-- A split multicast makes its rounds, in order, and calls back once. -/
theorem split_sound (answers : List Bool) (events : List Event)
    (hcalls : 0 < (run answers events).calls) : Split (run answers events) := by
  obtain hidle | hrunning := run_good answers events
  · exact hidle.split hcalls
  · exact hrunning.split

@[simp]
theorem calls_sendMulticast (s : State) (cls : Nat) (followups : Bool) :
    (sendMulticast s cls followups).1.calls = s.calls := by
  unfold sendMulticast
  split
  · split <;> rfl
  · rfl

theorem calls_sendCallbackAuto (n : Nat) (s : State) (status : UInt8) :
    (sendCallbackAuto n s status).calls = s.calls := by
  induction n generalizing s with
  | zero => rfl
  | succ n ih =>
    unfold sendCallbackAuto
    split
    · rfl
    · simp only
      generalize (if s.state = mcAutoIdle then mcAutoNoScheme else s.state + 1) = state
      split
      · rw [ih]
      · split
        · rw [ih]
        · split
          · rw [calls_sendMulticast]
          · rw [ih, calls_sendMulticast]

def oneNode : Call where
  nodeList := addNode 5 fun _ => 0
  flags := fun _ => nodeFlagSecurity2Unauthenticated
  data := []
  followups := true

theorem calls_done (s : State) (status : UInt8) : (step s (.done status)).calls = s.calls := by
  have hcallback : ∀ (t : State) (st : UInt8), (sendDoneCallback t st).calls = t.calls := by
    intro t st
    unfold sendDoneCallback
    split
    · exact calls_sendCallbackAuto 8 _ _
    · rfl
  have hnext : ∀ (t : State) (st : UInt8), (nextFollowup t st).calls = t.calls := by
    intro t st
    unfold nextFollowup
    simp only
    split
    · split
      · rfl
      · exact hcallback _ _
    · exact hcallback _ _
  simp only [step]
  split
  · unfold sendDoneEvent
    split
    · exact hcallback _ _
    · exact hcallback _ _
    · exact hnext _ _
    · exact hnext _ _
    · exact hcallback _ _
  · rfl

/-- Nodes 5 and 6 of two classes: four multicasts and two follow-ups. -/
def twoNodes : Call :=
  { oneNode with
    nodeList := addNode 6 oneNode.nodeList
    flags := fun n => if n = 5 then nodeFlagSecurity2Unauthenticated else nodeFlagSecurity2Authenticated }

def twoNodesEvents : List Event :=
  .split twoNodes :: List.replicate 6 (.done 0)

theorem split_calls (c : Call) : 0 < (step (.init []) (.split c)).calls := by
  have hidle : (State.init []).state = mcAutoIdle := rfl
  rw [step, sendMulticastAutoSplit, if_neg (not_not_intro hidle), calls_sendCallbackAuto]
  exact Nat.succ_pos _

theorem twoNodes_calls : 0 < (run [] twoNodesEvents).calls := by
  have hdone : ∀ n s, (Machine.run step s (List.replicate n (.done 0))).calls = s.calls := by
    intro n
    induction n with
    | zero => intro s; rfl
    | succ n ih => intro s; rw [List.replicate_succ, Machine.run_cons, ih, calls_done]
  rw [run, twoNodesEvents, Machine.run_cons, hdone]
  exact split_calls twoNodes

theorem twoNodes_split : 0 < (run [] twoNodesEvents).calls ∧ Split (run [] twoNodesEvents) :=
  ⟨twoNodes_calls, split_sound [] twoNodesEvents twoNodes_calls⟩

def OnceEach (s : State) : Prop :=
  ∀ cls, s.multicasts.countP (fun p => p.1 = cls) ≤ 1

theorem oneNode_isUsed (cls : Nat) : oneNode.isUsed cls = decide (cls = 0) := by
  by_cases hcls : cls = 0
  · subst hcls
    refine List.any_eq_true.mpr ⟨5, ?_, by decide⟩
    exact mem_range'_of_isValid (by decide)
  · rw [decide_eq_false hcls, Call.isUsed, List.any_eq_false]
    intro n _ hin
    obtain ⟨-, hsub⟩ := of_decide_eq_true hin
    have hone : subMaskOf nodeFlagSecurity2Unauthenticated = some 1 := by decide
    rw [show oneNode.flags n = nodeFlagSecurity2Unauthenticated from rfl, hone] at hsub
    exact hcls (by simpa using hsub)

theorem multicasts_twice {c : Call} (hfollowups : c.followups = true)
    (hone : isEmptyMask (splitNodes c 1) = false) (htwo : isEmptyMask (splitNodes c 2) = true)
    (hthree : isEmptyMask (splitNodes c 3) = true) :
    (run [] [.split c, .done 0]).multicasts = [(0, false), (0, true)] := by
  have hfirst : (sendMulticastAutoSplit (.init []) c).1 = { State.init [] with
      state := 1
      terminationState := mcAutoC2Fu
      nodeList := splitNodes c 1
      subMask := splitNodes c
      mc := .sendFirstNoFollowup
      rNode := 1
      s2SendCallback := true
      outstanding := true
      calls := 1
      call := c
      log := [.multicast 0 false (splitNodes c 1) [] true] } := by
    unfold sendMulticastAutoSplit
    generalize splitNodes c = masks at *
    simp [sendCallbackAuto, State.init, hfollowups, hone, nodeMaskMap, classOfState, sendMulticast,
      State.takes, State.put, mcAutoIdle, mcAutoC2Fu, mcAutoNoScheme, mcAutoC2]
  have hsplit : step (.init []) (.split c) = (sendMulticastAutoSplit (.init []) c).1 := rfl
  rw [run, Machine.run_cons, Machine.run_cons, Machine.run_nil, hsplit, hfirst]
  simp [step, sendDoneEvent, sendDoneCallback, sendCallbackAuto, State.init, hone, htwo, hthree,
    nodeMaskMap, classOfState, sendMulticast, State.takes, State.put, mcAutoIdle, mcAutoC2Fu,
    mcAutoNoScheme, mcAutoC2, State.multicasts, Out.multicast?]

theorem split_not_onceEach : ¬OnceEach (run [] [.split oneNode, .done 0]) := by
  have hempty : ∀ cls, isEmptyMask (splitNodes oneNode (cls + 1)) = decide (cls ≠ 0) := by
    intro cls
    rw [isEmptyMask_splitNodes, oneNode_isUsed]
    simp
  intro honce
  have htwice := honce 0
  rw [multicasts_twice rfl (hempty 0) (hempty 1) (hempty 2)] at htwice
  exact absurd htwice (by decide)

end Runs

end ZipGateway.MulticastSplit

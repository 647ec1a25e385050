import Mathlib.Data.List.Perm.Basic
import ZipGateway.SendRequest.Completion

/-!
# The abort of the requests to a node

What `ZW_Abort_SendRequest` does is settled by
the requests there are when it is called: it is right if there is no request to the node, or if there is
one only, which waits, and the id of the node has eight bits.
-/

namespace ZipGateway

variable (env : ReqEnv)

namespace SendRequest

variable {s t : SendRequest} {i j : ReqBlock}

section Steps

theorem kept_fail (h : Kept s) (hi : i ∈ s.reqsList) (howed : i ∉ s.owed) {f : ReqFrame}
    (hf : f.response? = none) (hstack : Stacked (f :: s.frames)) (habort : ∀ n j, f = .abort n j → j = i) :
    Kept (s.fail i f) := by
  refine h.retire hi howed rfl rfl rfl rfl rfl rfl rfl ?_ hf hstack habort
  simp [fail, log, membFree, listRemove, setMem, idOf]

theorem kept_requestTimeout (h : Kept s) (hidle : s.frames = []) (hi : i ∈ s.reqsList)
    (howed : i ∉ s.owed) : Kept (s.requestTimeout i) := by
  have hset : ∀ x y : SendRequestState, Function.update (Function.update s.mem i x) i y =
      Function.update s.mem i y := fun x y => Function.update_idem x y s.mem
  refine h.retire hi howed rfl ?_ (x := { s.mem i with
    param := { (s.mem i).param with dnode := 0 }
    state := .done
    timer := false }) rfl rfl rfl rfl rfl ?_ rfl hidle fun n j hf => by cases hf
  · simp [requestTimeout, fail, log, membFree, listRemove, setMem]
  · simp [requestTimeout, fail, log, membFree, listRemove, setMem, idOf]

theorem free_of_membAlloc (h : s.membAlloc = some i) : s.allocated i = false := by
  have hfree := List.find?_some h
  simpa using hfree

theorem kept_zwSendRequest (p : ReqParam) (pData : Mem) (responseCmd : UInt8) (callback : Bool)
    (h : Kept s) : Kept (zwSendRequest env s p pData responseCmd callback) := by
  unfold zwSendRequest
  split
  · exact h
  · cases halloc : s.membAlloc with
    | none => exact h
    | some i =>
      have hfree := free_of_membAlloc halloc
      have hnot : i ∉ s.reqsList := fun hmem => h.not_mem_of_free hfree (List.mem_append_left _ hmem)
      have hadd : s.reqsList.erase i ++ [i] = s.reqsList ++ [i] := by
        rw [List.erase_of_not_mem hnot]
      have hremove : (s.reqsList ++ [i]).erase i = s.reqsList := by
        rw [List.erase_append_right _ hnot, List.erase_cons_head, List.append_nil]
      have hsame : Function.update (Function.update s.allocated i true) i false = s.allocated := by
        rw [Function.update_idem, ← hfree, Function.update_eq_self]
      dsimp only
      split
      · exact h.accept hfree rfl rfl rfl rfl rfl hadd rfl rfl rfl rfl
      · refine h.fill hfree hsame rfl rfl ?_ rfl rfl (Nat.le_succ _) rfl
        exact (congrArg (List.erase · i) hadd).trans hremove

theorem abortLoop_cases (s : SendRequest) (n : UInt8) (rest : List ReqBlock) :
    (∃ i ∈ rest, s.stateOf i = .waiting ∧ (s.mem i).param.snode = n.toUInt16 ∧
      s.abortLoop n rest = s.fail i (.abort n i)) ∨
    ((∀ i ∈ rest, s.stateOf i = .waiting → (s.mem i).param.snode ≠ n.toUInt16) ∧ s.abortLoop n rest = s) := by
  unfold abortLoop
  split
  · rename_i i hfind
    have hp := List.find?_some hfind
    rw [Bool.and_eq_true, decide_eq_true_eq, beq_iff_eq] at hp
    exact .inl ⟨i, List.mem_of_find?_eq_some hfind, hp.1, hp.2, rfl⟩
  · rename_i hfind
    refine .inr ⟨fun i hi hstate hnode => ?_, rfl⟩
    have hp := List.find?_eq_none.mp hfind i hi
    rw [Bool.and_eq_true, decide_eq_true_eq, beq_iff_eq] at hp
    exact hp ⟨hstate, hnode⟩

theorem stacked_abort {frames : List ReqFrame} (h : Stacked frames) (n : UInt8) (i : ReqBlock) :
    Stacked (.abort n i :: frames) := h

theorem kept_zwAbortSendRequest (h : Kept s) (n : UInt8) : Kept (s.zwAbortSendRequest n) := by
  unfold zwAbortSendRequest
  rcases abortLoop_cases s n s.reqsList with ⟨i, hi, hstate, -, heq⟩ | ⟨-, heq⟩
  · have howed : i ∉ s.owed := h.not_owed (by rw [hstate]; decide)
    rw [heq]
    refine kept_fail h hi howed rfl (stacked_abort h.stacked n i) fun m j hf => ?_
    injection hf with _ hj
    exact hj.symm
  · rw [heq]
    exact h

theorem kept_applicationCommandHandler (h : Kept s) (hidle : s.frames = []) (p : ReqParam)
    (cls cmd : UInt8) : Kept (s.applicationCommandHandler p cls cmd) := by
  unfold applicationCommandHandler
  split
  · rename_i i hfind
    have hp := List.find?_some hfind
    have hwaiting : s.stateOf i = .waiting := by
      simp only [responds, Bool.and_eq_true, decide_eq_true_eq] at hp
      exact hp.1.1.1.1
    refine h.hand (x := { s.mem i with state := .done, timer := false }) hidle
      (List.mem_of_find?_eq_some hfind) hwaiting rfl rfl rfl rfl rfl rfl ?_ rfl rfl ?_
    · exact congrArg (ReqFrame.response i :: ·) hidle
    · simp [log, listRemove, setMem, idOf]
  · exact h

/-- After the callback the loop of an abort does nothing; what follows in the list is what the callback has
sent. -/
theorem abort_returns (h : Kept s) {n : UInt8} {rest : List ReqFrame}
    (hframes : s.frames = .abort n i :: rest) (more : Bool) :
    step env s (.callbackReturns more) = { s with frames := rest } := by
  have heq : step env s (.callbackReturns more) = abortLoop { s with frames := rest } n (followers s.reqsList i) := by
    unfold step callbackReturns
    rw [hframes]
  rw [heq]
  rcases abortLoop_cases { s with frames := rest } n (followers s.reqsList i) with
    ⟨j, hj, hstate, -, -⟩ | ⟨-, hsame⟩
  · have hsending := h.behind n i (by rw [hframes]; exact List.mem_cons_self) j hj
    exact absurd (hsending.symm.trans hstate) (by decide)
  · exact hsame

theorem Kept.pop (h : Kept s) {f : ReqFrame} {rest : List ReqFrame} (hframes : s.frames = f :: rest)
    (hf : f.response? = none) : Kept { s with frames := rest } := by
  have hsame : answering { s with frames := rest } = s.answering := by
    rw [answering, answering, hframes, List.filterMap_cons_none hf]
  have hstack : Stacked rest := by
    have hall := h.stacked
    rw [hframes] at hall
    cases f with
    | abort n i => exact hall
    | timeout =>
      rw [show rest = [] from hall]
      trivial
    | response i => cases hf
  refine ⟨?_, fun i => ?_, h.ids, h.ledger, h.owed, h.sending, h.timers, ?_, hstack, fun n i hi => ?_⟩
  · rw [hsame]
    exact h.nodup
  · rw [hsame]
    exact h.alloc i
  · rw [hsame]
    exact h.handed
  · exact h.behind n i (by rw [hframes]; exact List.mem_cons_of_mem _ hi)

theorem kept_callbackReturns (h : Kept s) (more : Bool) : Kept (step env s (.callbackReturns more)) := by
  cases hframes : s.frames with
  | nil =>
    have heq : step env s (.callbackReturns more) = s := by
      unfold step callbackReturns
      rw [hframes]
    rw [heq]
    exact h
  | cons f rest =>
    cases f with
    | timeout =>
      have heq : step env s (.callbackReturns more) = { s with frames := rest } := by
        unfold step callbackReturns
        rw [hframes]
      rw [heq]
      exact h.pop hframes rfl
    | abort n i =>
      rw [abort_returns env h hframes more]
      exact h.pop hframes rfl
    | response i =>
      have hrest : rest = [] := by
        have hall := h.stacked
        rw [hframes] at hall
        exact hall
      rw [hrest] at hframes
      have hmem : i ∈ s.answering := by
        rw [answering, hframes]
        exact List.mem_cons_self
      have hnot : i ∉ s.reqsList := fun hin => (List.nodup_append.mp h.nodup).2.2 i hin i hmem rfl
      have hadd : s.reqsList.erase i ++ [i] = s.reqsList ++ [i] := by
        rw [List.erase_of_not_mem hnot]
      have heq : step env s (.callbackReturns more) = if more then
          ((({ s with frames := [] }).log (.returned (s.mem i).id more)).setMem i
            { s.mem i with state := .waiting, timer := true }).listAdd i
          else (({ s with frames := [] }).log (.returned (s.mem i).id more)).membFree i := by
        unfold step callbackReturns
        rw [hframes]
        rfl
      rw [heq]
      cases more with
      | true =>
        rw [if_pos rfl]
        refine h.returned hframes rfl (fun j hj => Function.update_of_ne hj _ _) ?_ (fun _ => ?_)
          (fun hf => by cases hf) (by rw [if_pos rfl]; exact hadd) rfl rfl rfl rfl
        · simp [idOf, listAdd, setMem, log]
        · simp [stateOf, listAdd, setMem, log]
      | false =>
        rw [if_neg Bool.false_ne_true]
        exact h.returned hframes rfl (fun _ _ => rfl) rfl (fun hf => by cases hf) (fun _ => rfl) rfl rfl
          rfl rfl rfl

theorem kept_step (s : SendRequest) (e : ReqInput) (h : Kept s) : Kept (step env s e) := by
  cases e with
  | sendRequest p pData responseCmd callback => exact kept_zwSendRequest env p pData responseCmd callback h
  | abort node => exact kept_zwAbortSendRequest h node.toUInt8
  | callbackReturns more => exact kept_callbackReturns env h more
  | command p cls cmd =>
    dsimp only [step]
    split
    · rename_i hidle
      exact kept_applicationCommandHandler h hidle p cls cmd
    · exact h
  | timeout i =>
    dsimp only [step]
    split
    · rename_i hcond
      obtain ⟨hi, hstate⟩ := h.timers i hcond.2
      exact kept_requestTimeout h hcond.1 hi (h.not_owed (by rw [hstate]; decide))
    · exact h
  | transmitted n status =>
    dsimp only [step]
    split
    · rename_i hidle
      split
      · rename_i i hn
        obtain ⟨hi, -⟩ := h.sending i (List.mem_of_getElem? hn)
        have hnot : i ∉ s.owed.eraseIdx n := by
          obtain ⟨hlt, hget⟩ := List.getElem?_eq_some_iff.mp hn
          have hnodup := (List.getElem_cons_eraseIdx_perm hlt).nodup_iff.mpr h.owed
          rw [← hget]
          exact (List.nodup_cons.mp hnodup).1
        have hdrop := h.dropOwed n
        unfold zwSendRequestCallback
        split
        · exact hdrop.wait hidle hi hnot rfl rfl
        · exact kept_requestTimeout hdrop hidle hi hnot
      · exact h
    · exact h

theorem kept_run (inputs : List ReqInput) : Kept (run env init inputs) :=
  Machine.run_invariant (kept_step env) kept_init inputs

end Steps

/-! ### Completion -/

/-- The inputs are all that happens in a call made with `depth` frames, up to its return. -/
def Within (env : ReqEnv) (depth : Nat) : SendRequest → List ReqInput → Prop
  | t, [] => t.frames.length = depth
  | t, e :: inputs => depth < t.frames.length ∧ Within env depth (step env t e) inputs

/-- When an abort has returned, whatever the callbacks have done, the requests to the node are terminated,
and if no callback has aborted requests itself no others are. -/
def AbortsAll (env : ReqEnv) (s : SendRequest) (node : NodeId) : Prop :=
  ∀ inputs, Within env s.frames.length (step env s (.abort node)) inputs → ∀ i, s.allocated i = true →
      ((s.mem i).param.snode = node → .failed (s.idOf i) ∈ (run env (step env s (.abort node)) inputs).out) ∧
      ((∀ e ∈ inputs, ∀ node', e ≠ .abort node') →
        .failed (s.idOf i) ∈ (run env (step env s (.abort node)) inputs).out →
        (s.mem i).param.snode = node)

def AbortsAtOnce (env : ReqEnv) (s : SendRequest) (node : NodeId) : Prop :=
  ∀ i, s.allocated i = true → (.failed (s.idOf i) ∈ (step env s (.abort node)).out ↔ (s.mem i).param.snode = node)

/-- A request has one last callback and none after it, the list has the requests that are allocated (but
for one whose response is being handed over), and an abort terminates the requests to a node. -/
structure Completes (env : ReqEnv) (s : SendRequest) (node : NodeId) : Prop where
  once : ∀ a, s.out.countP (ReqOut.ends a) ≤ 1
  ordered : Ordered s.out
  listed : s.reqsList.Nodup ∧ ∀ i, s.allocated i = true ↔ i ∈ s.reqsList ∨ i ∈ s.answering
  aborts : AbortsAll env s node

/-- The node has a short id and no request, or one only, which waits; or it has a long id and there is
neither a request to it, nor one that waits for the node with the last eight bits of its id. -/
structure Alone (s : SendRequest) (node : NodeId) : Prop where
  waiting : ∀ i, s.allocated i = true → (s.mem i).param.snode = node → s.stateOf i = .waiting ∧ node.toNat < 256
  one : ∀ i j, s.allocated i = true → s.allocated j = true → (s.mem i).param.snode = node →
    (s.mem j).param.snode = node → i = j
  other : 256 ≤ node.toNat → ∀ i, s.allocated i = true → s.stateOf i = .waiting →
    (s.mem i).param.snode ≠ node.toUInt8.toUInt16

section Completion

theorem toUInt16_toUInt8_iff (node : NodeId) : node.toUInt8.toUInt16 = node ↔ node.toNat < 256 := by
  rw [← UInt16.toNat_inj, UInt8.toNat_toUInt16, UInt16.toNat_toUInt8]
  constructor
  · intro h
    rw [← h]
    exact Nat.mod_lt _ (by decide)
  · exact fun h => Nat.mod_eq_of_lt h

theorem failed_iff_of_fail (h : Kept s) (hi : i ∈ s.reqsList) (f : ReqFrame) {j : ReqBlock}
    (hj : s.allocated j = true) : .failed (s.idOf j) ∈ (s.fail i f).out ↔ j = i := by
  have hout : (s.fail i f).out = .failed (s.idOf i) :: s.out := by
    simp [fail, log, membFree, listRemove, setMem, idOf]
  rw [hout, List.mem_cons]
  constructor
  · rintro (heq | hold)
    · injection heq with hid
      exact h.ids j i hj (h.allocated_of_list hi) hid
    · have hends := h.ledger.unended (s.idOf j) ⟨j, hj, rfl⟩ _ hold
      rw [ReqOut.ends, beq_self_eq_true] at hends
      cases hends
  · rintro rfl
    exact .inl rfl

theorem out_zwSendRequest (s : SendRequest) (p : ReqParam) (pData : Mem) (responseCmd : UInt8) (callback : Bool) :
    (zwSendRequest env s p pData responseCmd callback).frames = s.frames ∧
      ((zwSendRequest env s p pData responseCmd callback).out = s.out ∨
        ∃ id, (zwSendRequest env s p pData responseCmd callback).out = .accepted id :: s.out) := by
  unfold zwSendRequest
  split
  · exact ⟨rfl, .inl rfl⟩
  · cases s.membAlloc with
    | none => exact ⟨rfl, .inl rfl⟩
    | some i =>
      dsimp only
      split
      · exact ⟨rfl, .inr ⟨_, rfl⟩⟩
      · exact ⟨rfl, .inl rfl⟩

theorem suffix_abortLoop (s : SendRequest) (n : UInt8) (rest : List ReqBlock) : s.out <:+ (s.abortLoop n rest).out := by
  rcases abortLoop_cases s n rest with ⟨i, -, -, -, heq⟩ | ⟨-, heq⟩
  · rw [heq]
    exact List.suffix_cons _ _
  · exact heq.symm ▸ List.suffix_rfl

theorem suffix_step (s : SendRequest) (e : ReqInput) : s.out <:+ (step env s e).out := by
  cases e with
  | sendRequest p pData responseCmd callback =>
    rcases (out_zwSendRequest env s p pData responseCmd callback).2 with heq | ⟨id, heq⟩
    · exact heq ▸ List.suffix_rfl
    · exact heq ▸ List.suffix_cons _ _
  | abort node => exact suffix_abortLoop s _ _
  | callbackReturns more =>
    change s.out <:+ (s.callbackReturns more).out
    unfold callbackReturns
    split
    · exact List.suffix_rfl
    · exact List.suffix_rfl
    · rename_i n i rest _
      exact suffix_abortLoop { s with frames := rest } n _
    · dsimp only
      split <;> exact List.suffix_cons _ _
  | transmitted n status =>
    dsimp only [step]
    split
    · split
      · unfold zwSendRequestCallback
        split
        · exact List.suffix_rfl
        · exact List.suffix_cons _ _
      · exact List.suffix_rfl
    · exact List.suffix_rfl
  | command p cls cmd =>
    dsimp only [step]
    split
    · unfold applicationCommandHandler
      split
      · exact List.suffix_cons _ _
      · exact List.suffix_rfl
    · exact List.suffix_rfl
  | timeout i =>
    dsimp only [step]
    split
    · exact List.suffix_cons _ _
    · exact List.suffix_rfl

theorem suffix_run (s : SendRequest) (inputs : List ReqInput) : s.out <:+ (run env s inputs).out := by
  have hstep : ∀ t e, s.out <:+ t.out → s.out <:+ (step env t e).out :=
    fun t e h => h.trans (suffix_step env t e)
  exact Machine.run_invariant hstep List.suffix_rfl inputs

/-- Once its first callback has been made, an abort terminates nothing more. -/
theorem failed_of_within {n : UInt8} {rest : List ReqFrame} {inputs : List ReqInput}
    (hcalm : ∀ e ∈ inputs, ∀ node, e ≠ .abort node) {a : Nat} :
    ∀ {t : SendRequest}, Kept t → t.frames = .abort n i :: rest → Within env rest.length t inputs →
      .failed a ∈ (run env t inputs).out → .failed a ∈ t.out := by
  induction inputs with
  | nil => exact fun _ _ _ hmem => hmem
  | cons e inputs ih =>
    intro t h hframes hwithin hmem
    have hrest : ∀ e' ∈ inputs, ∀ node, e' ≠ .abort node := fun e' he' =>
      hcalm e' (List.mem_cons_of_mem e he')
    -- what waits for the end of all callbacks changes nothing
    have hbusy : t.frames ≠ [] := by simp [hframes]
    have hsame (hstep : step env t e = t) : .failed a ∈ t.out := by
      refine ih hrest h hframes ?_ ?_
      · exact hstep ▸ hwithin.2
      · exact hstep ▸ hmem
    cases e with
    | abort node => exact absurd rfl (hcalm _ List.mem_cons_self node)
    | sendRequest p pData responseCmd callback =>
      obtain ⟨hkept, hout⟩ := out_zwSendRequest env t p pData responseCmd callback
      have hfailed := ih hrest (kept_zwSendRequest env p pData responseCmd callback h)
        (hkept.trans hframes) hwithin.2 hmem
      rcases hout with heq | ⟨id, heq⟩
      · rwa [heq] at hfailed
      · rw [heq] at hfailed
        exact List.mem_of_ne_of_mem (by simp) hfailed
    | callbackReturns more =>
      have hback := abort_returns env h hframes more
      have hended := hwithin.2
      change .failed a ∈ (run env (step env t (.callbackReturns more)) inputs).out at hmem
      rw [hback] at hended hmem
      cases inputs with
      | nil => exact hmem
      | cons e' inputs => exact absurd hended.1 (Nat.lt_irrefl _)
    | transmitted n status => exact hsame (if_neg hbusy)
    | command p cls cmd => exact hsame (if_neg hbusy)
    | timeout i => exact hsame (if_neg fun hidle => hbusy hidle.1)

theorem abortsAll_iff_atOnce (h : Kept s) (node : NodeId) : AbortsAll env s node ↔ AbortsAtOnce env s node := by
  have hstep : step env s (.abort node) = s.abortLoop node.toUInt8 s.reqsList := rfl
  have hkept : Kept (step env s (.abort node)) := kept_zwAbortSendRequest h _
  rcases abortLoop_cases s node.toUInt8 s.reqsList with ⟨i, hi, hstate, hnode, heq⟩ | ⟨-, heq⟩
  · have hframes : (step env s (.abort node)).frames = .abort node.toUInt8 i :: s.frames := by
      rw [hstep, heq]
      rfl
    constructor
    · intro hall j hj
      have hback := abort_returns env hkept hframes false
      obtain ⟨hmine, honly⟩ := hall [.callbackReturns false] ⟨by simp [hframes], by rw [hback]; rfl⟩ j hj
      have hrun : (run env (step env s (.abort node)) [.callbackReturns false]).out =
          (step env s (.abort node)).out := by
        rw [run, Machine.run_cons, hback]
        rfl
      rw [hrun] at hmine honly
      exact ⟨honly (by simp), hmine⟩
    · intro honce inputs hwithin j hj
      refine ⟨fun hto => ?_, fun hcalm hmem => ?_⟩
      · exact (suffix_run env _ inputs).subset ((honce j hj).mpr hto)
      · exact (honce j hj).mp (failed_of_within env hcalm hkept hframes hwithin hmem)
  · have hnothing : step env s (.abort node) = s := hstep.trans heq
    rw [AbortsAll, AbortsAtOnce, hnothing]
    constructor
    · intro hall j hj
      obtain ⟨hmine, honly⟩ := hall [] rfl j hj
      exact ⟨honly (by simp), hmine⟩
    · intro honce inputs hwithin j hj
      cases inputs with
      | nil => exact ⟨(honce j hj).mpr, fun _ => (honce j hj).mp⟩
      | cons e inputs => exact absurd hwithin.1 (Nat.lt_irrefl _)

theorem abortsAll_iff (h : Kept s) (node : NodeId) : AbortsAll env s node ↔ Alone s node := by
  have hstep : step env s (.abort node) = s.abortLoop node.toUInt8 s.reqsList := rfl
  rw [abortsAll_iff_atOnce env h, AbortsAtOnce, hstep]
  rcases abortLoop_cases s node.toUInt8 s.reqsList with ⟨i, hi, hstate, hnode, heq⟩ | ⟨hnone, heq⟩
  · -- One request is terminated.
    have hon := h.allocated_of_list hi
    rw [heq]
    constructor
    · intro hall
      have hself : (s.mem i).param.snode = node := (hall i hon).mp ((failed_iff_of_fail h hi _ hon).mpr rfl)
      have honly : ∀ j, s.allocated j = true → (s.mem j).param.snode = node → j = i := fun j hj hjn =>
        (failed_iff_of_fail h hi _ hj).mp ((hall j hj).mpr hjn)
      have hshort : node.toNat < 256 := (toUInt16_toUInt8_iff node).mp (hnode.symm.trans hself)
      refine ⟨fun j hj hjn => ?_, fun j k hj hk hjn hkn => ?_, fun hlong => ?_⟩
      · rw [honly j hj hjn]
        exact ⟨hstate, hshort⟩
      · rw [honly j hj hjn, honly k hk hkn]
      · exact absurd hlong (Nat.not_le.mpr hshort)
    · intro halone j hj
      have hshort : node.toNat < 256 := by
        by_contra hlong
        exact halone.other (Nat.not_lt.mp hlong) i hon hstate hnode
      have hself : (s.mem i).param.snode = node := hnode.trans ((toUInt16_toUInt8_iff node).mpr hshort)
      rw [failed_iff_of_fail h hi _ hj]
      constructor
      · rintro rfl
        exact hself
      · exact fun hjn => halone.one j i hj hon hjn hself
  · -- None is terminated.
    have hopen : ∀ j, s.allocated j = true → .failed (s.idOf j) ∉ s.out := by
      intro j hj hold
      have hends := h.ledger.unended (s.idOf j) ⟨j, hj, rfl⟩ _ hold
      rw [ReqOut.ends, beq_self_eq_true] at hends
      cases hends
    rw [heq]
    constructor
    · intro hall
      have hno : ∀ j, s.allocated j = true → (s.mem j).param.snode ≠ node := fun j hj hjn =>
        hopen j hj ((hall j hj).mpr hjn)
      refine ⟨fun j hj hjn => absurd hjn (hno j hj), fun j k hj _ hjn => absurd hjn (hno j hj), fun _ j hj hstate => ?_⟩
      exact hnone j (h.list_of_waiting hj hstate) hstate
    · intro halone j hj
      refine ⟨fun hold => absurd hold (hopen j hj), fun hjn => ?_⟩
      obtain ⟨hstate, hshort⟩ := halone.waiting j hj hjn
      have hsame := (toUInt16_toUInt8_iff node).mpr hshort
      exact absurd (hjn.trans hsame.symm) (hnone j (h.list_of_waiting hj hstate) hstate)

end Completion

/-- In every run the requests end as they should, unless the node whose requests are aborted has a request
that is still being sent or being answered, has more than one, or has a long id. -/
theorem completes_iff (env : ReqEnv) (inputs : List ReqInput) (node : NodeId) :
    Completes env (run env init inputs) node ↔ Alone (run env init inputs) node := by
  have h := kept_run env inputs
  generalize run env init inputs = s at h
  constructor
  · exact fun hcompletes => (abortsAll_iff env h node).mp hcompletes.aborts
  · intro halone
    refine ⟨h.ledger.ordered.once, h.ledger.ordered, ⟨(List.nodup_append.mp h.nodup).1, fun i => ?_⟩,
      (abortsAll_iff env h node).mpr halone⟩
    rw [h.alloc i, List.mem_append]

def sampleReqEnv : ReqEnv where
  sendDataAppl := fun _ => true
  schemeSelect := fun _ _ => 0

def twoWaiting : List ReqInput :=
  [.sendRequest ⟨1, 5, 0, 0, 0⟩ (fun _ => 0x86) 0x12 true, .sendRequest ⟨1, 5, 0, 0, 0⟩ (fun _ => 0x72) 0x05 true,
    .transmitted 0 transmitCompleteOk, .transmitted 0 transmitCompleteOk]

theorem twoWaiting_not_completes : ¬ ∀ (env : ReqEnv) (inputs : List ReqInput) (node : NodeId),
    Completes env (run env init inputs) node := by
  intro h
  have haborts := (h sampleReqEnv twoWaiting 5).aborts [.callbackReturns false]
    ⟨by decide, by unfold Within; decide⟩ 1 (by decide)
  exact absurd (haborts.1 (by decide)) (by decide)

end SendRequest

end ZipGateway

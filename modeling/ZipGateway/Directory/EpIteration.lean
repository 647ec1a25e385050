import ZipGateway.Directory.State

/-!
# Going through the endpoints of all nodes

`rd_ep_first` and `rd_ep_next` of `RD_internal.c`, as `rd_lookup_by_ep_name` and the mDNS responder use
them: with the node id 0, for all nodes. Both look for the next node that is there and return the head of
its list, whatever is in it.
-/

namespace ZipGateway.Directory.EpIteration

def zwClassicMaxNodes : Nat := 232

def zwLrMinNodeId : Nat := 256

variable {α : Type*}

/-- `ndb`: the endpoints of the node with the id `i + 1`, where there is one. -/
abbrev Ndb (α : Type*) := Nat → Option (List α)

structure EpPtr (α : Type*) where
  node : Nat
  ep : α
  behind : List α

def listHead (node : Nat) : List α → Option (EpPtr α)
  | [] => none
  | ep :: behind => some ⟨node, ep, behind⟩

def firstOf (ndb : Ndb α) : Nat → Nat → Option (EpPtr α)
  | 0, _ => none
  | n + 1, i =>
    match ndb i with
    | some endpoints => listHead (i + 1) endpoints
    | none => firstOf ndb n (i + 1)

def epFirst (ndb : Ndb α) (node : Nat) : Option (EpPtr α) :=
  if zwMaxNodes < node ∨ (zwClassicMaxNodes < node ∧ node < zwLrMinNodeId) then none
  else if node = 0 then firstOf ndb zwMaxNodes 0
  else (ndb (node - 1)).bind (listHead node)

def epNext (ndb : Ndb α) (node : Nat) (p : EpPtr α) : Option (EpPtr α) :=
  match listHead p.node p.behind with
  | some next => some next
  | none => if node = 0 then firstOf ndb (zwMaxNodes - p.node) p.node else none

/-- `for (ep = p; ep; ep = rd_ep_next(0, ep))` comes to these endpoints, one after the other, and ends. -/
inductive Visits (ndb : Ndb α) : Option (EpPtr α) → List (Nat × α) → Prop
  | done : Visits ndb none []
  | visit {p : EpPtr α} {rest : List (Nat × α)} :
      Visits ndb (epNext ndb 0 p) rest → Visits ndb (some p) ((p.node, p.ep) :: rest)

def endpointsFrom (ndb : Ndb α) : Nat → Nat → List (Nat × α)
  | 0, _ => []
  | n + 1, i => ((ndb i).getD []).map (i + 1, ·) ++ endpointsFrom ndb n (i + 1)

/-- A node without endpoints has no node with endpoints behind it. -/
def EmptyLast (ndb : Ndb α) (n i : Nat) : Prop :=
  ∀ j k, i ≤ j → j < k → k < i + n → ndb j = some [] → (ndb k).getD [] = []

section Loop

variable {ndb : Ndb α} {n i : Nat} {node : Nat}

theorem Visits.unique {p : Option (EpPtr α)} {l l' : List (Nat × α)} (h : Visits ndb p l) (h' : Visits ndb p l') :
    l = l' := by
  induction h generalizing l' with
  | done =>
    cases h'
    rfl
  | visit _ ih =>
    cases h' with
    | visit hrest' => rw [ih hrest']

theorem visits_listHead {ep : α} {behind : List α} {rest : List (Nat × α)}
    (h : Visits ndb (firstOf ndb (zwMaxNodes - node) node) rest) :
    Visits ndb (listHead node (ep :: behind)) ((ep :: behind).map (node, ·) ++ rest) := by
  induction behind generalizing ep with
  | nil => exact .visit h
  | cons next behind ih => exact .visit ih

def reachedFrom (ndb : Ndb α) : Nat → Nat → List (Nat × α)
  | 0, _ => []
  | n + 1, i =>
    match ndb i with
    | none => reachedFrom ndb n (i + 1)
    | some [] => []
    | some (ep :: behind) => (ep :: behind).map (i + 1, ·) ++ reachedFrom ndb n (i + 1)

theorem visits_firstOf (hend : i + n = zwMaxNodes) : Visits ndb (firstOf ndb n i) (reachedFrom ndb n i) := by
  induction n generalizing i with
  | zero => exact .done
  | succ n ih =>
    have hrest := ih (i := i + 1) (by omega)
    rw [firstOf, reachedFrom]
    rcases ndb i with _ | _ | ⟨ep, behind⟩
    · exact hrest
    · exact .done
    · apply visits_listHead
      have hleft : zwMaxNodes - (i + 1) = n := by omega
      rwa [hleft]

theorem endpointsFrom_eq_nil_iff : endpointsFrom ndb n i = [] ↔ ∀ k, i ≤ k → k < i + n → (ndb k).getD [] = [] := by
  induction n generalizing i with
  | zero =>
    refine ⟨fun _ k hle hlt => ?_, fun _ => rfl⟩
    omega
  | succ n ih =>
    rw [endpointsFrom, List.append_eq_nil_iff, List.map_eq_nil_iff, ih]
    constructor
    · rintro ⟨hhead, htail⟩ k hle hlt
      rcases Nat.eq_or_lt_of_le hle with rfl | hlater
      · exact hhead
      · exact htail k hlater (by omega)
    · intro h
      exact ⟨h i (Nat.le_refl i) (by omega), fun k hle hlt => h k (by omega) (by omega)⟩

theorem emptyLast_of_nil (h : endpointsFrom ndb n i = []) : EmptyLast ndb n i :=
  fun _ k hle hlt hend _ => endpointsFrom_eq_nil_iff.mp h k (by omega) hend

theorem emptyLast_succ : EmptyLast ndb (n + 1) i ↔
    (ndb i = some [] → endpointsFrom ndb n (i + 1) = []) ∧ EmptyLast ndb n (i + 1) := by
  rw [endpointsFrom_eq_nil_iff]
  constructor
  · intro h
    exact ⟨fun hempty k hle hlt => h i k (Nat.le_refl i) (by omega) (by omega) hempty,
      fun j k hle hlt hend => h j k (by omega) hlt (by omega)⟩
  · rintro ⟨hhead, htail⟩ j k hle hlt hend hempty
    rcases Nat.eq_or_lt_of_le hle with rfl | hlater
    · exact hhead hempty k (by omega) (by omega)
    · exact htail j k hlater hlt (by omega) hempty

theorem reachedFrom_eq_iff : reachedFrom ndb n i = endpointsFrom ndb n i ↔ EmptyLast ndb n i := by
  induction n generalizing i with
  | zero =>
    refine ⟨fun _ j k hle hlt hend => ?_, fun _ => rfl⟩
    omega
  | succ n ih =>
    rw [emptyLast_succ, ← ih, reachedFrom, endpointsFrom]
    rcases hnode : ndb i with _ | _ | ⟨ep, behind⟩
    · exact ⟨fun h => ⟨fun hempty => (by cases hempty), h⟩, fun h => h.2⟩
    · constructor
      · intro h
        have hnil : endpointsFrom ndb n (i + 1) = [] := h.symm
        exact ⟨fun _ => hnil, ih.mpr (emptyLast_of_nil hnil)⟩
      · exact fun h => (h.1 rfl).symm
    · rw [Option.getD_some, List.append_cancel_left_eq]
      exact ⟨fun h => ⟨fun hempty => (by cases hempty), h⟩, fun h => h.2⟩

end Loop

/-- The iteration over all nodes visits every endpoint once, in the order of the node ids, exactly in a
database where no node with endpoints comes behind one without. -/
theorem visits_all_iff (ndb : Ndb α) :
    Visits ndb (epFirst ndb 0) (endpointsFrom ndb zwMaxNodes 0) ↔ EmptyLast ndb zwMaxNodes 0 := by
  have hvisits : Visits ndb (epFirst ndb 0) (reachedFrom ndb zwMaxNodes 0) := visits_firstOf (by rw [Nat.zero_add])
  rw [← reachedFrom_eq_iff]
  constructor
  · exact fun h => hvisits.unique h
  · intro h
    rwa [h] at hvisits

/-- The node 1 has no endpoint in its list, and the endpoint of the node 2 is not visited. -/
theorem visits_all_not : ¬ ∀ ndb : Ndb Nat, Visits ndb (epFirst ndb 0) (endpointsFrom ndb zwMaxNodes 0) := by
  intro hall
  let ndb : Ndb Nat := fun i => if i = 0 then some [] else if i = 1 then some [7] else none
  have hnone : Visits ndb (epFirst ndb 0) [] := .done
  have hnil := hnone.unique (hall ndb)
  have hnode := endpointsFrom_eq_nil_iff.mp hnil.symm 1 (by omega) (by rw [zwMaxNodes]; omega)
  exact List.cons_ne_nil 7 [] hnode

end ZipGateway.Directory.EpIteration

import Mathlib.Data.List.Nodup
import Mathlib.Data.List.Pairwise
import Mathlib.Data.List.Perm.Basic

/-!
# JSON trees and the order of members

A JSON value as a library hands it out: an object is a list of members in file order, and a string is
its bytes. A number with a fraction is known only by what it is as an integer and as a boolean.

`Reordered` relates two trees that differ in the order of the members of their objects, where the keys
of an object that is reordered are unique. A reader that folds over the members of an object cannot see
the difference when the steps for two keys commute; one that looks members up cannot see it at all.
-/

namespace JsonTree

inductive Json where
  | null
  | bool (b : Bool)
  | int (n : Int)
  | double (asInt : Int) (asBool : Bool)
  | string (s : List UInt8)
  | array (items : List Json)
  | object (members : List (String × Json))

abbrev Member := String × Json

namespace Json

def members : Json → List Member
  | .object members => members
  | _ => []

def items : Json → List Json
  | .array items => items
  | _ => []

def get? (key : String) (v : Json) : Option Json :=
  v.members.lookup key

def str : Json → List UInt8
  | .string s => s
  | _ => []

def getBoolean : Json → Bool
  | .bool b => b
  | .int n => n ≠ 0
  | .double _ b => b
  | .string s => s ≠ []
  | _ => false

mutual

def uniqueKeys : Json → Bool
  | .array items => uniqueItems items
  | .object members => (members.map Prod.fst).Nodup && uniqueMembers members
  | _ => true

def uniqueItems : List Json → Bool
  | [] => true
  | v :: items => v.uniqueKeys && uniqueItems items

def uniqueMembers : List (String × Json) → Bool
  | [] => true
  | (_, v) :: members => v.uniqueKeys && uniqueMembers members

end

end Json

inductive MemberRel (R : Json → Json → Prop) : Member → Member → Prop
  | mk (key : String) {v w : Json} : R v w → MemberRel R (key, v) (key, w)

/-- The same tree, but for the order of the members of objects with unique keys. -/
inductive Reordered : Json → Json → Prop
  | refl (v : Json) : Reordered v v
  | array {xs ys : List Json} : List.Forall₂ Reordered xs ys → Reordered (.array xs) (.array ys)
  | object {xs mid ys : List Member} : xs.Perm mid → (xs.map Prod.fst).Nodup →
      List.Forall₂ (MemberRel Reordered) mid ys → Reordered (.object xs) (.object ys)

section Unique

variable {members : List Member} {key : String} {v : Json}

theorem lookup_eq_some_iff (h : (members.map Prod.fst).Nodup) : members.lookup key = some v ↔ (key, v) ∈ members := by
  induction members with
  | nil => simp
  | cons m members ih =>
    obtain ⟨k, w⟩ := m
    rw [List.map_cons, List.nodup_cons] at h
    rw [List.lookup_cons, List.mem_cons]
    by_cases hk : key = k
    · subst hk
      have habsent : (key, v) ∉ members := fun hmem => h.1 (List.mem_map.mpr ⟨(key, v), hmem, rfl⟩)
      simp [habsent, eq_comm]
    · have hbeq : (key == k) = false := by simpa using hk
      rw [hbeq, ih h.2]
      simp [hk]

theorem Json.uniqueKeys_of_lookup (h : Json.uniqueMembers members = true)
    (hv : members.lookup key = some v) : v.uniqueKeys = true := by
  induction members with
  | nil => simp at hv
  | cons m members ih =>
    obtain ⟨k, w⟩ := m
    rw [Json.uniqueMembers, Bool.and_eq_true] at h
    rw [List.lookup_cons] at hv
    split at hv
    · obtain rfl := Option.some.inj hv
      exact h.1
    · exact ih h.2 hv

theorem Json.uniqueKeys_get? {w : Json} (h : w.uniqueKeys = true) (hv : w.get? key = some v) : v.uniqueKeys = true := by
  cases w with
  | object members =>
    rw [Json.uniqueKeys, Bool.and_eq_true] at h
    exact Json.uniqueKeys_of_lookup h.2 hv
  | _ => cases hv

theorem Json.nodup_of_uniqueKeys {v : Json} (h : v.uniqueKeys = true) : (v.members.map Prod.fst).Nodup := by
  cases v with
  | object members =>
    rw [Json.uniqueKeys, Bool.and_eq_true] at h
    exact of_decide_eq_true h.1
  | _ => exact List.nodup_nil

end Unique

namespace Reordered

variable {v w : Json} {xs ys : List Json}

theorem forall₂_refl (xs : List Json) : List.Forall₂ Reordered xs xs :=
  List.forall₂_same.mpr fun v _ => .refl v

theorem members_forall₂_refl (ms : List Member) : List.Forall₂ (MemberRel Reordered) ms ms :=
  List.forall₂_same.mpr fun m _ => .mk m.1 (.refl m.2)

theorem of_perm {ms ms' : List Member} (h : ms.Perm ms') (hnodup : (ms.map Prod.fst).Nodup) :
    Reordered (.object ms) (.object ms') :=
  .object h hnodup (members_forall₂_refl ms')

theorem lookup_forall₂ {mid ms : List Member} (h : List.Forall₂ (MemberRel Reordered) mid ms)
    (key : String) : Option.Rel Reordered (mid.lookup key) (ms.lookup key) := by
  induction h with
  | nil => exact .none
  | cons hm _ ih =>
    cases hm with
    | mk k hv =>
      rw [List.lookup_cons, List.lookup_cons]
      split
      · exact .some hv
      · exact ih

theorem option_refl : ∀ o : Option Json, Option.Rel Reordered o o
  | none => .none
  | some v => .some (.refl v)

theorem map_fst_eq {mid ms : List Member} (h : List.Forall₂ (MemberRel Reordered) mid ms) :
    mid.map Prod.fst = ms.map Prod.fst := by
  induction h with
  | nil => rfl
  | cons hm _ ih =>
    cases hm
    rw [List.map_cons, List.map_cons, ih]

theorem nodup_right {xs mid ys : List Member} (hperm : xs.Perm mid) (hnodup : (xs.map Prod.fst).Nodup)
    (hrel : List.Forall₂ (MemberRel Reordered) mid ys) : (ys.map Prod.fst).Nodup := by
  rw [← map_fst_eq hrel]
  exact (hperm.map Prod.fst).nodup_iff.mp hnodup

theorem nodup (h : Reordered v w) (hnodup : (v.members.map Prod.fst).Nodup) : (w.members.map Prod.fst).Nodup := by
  cases h with
  | refl => exact hnodup
  | array => exact List.nodup_nil
  | object hperm hnodup hrel => exact nodup_right hperm hnodup hrel

theorem get? (h : Reordered v w) (key : String) : Option.Rel Reordered (v.get? key) (w.get? key) := by
  cases h with
  | refl => exact option_refl _
  | array => exact .none
  | object hperm hnodup hrel =>
    rename_i xs mid ys
    have hlookup : xs.lookup key = mid.lookup key := by
      refine Option.ext fun v => ?_
      rw [lookup_eq_some_iff hnodup, lookup_eq_some_iff ((hperm.map Prod.fst).nodup_iff.mp hnodup), hperm.mem_iff]
    unfold Json.get? Json.members
    rw [hlookup]
    exact lookup_forall₂ hrel key

theorem get?_cases (h : Reordered v w) (key : String) : (v.get? key = none ∧ w.get? key = none) ∨
      ∃ x y, v.get? key = some x ∧ w.get? key = some y ∧ Reordered x y := by
  have hrel := h.get? key
  generalize v.get? key = o at hrel
  generalize w.get? key = o' at hrel
  cases hrel with
  | none => exact .inl ⟨rfl, rfl⟩
  | some hxy => exact .inr ⟨_, _, rfl, rfl, hxy⟩

theorem isSome_get? (h : Reordered v w) (key : String) : (w.get? key).isSome = (v.get? key).isSome := by
  obtain ⟨hv, hw⟩ | ⟨x, y, hv, hw, -⟩ := h.get?_cases key
  · rw [hv, hw]
  · rw [hv, hw]
    rfl

theorem str (h : Reordered v w) : w.str = v.str := by
  cases h <;> rfl

theorem getBoolean (h : Reordered v w) : w.getBoolean = v.getBoolean := by
  cases h <;> rfl

theorem items (h : Reordered v w) : List.Forall₂ Reordered v.items w.items := by
  cases h with
  | refl => exact forall₂_refl _
  | array h => exact h
  | object => exact .nil

theorem length_members (h : Reordered v w) : w.members.length = v.members.length := by
  cases h with
  | refl => rfl
  | array => rfl
  | object hperm _ hrel => exact hrel.length_eq.symm.trans hperm.length_eq.symm

end Reordered

theorem foldl_reordered {σ : Type*} {step : σ → Member → σ} {Rel : σ → σ → Prop} {ok : Member → Prop}
    {v w : Json} (h : Reordered v w)
    (hcomm : ∀ a ∈ v.members, ∀ b ∈ v.members, a.1 ≠ b.1 → ∀ s, step (step s a) b = step (step s b) a)
    (hcongr : ∀ s t key v w, ok (key, v) → Rel s t → Reordered v w → Rel (step s (key, v)) (step t (key, w)))
    (hok : ∀ m ∈ v.members, ok m) {s t : σ} (hst : Rel s t) :
    Rel (v.members.foldl step s) (w.members.foldl step t) := by
  have hlist : ∀ {ms ms' : List Member}, List.Forall₂ (MemberRel Reordered) ms ms' →
      (∀ m ∈ ms, ok m) → ∀ {s t : σ}, Rel s t → Rel (ms.foldl step s) (ms'.foldl step t) := by
    intro ms ms' hrel
    induction hrel with
    | nil => exact fun _ _ _ hst => hst
    | cons hm _ ih =>
      intro hok s t hst
      cases hm with
      | mk key hv =>
        refine ih (fun m hmem => hok m (List.mem_cons_of_mem _ hmem)) ?_
        exact hcongr s t key _ _ (hok _ List.mem_cons_self) hst hv
  cases h with
  | refl => exact hlist (Reordered.members_forall₂_refl _) hok hst
  | array => exact hst
  | object hperm hnodup hrel =>
    rename_i xs mid ys
    have hfold : xs.foldl step s = mid.foldl step s := by
      refine hperm.foldl_eq' ?_ s
      intro a ha b hb z
      by_cases hab : a = b
      · rw [hab]
      · exact hcomm a ha b hb (fun hkey => hab (List.inj_on_of_nodup_map hnodup ha hb hkey)) z
    show Rel (xs.foldl step s) (ys.foldl step t)
    rw [hfold]
    exact hlist hrel (fun m hmem => hok m (hperm.mem_iff.mpr hmem)) hst

theorem foldl_reordered_eq {σ : Type*} {step : σ → Member → σ} (ok : Member → Prop) {v w : Json} (h : Reordered v w)
    (hcomm : ∀ a ∈ v.members, ∀ b ∈ v.members, a.1 ≠ b.1 → ∀ s, step (step s a) b = step (step s b) a)
    (hcongr : ∀ s key v w, ok (key, v) → Reordered v w → step s (key, v) = step s (key, w))
    (hok : ∀ m ∈ v.members, ok m) (s : σ) :
    v.members.foldl step s = w.members.foldl step s := by
  have hrel : ∀ s t key v w, ok (key, v) → s = t → Reordered v w → step s (key, v) = step t (key, w) := by
    rintro s t key v w hm rfl hvw
    exact hcongr s key v w hm hvw
  exact foldl_reordered h hcomm hrel hok rfl

section Replace

variable {members : List Member} {key : String} {old value : Json}

def replaceMember (key : String) (value : Json) (members : List Member) : List Member :=
  members.map fun m => if m.1 = key then (key, value) else m

theorem lookup_replaceMember_of_ne {k : String} (hk : k ≠ key) :
    (replaceMember key value members).lookup k = members.lookup k := by
  induction members with
  | nil => rfl
  | cons m members ih =>
    obtain ⟨j, v⟩ := m
    unfold replaceMember at ih ⊢
    rw [List.map_cons]
    by_cases hj : j = key
    · have hbeq : (k == key) = false := by simpa using hk
      simp only [hj, if_true, List.lookup_cons, hbeq]
      exact ih
    · simp only [hj, if_false, List.lookup_cons]
      split
      · rfl
      · exact ih

theorem lookup_replaceMember (h : members.lookup key = some old) :
    (replaceMember key value members).lookup key = some value := by
  induction members with
  | nil => cases h
  | cons m members ih =>
    obtain ⟨j, v⟩ := m
    unfold replaceMember at ih ⊢
    rw [List.map_cons]
    by_cases hj : j = key
    · simp [hj]
    · have hbeq : (key == j) = false := by simpa using Ne.symm hj
      rw [List.lookup_cons, hbeq] at h
      simp only [hj, if_false, List.lookup_cons, hbeq]
      exact ih h

theorem Reordered.replaceMember (hnodup : (members.map Prod.fst).Nodup)
    (hlookup : members.lookup key = some old) (h : Reordered old value) :
    Reordered (.object members) (.object (replaceMember key value members)) := by
  refine .object (List.Perm.refl _) hnodup (List.forall₂_map_right_iff.mpr (List.forall₂_same.mpr ?_))
  rintro ⟨k, v⟩ hm
  simp only
  split
  · rename_i hk
    subst hk
    obtain rfl : v = old := by
      have := (lookup_eq_some_iff hnodup).mpr hm
      rw [hlookup] at this
      exact (Option.some.inj this).symm
    exact .mk k h
  · exact .mk k (.refl v)

end Replace

section Lookup

variable {σ : Type*} {step : σ → Member → σ} {members : List Member} {s : σ}

def applyMember (step : σ → Member → σ) (key : String) (value : Option Json) (s : σ) : σ :=
  match value with
  | some v => step s (key, v)
  | none => s

theorem foldl_of_key {key : String} (hother : ∀ m ∈ members, m.1 ≠ key → ∀ s, step s m = s)
    (hnodup : (members.map Prod.fst).Nodup) :
    members.foldl step s = applyMember step key (members.lookup key) s := by
  induction members generalizing s with
  | nil => rfl
  | cons m members ih =>
    obtain ⟨k, v⟩ := m
    rw [List.map_cons, List.nodup_cons] at hnodup
    have ih' := ih (s := step s (k, v)) (fun m hm => hother m (List.mem_cons_of_mem _ hm)) hnodup.2
    rw [List.foldl_cons, ih', List.lookup_cons]
    by_cases hk : key = k
    · subst hk
      have hnone : members.lookup key = none := by
        refine List.lookup_eq_none_iff.mpr fun m hm => ?_
        have hne : key ≠ m.1 := fun heq => hnodup.1 (List.mem_map.mpr ⟨m, hm, heq.symm⟩)
        simpa using hne
      rw [hnone, beq_self_eq_true]
      rfl
    · have hbeq : (key == k) = false := by simpa using hk
      rw [hbeq, hother (k, v) List.mem_cons_self (fun heq => hk heq.symm)]

theorem lookup_reverse (hnodup : (members.map Prod.fst).Nodup) (key : String) :
    members.reverse.lookup key = members.lookup key := by
  have hnodup' : (members.reverse.map Prod.fst).Nodup := by
    rw [List.map_reverse, List.nodup_reverse]
    exact hnodup
  refine Option.ext fun v => ?_
  rw [lookup_eq_some_iff hnodup', lookup_eq_some_iff hnodup, List.mem_reverse]

theorem foldl_cons_of_key {k₁ k₂ : String} {v : Json} (hne : k₁ ≠ k₂)
    (hother : ∀ m ∈ (k₁, v) :: members, m.1 ≠ k₁ → m.1 ≠ k₂ → ∀ s, step s m = s)
    (hnodup : (((k₁, v) :: members).map Prod.fst).Nodup) (s : σ) :
    ((k₁, v) :: members).foldl step s =
        applyMember step k₂ (((k₁, v) :: members).lookup k₂) (applyMember step k₁ (((k₁, v) :: members).lookup k₁) s) ∧
      ((k₁, v) :: members).reverse.foldl step s =
        applyMember step k₁ (((k₁, v) :: members).lookup k₁)
          (applyMember step k₂ (((k₁, v) :: members).lookup k₂) s) := by
  rw [List.map_cons, List.nodup_cons] at hnodup
  have hbeq : (k₂ == k₁) = false := by simpa using Ne.symm hne
  have hrest : ∀ m ∈ members, m.1 ≠ k₂ → ∀ s, step s m = s := by
    intro m hm hk₂
    refine hother m (List.mem_cons_of_mem _ hm) ?_ hk₂
    rintro hk₁
    exact hnodup.1 (List.mem_map.mpr ⟨m, hm, hk₁⟩)
  have hrest' : ∀ m ∈ members.reverse, m.1 ≠ k₂ → ∀ s, step s m = s := by
    intro m hm
    exact hrest m (List.mem_reverse.mp hm)
  have hnodup' : (members.reverse.map Prod.fst).Nodup := by
    rw [List.map_reverse, List.nodup_reverse]
    exact hnodup.2
  rw [List.lookup_cons, List.lookup_cons, beq_self_eq_true, hbeq]
  constructor
  · rw [List.foldl_cons, foldl_of_key hrest hnodup.2]
    rfl
  · rw [List.reverse_cons, List.foldl_append, foldl_of_key hrest' hnodup', lookup_reverse hnodup.2]
    rfl

/-- A fold whose steps look at two keys only does one of them first, and a fold over the members from the
last to the first does the other one first. -/
theorem foldl_of_keys {k₁ k₂ : String} (hne : k₁ ≠ k₂) (hother : ∀ m ∈ members, m.1 ≠ k₁ → m.1 ≠ k₂ → ∀ s, step s m = s)
    (hnodup : (members.map Prod.fst).Nodup) (s : σ) :
    (members.foldl step s =
        applyMember step k₂ (members.lookup k₂) (applyMember step k₁ (members.lookup k₁) s) ∧
      members.reverse.foldl step s =
        applyMember step k₁ (members.lookup k₁) (applyMember step k₂ (members.lookup k₂) s)) ∨
    (members.foldl step s =
        applyMember step k₁ (members.lookup k₁) (applyMember step k₂ (members.lookup k₂) s) ∧
      members.reverse.foldl step s =
        applyMember step k₂ (members.lookup k₂) (applyMember step k₁ (members.lookup k₁) s)) := by
  induction members generalizing s with
  | nil => exact .inl ⟨rfl, rfl⟩
  | cons m members ih =>
    obtain ⟨k, v⟩ := m
    by_cases hk₁ : k = k₁
    · subst hk₁
      exact .inl (foldl_cons_of_key hne hother hnodup s)
    · by_cases hk₂ : k = k₂
      · subst hk₂
        refine .inr (foldl_cons_of_key (Ne.symm hne) ?_ hnodup s)
        exact fun m hm h₂ h₁ => hother m hm h₁ h₂
      · rw [List.map_cons, List.nodup_cons] at hnodup
        have hid : ∀ s, step s (k, v) = s := hother (k, v) List.mem_cons_self hk₁ hk₂
        have hbeq₁ : (k₁ == k) = false := by simpa using Ne.symm hk₁
        have hbeq₂ : (k₂ == k) = false := by simpa using Ne.symm hk₂
        rw [List.foldl_cons, hid, List.reverse_cons, List.foldl_append, List.foldl_cons, hid, List.foldl_nil]
        simp only [List.lookup_cons, hbeq₁, hbeq₂]
        exact ih (fun m hm => hother m (List.mem_cons_of_mem _ hm)) hnodup.2 s

end Lookup

section Dispatch

variable {σ : Type*}

def dispatch : List (String × (Json → σ → σ)) → σ → Member → σ
  | [], s, _ => s
  | (key, handler) :: handlers, s, m => if m.1 = key then handler m.2 s else dispatch handlers s m

def Independent (handler handler' : String × (Json → σ → σ)) : Prop :=
  ∀ v w s, handler.2 v (handler'.2 w s) = handler'.2 w (handler.2 v s)

instance : Std.Symm (@Independent σ) :=
  ⟨fun _ _ h v w s => (h w v s).symm⟩

variable {handlers : List (String × (Json → σ → σ))} {step : σ → Member → σ}

theorem dispatch_cases (handlers : List (String × (Json → σ → σ))) (m : Member) :
    (m.1 ∉ handlers.map Prod.fst ∧ ∀ s, dispatch handlers s m = s) ∨
      ∃ handler ∈ handlers, handler.1 = m.1 ∧ ∀ s, dispatch handlers s m = handler.2 m.2 s := by
  induction handlers with
  | nil => exact .inl ⟨List.not_mem_nil, fun _ => rfl⟩
  | cons handler handlers ih =>
    obtain ⟨key, f⟩ := handler
    by_cases hkey : m.1 = key
    · refine .inr ⟨(key, f), List.mem_cons_self, hkey.symm, fun s => ?_⟩
      rw [dispatch, if_pos hkey]
    · obtain ⟨habsent, hid⟩ | ⟨handler, hmem, heq, hrun⟩ := ih
      · refine .inl ⟨?_, fun s => ?_⟩
        · rw [List.map_cons, List.mem_cons, not_or]
          exact ⟨hkey, habsent⟩
        · rw [dispatch, if_neg hkey, hid]
      · refine .inr ⟨handler, List.mem_cons_of_mem _ hmem, heq, fun s => ?_⟩
        rw [dispatch, if_neg hkey, hrun]

theorem dispatch_comm (hpair : handlers.Pairwise Independent) (a b : Member) (hne : a.1 ≠ b.1) (s : σ) :
    dispatch handlers (dispatch handlers s a) b = dispatch handlers (dispatch handlers s b) a := by
  obtain ⟨-, ha⟩ | ⟨f, hf, hfa, ha⟩ := dispatch_cases handlers a
  · rw [ha, ha]
  · obtain ⟨-, hb⟩ | ⟨g, hg, hgb, hb⟩ := dispatch_cases handlers b
    · rw [hb, hb]
    · rw [ha, hb, hb, ha]
      refine hpair.forall hg hf ?_ b.2 a.2 s
      rintro rfl
      exact hne (hfa.symm.trans hgb)

theorem eq_dispatch (hkey : ∀ handler ∈ handlers, ∀ v s, step s (handler.1, v) = handler.2 v s)
    {m : Member} (hother : m.1 ∉ handlers.map Prod.fst → ∀ s, step s m = s) (s : σ) :
    step s m = dispatch handlers s m := by
  obtain ⟨key, v⟩ := m
  obtain ⟨habsent, hid⟩ | ⟨handler, hmem, rfl, hrun⟩ := dispatch_cases handlers (key, v)
  · rw [hother habsent, hid]
  · rw [hkey handler hmem, hrun]

end Dispatch

end JsonTree

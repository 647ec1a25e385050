import Mathlib.Data.List.Chain

/-!
# Circular lists in two arrays

A list can be kept in two arrays, one with the element after each element and one with the element
before it. It is circular when the last element leads back to the first one. Taking an element out
and putting one in at the head each change two links, and the other links do not notice.
-/

namespace Ring

open Function (update update_of_ne update_self)

variable {α : Type*}

def Adjacent (next prev : α → α) (a b : α) : Prop :=
  next a = b ∧ prev b = a

def Holds (next prev : α → α) : List α → Prop
  | [] => True
  | a :: rest => (a :: rest ++ [a]).IsChain (Adjacent next prev)

variable {next prev : α → α} {a x g : α} {l rest : List α}

theorem isChain_congr {next' prev' : α → α} (h : l.IsChain (Adjacent next prev))
    (hnext : ∀ b ∈ l.dropLast, next' b = next b) (hprev : ∀ b ∈ l.tail, prev' b = prev b) :
    l.IsChain (Adjacent next' prev') := by
  induction l with
  | nil => exact .nil
  | cons a l ih =>
    cases l with
    | nil => exact .singleton a
    | cons b l =>
      obtain ⟨⟨hab, hba⟩, hrest⟩ := List.isChain_cons_cons.mp h
      refine List.isChain_cons_cons.mpr ⟨⟨?_, ?_⟩, ih hrest ?_ ?_⟩
      · rw [hnext a (by simp), hab]
      · rw [hprev b (by simp), hba]
      · exact fun c hc => hnext c (by simp [hc])
      · exact fun c hc => hprev c (by simp only [List.tail_cons] at hc ⊢; simp [hc])

theorem holds_singleton (hnext : next a = a) (hprev : prev a = a) : Holds next prev [a] :=
  List.isChain_cons_cons.mpr ⟨⟨hnext, hprev⟩, .singleton a⟩

theorem prev_head {t : α} (h : Holds next prev (a :: rest)) (ht : (a :: rest).getLast? = some t) : prev a = t := by
  obtain ⟨init, hinit⟩ := List.getLast?_eq_some_iff.mp ht
  rw [Holds, hinit] at h
  have hlast : (init ++ [t]).IsChain (Adjacent next prev) ∧ Adjacent next prev t a := by
    simpa using h
  exact hlast.2.2

section Change

variable [DecidableEq α]

theorem holds_cons (h : Holds next prev (a :: rest)) (hnodup : (a :: rest).Nodup) (hx : x ∉ a :: rest) :
    Holds (update (update next x a) (prev a) x)
      (update (update prev x (prev a)) a x) (x :: a :: rest) := by
  obtain ⟨t, ht⟩ : ∃ t, (a :: rest).getLast? = some t := by
    exact ⟨_, List.getLast?_eq_getLast_of_ne_nil (List.cons_ne_nil a rest)⟩
  have htail : prev a = t := prev_head h ht
  obtain ⟨init, hinit⟩ := List.getLast?_eq_some_iff.mp ht
  have hmem : t ∈ a :: rest := by rw [hinit]; simp
  have hxa : x ≠ a := fun hxa => hx (hxa ▸ List.mem_cons_self)
  have hxt : x ≠ t := fun hxt => hx (hxt ▸ hmem)
  have hchain : (a :: rest).IsChain (Adjacent next prev) := List.IsChain.left_of_append h
  rw [htail]
  have hinner : (a :: rest).IsChain (Adjacent (update (update next x a) t x)
      (update (update prev x t) a x)) := by
    refine isChain_congr hchain ?_ ?_
    · intro b hb
      have hbt : b ≠ t := by
        rintro rfl
        rw [hinit] at hnodup
        rw [hinit, List.dropLast_concat] at hb
        exact (List.nodup_append.mp hnodup).2.2 b hb b (by simp) rfl
      have hbx : b ≠ x := fun hbx => hx (hbx ▸ List.dropLast_subset _ hb)
      rw [update_of_ne hbt, update_of_ne hbx]
    · intro b hb
      have hba : b ≠ a := fun hba => (List.nodup_cons.mp hnodup).1 (hba ▸ hb)
      have hbx : b ≠ x := fun hbx => hx (hbx ▸ List.mem_cons_of_mem _ hb)
      rw [update_of_ne hba, update_of_ne hbx]
  refine List.isChain_cons_cons.mpr ⟨⟨?_, update_self ..⟩, ?_⟩
  · rw [update_of_ne hxt, update_self]
  · change ((a :: rest) ++ [x]).IsChain _
    rw [hinit] at hinner ⊢
    rw [List.append_assoc]
    refine List.isChain_split.mpr ⟨hinner, ?_⟩
    refine List.isChain_cons_cons.mpr ⟨⟨update_self .., ?_⟩, .singleton x⟩
    rw [update_of_ne hxa, update_self]

theorem holds_erase (h : Holds next prev (a :: rest)) (hnodup : (a :: rest).Nodup) (hg : g ∈ rest) :
    Holds (update next (prev g) (next g)) (update prev (next g) (prev g)) (a :: rest.erase g) := by
  obtain ⟨before, after, hrest, hbefore⟩ := List.eq_append_cons_of_mem hg
  have herase : rest.erase g = before ++ after := by
    rw [hrest, List.erase_append_right _ hbefore, List.erase_cons_head]
  obtain ⟨init, p, hp⟩ : ∃ init p, a :: before = init ++ [p] :=
    ⟨_, _, (List.dropLast_append_getLast (List.cons_ne_nil a before)).symm⟩
  have hlist : a :: rest = init ++ p :: g :: after := by
    rw [hrest, ← List.cons_append, hp]
    simp
  have hcircle : (init ++ p :: g :: (after ++ [a])).IsChain (Adjacent next prev) := by
    have hfull : (a :: rest ++ [a]).IsChain (Adjacent next prev) := h
    rw [hlist] at hfull
    simpa using hfull
  obtain ⟨hfront, ⟨-, hprevg⟩, hback⟩ := List.isChain_append_cons_cons.mp hcircle
  rw [hlist] at hnodup
  rw [herase, hprevg]
  change (a :: (before ++ after) ++ [a]).IsChain _
  rw [← List.cons_append, hp]
  have hne : ∀ b ∈ init, b ≠ p := by
    rintro b hb rfl
    exact (List.nodup_append.mp hnodup).2.2 b hb b (by simp) rfl
  cases after with
  | nil =>
    obtain ⟨⟨hnextg, -⟩, -⟩ := List.isChain_cons_cons.mp hback
    rw [hnextg]
    have ha : ∀ b ∈ (init ++ [p]).tail, b ≠ a := by
      intro b hb hba
      rw [← hp, List.tail_cons] at hb
      rw [← hlist, hrest] at hnodup
      exact (List.nodup_cons.mp hnodup).1 (hba ▸ List.mem_append_left _ hb)
    rw [List.append_nil, List.append_assoc]
    refine List.isChain_split.mpr ⟨isChain_congr hfront ?_ ?_, ?_⟩
    · intro b hb
      rw [List.dropLast_concat] at hb
      rw [update_of_ne (hne b hb)]
    · exact fun b hb => update_of_ne (ha b hb) _ _
    · exact List.isChain_cons_cons.mpr ⟨⟨update_self .., update_self ..⟩, .singleton a⟩
  | cons n after =>
    obtain ⟨⟨hnextg, -⟩, hrestchain⟩ := List.isChain_cons_cons.mp hback
    rw [hnextg]
    have hsplit := List.nodup_append.mp hnodup
    have hpn : p ∉ n :: after := by
      intro hmem
      exact (List.nodup_cons.mp hsplit.2.1).1 (List.mem_cons_of_mem _ hmem)
    have hna : n ≠ a := by
      rintro rfl
      rw [← hlist, hrest] at hnodup
      exact (List.nodup_cons.mp hnodup).1 (by simp)
    have hinit : ∀ b ∈ init ++ [p], b ≠ n := by
      intro b hb hbn
      rcases List.mem_append.mp hb with hb | hb
      · exact hsplit.2.2 b hb n (by simp) hbn
      · obtain rfl := List.mem_singleton.mp hb
        exact hpn (hbn ▸ List.mem_cons_self)
    have hafter : n ∉ after :=
      (List.nodup_cons.mp (List.nodup_cons.mp (List.nodup_cons.mp hsplit.2.1).2).2).1
    have hgoal : (init ++ p :: n :: (after ++ [a])).IsChain
        (Adjacent (update next p n) (update prev n p)) := by
      refine List.isChain_append_cons_cons.mpr
        ⟨isChain_congr hfront ?_ ?_, ⟨update_self .., update_self ..⟩, isChain_congr hrestchain ?_ ?_⟩
      · intro b hb
        rw [List.dropLast_concat] at hb
        rw [update_of_ne (hne b hb)]
      · exact fun b hb => update_of_ne (hinit b (List.mem_of_mem_tail hb)) _ _
      · intro b hb
        rw [← List.cons_append, List.dropLast_concat] at hb
        refine update_of_ne ?_ _ _
        rintro rfl
        exact hpn hb
      · intro b hb
        refine update_of_ne ?_ _ _
        rintro rfl
        rcases List.mem_append.mp hb with hb | hb
        · exact hafter hb
        · exact hna (List.mem_singleton.mp hb)
    simpa using hgoal

end Change

end Ring

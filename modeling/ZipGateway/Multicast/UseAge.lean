import ZipGateway.Lib.Ring
import ZipGateway.Multicast.Groups

/-!
# The groups and the age of their last use

The circular list holds the ids in the order of their last use. A group whose mask is contained in
the mask that is asked for is extended to it; its list of nodes only grows. The nodes of a group are
forgotten in one case only: no group can be extended, no id is free, and the id is the one that was
not used for the longest time.
-/

namespace ZipGateway.Multicast

open Function (update update_eq_self update_of_ne update_self)

def recent : List GroupId → List GroupId
  | [] => []
  | g :: uses => g :: (recent uses).erase g

def Contained (old new : Nodemask) : Prop :=
  List.Forall₂ (fun a b : UInt8 => a &&& ~~~b = 0) old.toList new.toList

structure Managed (s : State) : Prop where
  circular : Ring.Holds s.next s.prev (recent s.uses)
  head : s.useAgeHead = (recent s.uses).headD 0
  once : (recent s.uses).Nodup
  members : ∀ g, g ∈ recent s.uses ↔ s.inUse g = true
  range : ∀ g, s.inUse g = true → 1 ≤ g ∧ g ≤ mcastMaxGroups
  distinct : ∀ g h, s.inUse g = true → s.inUse h = true → s.nlist g = s.nlist h → g = h

/-- What a request for a mask gets and what it does to the groups. -/
structure Answers (s : State) (nodemask : Nodemask) (id : GroupId) (t : State) : Prop where
  denotes : mcastGroupGetNodemaskById t id = some nodemask
  used : t.uses = id :: s.uses
  others : ∀ g, g ≠ id → t.nlist g = s.nlist g ∧ t.inUse g = s.inUse g
  /-- The group gets more nodes, or it is the last one of the list and no id is free. -/
  replaced : s.inUse id = true → Contained (s.nlist id) nodemask ∨
    ((recent s.uses).getLast? = some id ∧ ∀ g, 1 ≤ g → g ≤ mcastMaxGroups → s.inUse g = true)

variable {found : Found} {l : List GroupId}

section Distance

variable {old new : Nodemask}

theorem countBits_pos {tmp : UInt8} (h : tmp ≠ 0) : 0 < countBits tmp := by
  rw [countBits, dif_neg h]
  exact Nat.succ_pos _

theorem mcastByteDistance_eq_zero {old new : UInt8} : mcastByteDistance old new = 0 ↔ old = new := by
  constructor
  · intro h
    by_contra hne
    rw [mcastByteDistance, if_neg hne] at h
    split at h
    · exact absurd h (by decide)
    · have hxor : old ^^^ new ≠ 0 := fun hzero => hne (UInt8.xor_eq_zero_iff.mp hzero)
      exact absurd h (Nat.pos_iff_ne_zero.mp (countBits_pos hxor))
  · rintro rfl
    rw [mcastByteDistance, if_pos rfl]

theorem byte_contained {old new : UInt8} (h : mcastByteDistance old new ≠ mcastDistInf) : old &&& ~~~new = 0 := by
  by_contra hne
  have hdiffer : old ≠ new := by
    rintro rfl
    exact hne (by simp)
  rw [mcastByteDistance, if_neg hdiffer, if_pos hne] at h
  exact h rfl

theorem maskDistance_eq_zero {olds news : List UInt8} {dist : Nat} (hlen : olds.length = news.length) :
    maskDistance olds news dist = 0 ↔ dist = 0 ∧ olds = news := by
  induction olds generalizing news dist with
  | nil =>
    have hnews : news = [] := List.length_eq_zero_iff.mp hlen.symm
    simp [maskDistance, hnews]
  | cons old olds ih =>
    cases news with
    | nil => simp at hlen
    | cons new news =>
      have hrest : olds.length = news.length := by simpa using hlen
      rw [maskDistance]
      split
      · rename_i hinf
        have hne : old ≠ new := by
          intro heq
          rw [mcastByteDistance_eq_zero.mpr heq] at hinf
          exact absurd hinf (by decide)
        simp [hne, mcastDistInf]
      · rw [ih hrest, Nat.add_eq_zero_iff, mcastByteDistance_eq_zero, List.cons.injEq, and_assoc]

theorem contained_of_maskDistance {olds news : List UInt8} {dist : Nat}
    (hlen : olds.length = news.length) (h : maskDistance olds news dist ≠ mcastDistInf) :
    List.Forall₂ (fun a b : UInt8 => a &&& ~~~b = 0) olds news := by
  induction olds generalizing news dist with
  | nil =>
    rw [List.length_eq_zero_iff.mp hlen.symm]
    exact .nil
  | cons old olds ih =>
    cases news with
    | nil => simp at hlen
    | cons new news =>
      have hrest : olds.length = news.length := by simpa using hlen
      rw [maskDistance] at h
      split at h
      · exact absurd rfl h
      · rename_i hbyte
        exact .cons (byte_contained hbyte) (ih hrest h)

theorem mcastNodemaskDistance_eq_zero : mcastNodemaskDistance old new = 0 ↔ old = new := by
  rw [mcastNodemaskDistance, maskDistance_eq_zero (by simp)]
  simp [Vector.toList_inj]

theorem contained_of_distance (h : mcastNodemaskDistance old new < 0xFF) : Contained old new := by
  have hfinite : maskDistance old.toList new.toList 0 ≠ mcastDistInf := by
    intro hinf
    rw [mcastNodemaskDistance, hinf] at h
    exact absurd h (by decide)
  exact contained_of_maskDistance (by simp) hfinite

end Distance

section Search

variable {s : State} {nodemask : Nodemask}

structure Searched (s : State) (nodemask : Nodemask) (ids : List GroupId) (found : Found) : Prop where
  candidate : found.candidate ≠ 0 → s.inUse found.candidate = true ∧
    mcastNodemaskDistance (s.nlist found.candidate) nodemask = found.lowestDist ∧
    found.lowestDist < 0xFF
  unfound : found.candidate = 0 → found.lowestDist = 0xFF
  lowest : ∀ id ∈ ids, s.inUse id = true → found.lowestDist ≤ mcastNodemaskDistance (s.nlist id) nodemask
  unused : found.firstUnused ≠ 0 → found.firstUnused ∈ ids ∧ s.inUse found.firstUnused = false
  full : found.firstUnused = 0 → ∀ id ∈ ids, s.inUse id = true

theorem searched_consider {ids : List GroupId} {id : GroupId} (hid : id ≠ 0) (h : Searched s nodemask ids found) :
    Searched s nodemask (ids ++ [id]) (consider s nodemask found id) := by
  unfold consider
  split
  · rename_i huse
    have hfull : found.firstUnused = 0 → ∀ i ∈ ids ++ [id], s.inUse i = true := by
      intro hzero i hi
      rcases List.mem_append.mp hi with hi | hi
      · exact h.full hzero i hi
      · rw [List.mem_singleton.mp hi]
        exact huse
    have hunused : found.firstUnused ≠ 0 → found.firstUnused ∈ ids ++ [id] ∧ s.inUse found.firstUnused = false := by
      intro hne
      exact ⟨List.mem_append_left _ (h.unused hne).1, (h.unused hne).2⟩
    simp only
    split
    · rename_i hlt
      refine ⟨fun _ => ⟨huse, rfl, ?_⟩, fun hzero => absurd hzero hid, ?_, hunused, hfull⟩
      · by_cases hzero : found.candidate = 0
        · rw [h.unfound hzero] at hlt
          exact hlt
        · exact lt_trans hlt (h.candidate hzero).2.2
      · intro i hi hi'
        rcases List.mem_append.mp hi with hi | hi
        · exact le_trans (le_of_lt hlt) (h.lowest i hi hi')
        · rw [List.mem_singleton.mp hi]
    · rename_i hge
      refine ⟨h.candidate, h.unfound, ?_, hunused, hfull⟩
      intro i hi hi'
      rcases List.mem_append.mp hi with hi | hi
      · exact h.lowest i hi hi'
      · rw [List.mem_singleton.mp hi]
        exact not_lt.mp hge
  · rename_i huse
    have hlowest : ∀ i ∈ ids ++ [id], s.inUse i = true →
        found.lowestDist ≤ mcastNodemaskDistance (s.nlist i) nodemask := by
      intro i hi hi'
      rcases List.mem_append.mp hi with hi | hi
      · exact h.lowest i hi hi'
      · rw [List.mem_singleton.mp hi] at hi'
        exact absurd hi' huse
    split
    · refine ⟨h.candidate, h.unfound, hlowest, fun _ => ⟨by simp, by simpa using huse⟩, ?_⟩
      exact fun hzero => absurd hzero hid
    · rename_i hne
      exact ⟨h.candidate, h.unfound, hlowest, fun _ => ⟨List.mem_append_left _ (h.unused hne).1, (h.unused hne).2⟩,
        fun hzero => absurd hzero hne⟩

theorem searched_search (s : State) (nodemask : Nodemask) :
    Searched s nodemask (List.range' 1 mcastMaxGroups) (search s nodemask) := by
  have hfold : ∀ (later earlier : List GroupId) (found : Found), (∀ id ∈ later, id ≠ 0) →
      Searched s nodemask earlier found →
      Searched s nodemask (earlier ++ later) (later.foldl (consider s nodemask) found) := by
    intro later
    induction later with
    | nil => exact fun earlier found _ h => by simpa using h
    | cons id later ih =>
      intro earlier found hne h
      have hnext := searched_consider (hne id List.mem_cons_self) h
      have hrest := ih _ _ (fun i hi => hne i (List.mem_cons_of_mem _ hi)) hnext
      simpa using hrest
  have hstart : Searched s nodemask [] ⟨0, 0, 0xFF⟩ :=
    ⟨by simp, by simp, by simp, by simp, by simp⟩
  refine hfold (List.range' 1 mcastMaxGroups) [] _ ?_ hstart
  intro id hid
  exact Nat.pos_iff_ne_zero.mp (List.mem_range'_1.mp hid).1

theorem mem_ids {g : GroupId} : g ∈ List.range' 1 mcastMaxGroups ↔ 1 ≤ g ∧ g ≤ mcastMaxGroups := by
  rw [List.mem_range'_1, Nat.lt_one_add_iff]

end Search

section UseAge

variable {s : State} {g : GroupId}

theorem nodup_recent (uses : List GroupId) : (recent uses).Nodup := by
  induction uses with
  | nil => exact List.nodup_nil
  | cons g uses ih => exact List.nodup_cons.mpr ⟨ih.not_mem_erase, ih.erase g⟩

structure InOrder (s : State) (l : List GroupId) : Prop where
  circular : Ring.Holds s.next s.prev l
  head : s.useAgeHead = l.headD 0

theorem inOrder_useAgeUpdate (h : InOrder s l) (hnodup : l.Nodup) (hg : g ∈ l) :
    InOrder (useAgeUpdate s g) (g :: l.erase g) := by
  cases l with
  | nil => exact absurd hg (by simp)
  | cons a rest =>
    have hhead : s.useAgeHead = a := h.head
    by_cases hga : g = a
    · rw [useAgeUpdate, if_pos (hga.trans hhead.symm), hga, List.erase_cons_head]
      exact h
    · have hrest : g ∈ rest := (List.mem_cons.mp hg).resolve_left hga
      have hne : g ≠ s.useAgeHead := hhead ▸ hga
      have hremoved := Ring.holds_erase h.circular hnodup hrest
      have herase : (a :: rest).erase g = a :: rest.erase g :=
        List.erase_cons_tail (by simpa using Ne.symm hga)
      have hnodup' : (a :: rest.erase g).Nodup := herase ▸ hnodup.erase g
      have hnot : g ∉ a :: rest.erase g := herase ▸ hnodup.not_mem_erase
      rw [useAgeUpdate, if_neg hne, herase]
      refine ⟨?_, rfl⟩
      simp only [useAgeElementInsertHead, useAgeElementRemove, hhead]
      exact Ring.holds_cons hremoved hnodup' hnot

theorem inOrder_useAgeElementInsertNew (h : InOrder s l) (hnodup : l.Nodup) (hpos : ∀ b ∈ l, b ≠ 0)
    (hg : g ∉ l) : InOrder (useAgeElementInsertNew s g) (g :: l) := by
  cases l with
  | nil =>
    have hzero : s.useAgeHead = 0 := h.head
    rw [useAgeElementInsertNew, if_pos hzero]
    exact ⟨Ring.holds_singleton (update_self ..) (update_self ..), rfl⟩
  | cons a rest =>
    have hhead : s.useAgeHead = a := h.head
    have hne : s.useAgeHead ≠ 0 := by
      rw [hhead]
      exact hpos a List.mem_cons_self
    rw [useAgeElementInsertNew, if_neg hne]
    refine ⟨?_, rfl⟩
    simp only [useAgeElementInsertHead, hhead]
    exact Ring.holds_cons h.circular hnodup hg

theorem useAgeGetOldest_eq (h : InOrder s l) (hne : l ≠ []) : l.getLast? = some (useAgeGetOldest s) := by
  cases l with
  | nil => exact absurd rfl hne
  | cons a rest =>
    have hhead : s.useAgeHead = a := h.head
    obtain ⟨t, ht⟩ : ∃ t, (a :: rest).getLast? = some t :=
      ⟨_, List.getLast?_eq_getLast_of_ne_nil hne⟩
    rw [useAgeGetOldest, hhead, Ring.prev_head h.circular ht, ht]

end UseAge

section Requests

variable {s t : State} {g id : GroupId} {nodemask : Nodemask}

theorem Managed.inOrder (h : Managed s) : InOrder s (recent s.uses) :=
  ⟨h.circular, h.head⟩

theorem fields_useAgeUpdate (s : State) (g : GroupId) :
    (useAgeUpdate s g).nlist = s.nlist ∧ (useAgeUpdate s g).inUse = s.inUse ∧ (useAgeUpdate s g).uses = s.uses := by
  unfold useAgeUpdate
  split <;> exact ⟨rfl, rfl, rfl⟩

theorem fields_useAgeElementInsertNew (s : State) (g : GroupId) :
    (useAgeElementInsertNew s g).nlist = s.nlist ∧ (useAgeElementInsertNew s g).inUse = s.inUse ∧
      (useAgeElementInsertNew s g).uses = s.uses := by
  unfold useAgeElementInsertNew
  split <;> exact ⟨rfl, rfl, rfl⟩

theorem managed_used (h : Managed s) (hid : 1 ≤ id ∧ id ≤ mcastMaxGroups)
    (horder : InOrder t (id :: (recent s.uses).erase id)) (huses : t.uses = id :: s.uses)
    (hinUse : t.inUse = update s.inUse id true)
    (hnlist : t.nlist = update s.nlist id nodemask)
    (hnew : ∀ g, s.inUse g = true → s.nlist g = nodemask → g = id) : Managed t := by
  have hrecent : recent t.uses = id :: (recent s.uses).erase id := by rw [huses, recent]
  have huse : ∀ g, t.inUse g = true ↔ g = id ∨ s.inUse g = true := by
    intro g
    rw [hinUse]
    by_cases hg : g = id
    · simp [hg]
    · simp [hg]
  refine ⟨hrecent ▸ horder.circular, hrecent ▸ horder.head, nodup_recent _, ?_, ?_, ?_⟩
  · intro g
    rw [hrecent, huse, List.mem_cons]
    constructor
    · rintro (rfl | hg)
      · exact .inl rfl
      · exact .inr ((h.members g).mp (List.mem_of_mem_erase hg))
    · rintro (rfl | hg)
      · exact .inl rfl
      · by_cases hgid : g = id
        · exact .inl hgid
        · exact .inr ((List.mem_erase_of_ne hgid).mpr ((h.members g).mpr hg))
  · intro g hg
    rcases (huse g).mp hg with rfl | hg
    · exact hid
    · exact h.range g hg
  · intro g g' hg hg' heq
    rw [hnlist] at heq
    by_cases hgid : g = id
    · by_cases hgid' : g' = id
      · rw [hgid, hgid']
      · rw [hgid, update_self, update_of_ne hgid'] at heq
        rw [hgid]
        exact (hnew g' (((huse g').mp hg').resolve_left hgid') heq.symm).symm
    · by_cases hgid' : g' = id
      · rw [hgid', update_self, update_of_ne hgid] at heq
        rw [hgid']
        exact hnew g (((huse g).mp hg).resolve_left hgid) heq
      · rw [update_of_ne hgid, update_of_ne hgid'] at heq
        exact h.distinct g g' (((huse g).mp hg).resolve_left hgid) (((huse g').mp hg').resolve_left hgid') heq

theorem denotes_of_used (hid : 1 ≤ id ∧ id ≤ mcastMaxGroups) (hinUse : t.inUse = update s.inUse id true)
    (hnlist : t.nlist = update s.nlist id nodemask) :
    mcastGroupGetNodemaskById t id = some nodemask := by
  have hzero : ¬ (id = 0 ∨ mcastMaxGroups < id) := by
    rintro (rfl | hlt)
    · exact absurd hid.1 (by decide)
    · exact absurd hid.2 (Nat.not_le.mpr hlt)
  rw [mcastGroupGetNodemaskById, if_neg hzero, hinUse, hnlist, update_self, update_self, if_pos rfl]

theorem answers_of_used (hid : 1 ≤ id ∧ id ≤ mcastMaxGroups) (huses : t.uses = id :: s.uses)
    (hinUse : t.inUse = update s.inUse id true)
    (hnlist : t.nlist = update s.nlist id nodemask)
    (hreplaced : s.inUse id = true → Contained (s.nlist id) nodemask ∨ ((recent s.uses).getLast? = some id ∧
        ∀ g, 1 ≤ g → g ≤ mcastMaxGroups → s.inUse g = true)) :
    Answers s nodemask id t := by
  refine ⟨denotes_of_used hid hinUse hnlist, huses, ?_, hreplaced⟩
  intro g hg
  rw [hnlist, hinUse, update_of_ne hg, update_of_ne hg]
  exact ⟨rfl, rfl⟩

theorem managed_extended (h : Managed s) (hfound : Searched s nodemask (List.range' 1 mcastMaxGroups) found)
    (hcandidate : found.candidate ≠ 0) :
    let t := (useAgeUpdate (if found.lowestDist ≠ 0 then setNlist s found.candidate nodemask else s)
      found.candidate).use found.candidate
    Managed t ∧ Answers s nodemask found.candidate t := by
  obtain ⟨huse, hdist, hlow⟩ := hfound.candidate hcandidate
  have hid := h.range _ huse
  have hnlist : (if found.lowestDist ≠ 0 then setNlist s found.candidate nodemask else s).nlist =
      update s.nlist found.candidate nodemask := by
    split
    · rfl
    · rename_i hzero
      have heq : s.nlist found.candidate = nodemask := by
        refine mcastNodemaskDistance_eq_zero.mp ?_
        rw [hdist]
        exact not_not.mp hzero
      rw [← heq, update_eq_self]
  have hother : (if found.lowestDist ≠ 0 then setNlist s found.candidate nodemask else s).inUse = s.inUse ∧
      (if found.lowestDist ≠ 0 then setNlist s found.candidate nodemask else s).uses = s.uses := by
    split <;> exact ⟨rfl, rfl⟩
  have horder : InOrder (if found.lowestDist ≠ 0 then setNlist s found.candidate nodemask else s) (recent s.uses) := by
    split
    · exact ⟨h.circular, h.head⟩
    · exact h.inOrder
  generalize (if found.lowestDist ≠ 0 then setNlist s found.candidate nodemask else s) = u at *
  obtain ⟨hfields, hinUse, huses⟩ := fields_useAgeUpdate u found.candidate
  have hordered := inOrder_useAgeUpdate horder h.once ((h.members _).mpr huse)
  have hinUse' : ((useAgeUpdate u found.candidate).use found.candidate).inUse =
      update s.inUse found.candidate true := by
    change (useAgeUpdate u found.candidate).inUse = _
    rw [hinUse, hother.1, ← huse, update_eq_self]
  have hnlist' : ((useAgeUpdate u found.candidate).use found.candidate).nlist =
      update s.nlist found.candidate nodemask := by
    rw [← hnlist, ← hfields]
    rfl
  have huses' : ((useAgeUpdate u found.candidate).use found.candidate).uses = found.candidate :: s.uses := by
    rw [← hother.2, ← huses]
    rfl
  refine ⟨managed_used h hid ⟨hordered.circular, hordered.head⟩ huses' hinUse' hnlist' ?_,
    answers_of_used hid huses' hinUse' hnlist' fun _ => .inl ?_⟩
  · -- A group with the same mask has distance zero, and so has the candidate then.
    intro g hg heq
    have hle := hfound.lowest g (mem_ids.mpr (h.range g hg)) hg
    rw [mcastNodemaskDistance_eq_zero.mpr heq, ← hdist] at hle
    have hsame := mcastNodemaskDistance_eq_zero.mp (Nat.le_zero.mp hle)
    exact h.distinct g found.candidate hg huse (heq.trans hsame.symm)
  · exact contained_of_distance (hdist ▸ hlow)

theorem none_equal (h : Managed s) (hfound : Searched s nodemask (List.range' 1 mcastMaxGroups) found)
    (hcandidate : found.candidate = 0) (hg : s.inUse g = true) : s.nlist g ≠ nodemask := by
  intro heq
  have hle := hfound.lowest g (mem_ids.mpr (h.range g hg)) hg
  rw [hfound.unfound hcandidate, mcastNodemaskDistance_eq_zero.mpr heq] at hle
  exact absurd hle (by decide)

theorem managed_recycled (h : Managed s) (hfound : Searched s nodemask (List.range' 1 mcastMaxGroups) found)
    (hcandidate : found.candidate = 0) (hunused : found.firstUnused = 0) :
    let id := useAgeGetOldest s
    let t := (setNlist (useAgeUpdate s id) id nodemask).use id
    Managed t ∧ Answers s nodemask id t := by
  have hall : ∀ g, 1 ≤ g → g ≤ mcastMaxGroups → s.inUse g = true :=
    fun g hlo hhi => hfound.full hunused g (mem_ids.mpr ⟨hlo, hhi⟩)
  have hne : recent s.uses ≠ [] := by
    have hfirst := (h.members 1).mpr (hall 1 le_rfl (by decide))
    exact List.ne_nil_of_mem hfirst
  have hlast := useAgeGetOldest_eq h.inOrder hne
  have huse : s.inUse (useAgeGetOldest s) = true :=
    (h.members _).mp (List.mem_of_getLast? hlast)
  have hid := h.range _ huse
  obtain ⟨hfields, hinUse, huses⟩ := fields_useAgeUpdate s (useAgeGetOldest s)
  have hordered := inOrder_useAgeUpdate h.inOrder h.once ((h.members _).mpr huse)
  generalize useAgeGetOldest s = id at *
  have hinUse' : ((setNlist (useAgeUpdate s id) id nodemask).use id).inUse = update s.inUse id true := by
    change (useAgeUpdate s id).inUse = _
    rw [hinUse, ← huse, update_eq_self]
  have hnlist' : ((setNlist (useAgeUpdate s id) id nodemask).use id).nlist = update s.nlist id nodemask := by
    rw [← hfields]
    rfl
  have huses' : ((setNlist (useAgeUpdate s id) id nodemask).use id).uses = id :: s.uses := by
    rw [← huses]
    rfl
  refine ⟨managed_used h hid ⟨hordered.circular, hordered.head⟩ huses' hinUse' hnlist' ?_,
    answers_of_used hid huses' hinUse' hnlist' fun _ => .inr ⟨hlast, hall⟩⟩
  exact fun g hg heq => absurd heq (none_equal h hfound hcandidate hg)

theorem managed_added (h : Managed s) (hfound : Searched s nodemask (List.range' 1 mcastMaxGroups) found)
    (hcandidate : found.candidate = 0) (hunused : found.firstUnused ≠ 0) :
    let id := found.firstUnused
    let t := (setNlist (useAgeElementInsertNew
      { s with inUse := update s.inUse id true } id) id nodemask).use id
    Managed t ∧ Answers s nodemask id t := by
  dsimp only
  obtain ⟨hmem, hfree⟩ := hfound.unused hunused
  have hid := mem_ids.mp hmem
  generalize found.firstUnused = id at *
  have hnot : id ∉ recent s.uses := by
    intro hin
    rw [(h.members id).mp hin] at hfree
    exact absurd hfree (by simp)
  have hpos : ∀ b ∈ recent s.uses, b ≠ 0 :=
    fun b hb => Nat.pos_iff_ne_zero.mp (h.range b ((h.members b).mp hb)).1
  have horder : InOrder { s with inUse := update s.inUse id true } (recent s.uses) :=
    ⟨h.circular, h.head⟩
  obtain ⟨hfields, hinUse, huses⟩ :=
    fields_useAgeElementInsertNew { s with inUse := update s.inUse id true } id
  have hordered := inOrder_useAgeElementInsertNew horder h.once hpos hnot
  have herase : (recent s.uses).erase id = recent s.uses := List.erase_of_not_mem hnot
  generalize useAgeElementInsertNew { s with inUse := update s.inUse id true } id = u at *
  have hnlist' : ((setNlist u id nodemask).use id).nlist = update s.nlist id nodemask := by
    change update u.nlist id nodemask = _
    rw [hfields]
  have huses' : ((setNlist u id nodemask).use id).uses = id :: s.uses := by
    change id :: u.uses = _
    rw [huses]
  have hordered' : InOrder ((setNlist u id nodemask).use id) (id :: (recent s.uses).erase id) := by
    rw [herase]
    exact ⟨hordered.circular, hordered.head⟩
  refine ⟨managed_used h hid hordered' huses' hinUse hnlist' ?_,
    answers_of_used hid huses' hinUse hnlist' fun huse => ?_⟩
  · exact fun g hg heq => absurd heq (none_equal h hfound hcandidate hg)
  · rw [hfree] at huse
    exact absurd huse (by simp)

theorem managed_request (h : Managed s) (hmask : nodemask ≠ emptyMask) :
    Managed (mcastGroupGetIdByNodemask s nodemask).2 ∧ Answers s nodemask (mcastGroupGetIdByNodemask s nodemask).1
        (mcastGroupGetIdByNodemask s nodemask).2 := by
  have hfound := searched_search s nodemask
  simp only [mcastGroupGetIdByNodemask, if_neg hmask]
  generalize search s nodemask = found at *
  split
  · rename_i hcandidate
    exact managed_extended h hfound hcandidate
  · rename_i hcandidate
    split
    · rename_i hunused
      exact managed_recycled h hfound (not_not.mp hcandidate) hunused
    · rename_i hunused
      exact managed_added h hfound (not_not.mp hcandidate) hunused

theorem managed_step (s : State) (nodemask : Nodemask) (h : Managed s) : Managed (step s nodemask) := by
  by_cases hmask : nodemask = emptyMask
  · rw [step, mcastGroupGetIdByNodemask, if_pos hmask]
    exact h
  · exact (managed_request h hmask).1

theorem managed_init : Managed init :=
  ⟨trivial, rfl, List.nodup_nil, by simp [init, recent], by simp [init], by simp [init]⟩

end Requests

/-- What a state of the manager and its answer to any request are like; the empty mask has no group. -/
structure Promised (s : State) : Prop extends Managed s where
  answers : ∀ nodemask, nodemask ≠ emptyMask → Answers s nodemask (mcastGroupGetIdByNodemask s nodemask).1
      (mcastGroupGetIdByNodemask s nodemask).2
  empty : mcastGroupGetIdByNodemask s emptyMask = (0, s)

/-- After every sequence of requests, the list by use age, the masks and the answer to the next
request are as they should be. -/
theorem groups_promised (requests : List Nodemask) : Promised (Machine.run step init requests) := by
  have hmanaged : Managed (Machine.run step init requests) :=
    Machine.run_invariant managed_step managed_init requests
  exact ⟨hmanaged, fun nodemask hmask => (managed_request hmanaged hmask).2, if_pos rfl⟩

theorem emptyMask_not_denoted : ¬ mcastGroupGetNodemaskById (mcastGroupGetIdByNodemask init emptyMask).2
      (mcastGroupGetIdByNodemask init emptyMask).1 = some emptyMask := by
  rw [mcastGroupGetIdByNodemask, if_pos rfl, mcastGroupGetNodemaskById, if_pos (.inl rfl)]
  simp

end ZipGateway.Multicast

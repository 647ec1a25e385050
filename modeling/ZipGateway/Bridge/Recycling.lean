import Mathlib.Data.List.GetD
import ZipGateway.Bridge.TempAssoc

/-!
# The table of temporary associations

The associations in the table use up the virtual nodes in the order in which these were created, and
an association keeps its virtual node when it is recycled. So the virtual nodes in the table are
those that were used up, each once.
-/

namespace ZipGateway

open Function (update update_idem update_of_ne update_self)

namespace TempAssoc

/-- What `temp_assoc_lookup_by_zip_client` compares. -/
def key (s : TempAssoc) (i : AssocBlock) : ZipClient × Bool :=
  ((s.mem i).client, (s.mem i).isLongRange)

def statics (s : TempAssoc) (isLongRange : Bool) : List NodeId :=
  (s.table.filter fun i => (s.mem i).isLongRange == isLongRange).map fun i => (s.mem i).virtualIdStatic

/-- The virtual node was given to the client, and not taken away since; the log has the last entry
first. -/
def Held (c : ZipClient) (isLongRange : Bool) (v : NodeId) : List AssocOut → Prop
  | [] => False
  | .answer c' lr v' :: out => (c' = c ∧ lr = isLongRange ∧ v' = some v) ∨ Held c isLongRange v out
  | .recycled v' :: out => v' ≠ v ∧ Held c isLongRange v out

def Has (cfg : BridgeCfg) (s : TempAssoc) (c : ZipClient) (isLongRange : Bool) (v : NodeId) : Prop :=
  if cfg.unsolicited c then v = cfg.myNodeId
  else ∃ i ∈ s.table, s.key i = (c, isLongRange) ∧ (s.mem i).virtualId = v

structure Nodes (s : TempAssoc) : Prop where
  max : s.virtualNodeids.length ≤ maxClassicTempAssociations
  learning : s.learning = true → s.virtualNodeids.length < maxClassicTempAssociations
  nodup : s.virtualNodeids.Nodup
  classic : ∀ v ∈ s.virtualNodeids, isClassicNode v = true
  mask : ∀ v ∈ s.virtualNodeids, s.virtualNodesMask v = true
  idx : s.nextNodeidIdx ≤ s.virtualNodeids.length
  lrIdx : s.lrNextNodeidIdx ≤ maxLrTempAssociations

structure Sound (cfg : BridgeCfg) (s : TempAssoc) : Prop extends Nodes s where
  tableNodup : s.table.Nodup
  alloc : ∀ i, s.allocated i = true ↔ i ∈ s.table
  active : ∀ i ∈ s.table, (s.mem i).virtualId = (s.mem i).virtualIdStatic
  classicUsed : (s.statics false).Perm (s.virtualNodeids.take s.nextNodeidIdx)
  lrUsed : (s.statics true).Perm (lrTempAssocVirtualNodeids.take s.lrNextNodeidIdx)
  keys : (s.table.map s.key).Nodup
  lockedIn : ∀ i, s.locked = some (.pool i) → i ∈ s.table
  held : ∀ c lr v, Held c lr v s.out → Has cfg s c lr v

variable {cfg : BridgeCfg} {s t : TempAssoc} {c : ZipClient} {dest : NodeId} {i : AssocBlock}

/-! ### What the invariant says about the table -/

theorem serves_iff (lr : Bool) : s.serves c lr i = true ↔ s.key i = (c, lr) := by
  simp [serves, key]

theorem statics_perm (s : TempAssoc) : (s.statics false ++ s.statics true).Perm
    (s.table.map fun i => (s.mem i).virtualIdStatic) := by
  have hsplit := List.filter_append_perm (fun i => (s.mem i).isLongRange == false) s.table
  have htrue : (s.table.filter fun i => !((s.mem i).isLongRange == false)) =
      s.table.filter fun i => (s.mem i).isLongRange == true := by
    refine List.filter_congr fun i _ => ?_
    cases (s.mem i).isLongRange <;> rfl
  rw [htrue] at hsplit
  rw [statics, statics, ← List.map_append]
  exact hsplit.map _

theorem Sound.table_length (h : Sound cfg s) : s.table.length = s.nextNodeidIdx + s.lrNextNodeidIdx := by
  have hclassic := h.classicUsed.length_eq
  have hlr := h.lrUsed.length_eq
  have hsplit := (statics_perm s).length_eq
  have hidx := h.idx
  have hlrIdx := h.lrIdx
  have hlrAll : lrTempAssocVirtualNodeids.length = maxLrTempAssociations := rfl
  rw [List.length_take] at hclassic hlr
  rw [List.length_append, List.length_map] at hsplit
  omega

theorem checkAvailable_iff : s.checkAvailable dest = true ↔
    (isLrNode dest = true ∧ s.lrNextNodeidIdx < maxLrTempAssociations) ∨
      (isClassicNode dest = true ∧ s.nextNodeidIdx < maxClassicTempAssociations) := by
  unfold checkAvailable
  by_cases hlr : isLrNode dest = true ∧ s.lrNextNodeidIdx < maxLrTempAssociations
  · rw [if_pos (by simpa using hlr)]
    exact ⟨fun _ => .inl hlr, fun _ => rfl⟩
  · rw [if_neg (by simpa using hlr)]
    by_cases hclassic : isClassicNode dest = true ∧ s.nextNodeidIdx < maxClassicTempAssociations
    · rw [if_pos (by simpa using hclassic)]
      exact ⟨fun _ => .inr hclassic, fun _ => rfl⟩
    · rw [if_neg (by simpa using hclassic)]
      exact ⟨fun hf => absurd hf Bool.false_ne_true, fun hor => absurd hor (by tauto)⟩

theorem Sound.exists_free (h : Sound cfg s) (havail : s.checkAvailable dest = true) : ∃ i, s.membAlloc = some i := by
  have hlen : s.table.length < 8 := by
    have htable := h.table_length
    have hidx := h.idx
    have hmax := h.max
    have hlrIdx := h.lrIdx
    simp only [maxLrTempAssociations, maxClassicTempAssociations] at hmax hlrIdx
    rcases checkAvailable_iff.mp havail with ⟨-, hlr⟩ | ⟨-, hclassic⟩
    · simp only [maxLrTempAssociations] at hlr
      omega
    · simp only [maxClassicTempAssociations] at hclassic
      omega
  cases halloc : s.membAlloc with
  | some i => exact ⟨i, rfl⟩
  | none =>
    have hall : ∀ i, i ∈ s.table := by
      intro i
      have hnone := List.find?_eq_none.mp halloc i (List.mem_finRange i)
      exact (h.alloc i).mp (by simpa using hnone)
    have hsub : (List.finRange 8).length ≤ s.table.length :=
      (List.subperm_of_subset (List.nodup_finRange 8) fun i _ => hall i).length_le
    rw [List.length_finRange] at hsub
    omega

theorem Sound.free_not_mem (h : Sound cfg s) (halloc : s.membAlloc = some i) : i ∉ s.table := by
  have hfree := List.find?_some halloc
  intro hmem
  rw [(h.alloc i).mpr hmem] at hfree
  exact absurd hfree (by decide)

theorem Sound.virtualIds_nodup (h : Sound cfg s) : (s.table.map fun i => (s.mem i).virtualId).Nodup := by
  have hactive : (s.table.map fun i => (s.mem i).virtualId) =
      s.table.map fun i => (s.mem i).virtualIdStatic := List.map_congr_left h.active
  rw [hactive, ← (statics_perm s).nodup_iff]
  refine ((h.classicUsed.append h.lrUsed).nodup_iff).mpr (List.nodup_append.mpr ⟨?_, ?_, ?_⟩)
  · exact h.nodup.sublist (List.take_sublist _ _)
  · exact List.Nodup.sublist (List.take_sublist _ _) (by decide)
  · -- Virtual nodes of classic nodes are classic nodes themselves.
    intro v hv w hw hvw
    have hclassic := h.classic v (List.mem_of_mem_take hv)
    have hlr : ∀ x ∈ lrTempAssocVirtualNodeids, isClassicNode x = false := by
      simp [lrTempAssocVirtualNodeids, isClassicNode, isClassic, zwClassicMaxNodes]
    rw [hvw, hlr w (List.mem_of_mem_take hw)] at hclassic
    exact absurd hclassic (by decide)

theorem Sound.virtualId_ne_zero (h : Sound cfg s) (hi : i ∈ s.table) : (s.mem i).virtualId ≠ 0 := by
  rw [h.active i hi]
  have hmem : (s.mem i).virtualIdStatic ∈ s.statics false ++ s.statics true :=
    (statics_perm s).mem_iff.mpr (List.mem_map_of_mem hi)
  rcases List.mem_append.mp hmem with hmem | hmem
  · have hclassic := h.classic _ (List.mem_of_mem_take (h.classicUsed.mem_iff.mp hmem))
    intro hzero
    rw [hzero] at hclassic
    exact absurd hclassic (by decide)
  · have hlr : ∀ x ∈ lrTempAssocVirtualNodeids, x ≠ 0 := by
      simp [lrTempAssocVirtualNodeids]
    exact hlr _ (List.mem_of_mem_take (h.lrUsed.mem_iff.mp hmem))

/-! ### What a request does -/

def Fresh (cfg : BridgeCfg) (s : TempAssoc) (c : ZipClient) (dest : NodeId) : Prop :=
  cfg.unsolicited c = false ∧ ∀ i ∈ s.table, s.key i ≠ (c, isLrNode dest)

/-- `v` is the next virtual node for the destination; `idx` and `lrIdx` are the indices after it. -/
def NextNode (s : TempAssoc) (dest v : NodeId) (idx lrIdx : Nat) : Prop :=
  (isLrNode dest = true ∧ s.lrNextNodeidIdx < maxLrTempAssociations ∧
      v = lrTempAssocVirtualNodeids.getD s.lrNextNodeidIdx 0 ∧ idx = s.nextNodeidIdx ∧
      lrIdx = s.lrNextNodeidIdx + 1) ∨
    (isClassicNode dest = true ∧ s.nextNodeidIdx < s.virtualNodeids.length ∧
      v = s.virtualNodeids.getD s.nextNodeidIdx 0 ∧ idx = s.nextNodeidIdx + 1 ∧
      lrIdx = s.lrNextNodeidIdx)

def LockAfter (s : TempAssoc) (locked : Option AssocRef) : Prop :=
  (s.table ≠ [] → locked = s.locked) ∧ ∀ i, locked = some (.pool i) → s.locked = some (.pool i)

inductive Created (s : TempAssoc) (c : ZipClient) (dest : NodeId) :
    Option AssocRef → TempAssoc → Prop
  | fresh {i v idx lrIdx locked fwTimer stored} (hfree : s.allocated i = false)
      (hnode : NextNode s dest v idx lrIdx) (hlock : LockAfter s locked) :
      Created s c dest (some (.pool i)) { s with
        allocated := update s.allocated i true
        mem := update s.mem i ⟨v, v, c, isLrNode dest⟩
        table := s.table ++ [i]
        locked := locked
        fwTimer := fwTimer
        nextNodeidIdx := idx
        lrNextNodeidIdx := lrIdx
        stored := stored }
  | starved {i a locked fwTimer} (hfree : s.allocated i = false) (hclassic : isClassicNode dest = true)
      (hused : s.virtualNodeids.length ≤ s.nextNodeidIdx)
      (hmax : s.nextNodeidIdx < maxClassicTempAssociations) (hlock : LockAfter s locked) :
      Created s c dest none { s with
        mem := update s.mem i a
        locked := locked
        fwTimer := fwTimer }
  | recycled {i stored} (hfull : s.checkAvailable dest = false)
      (holdest : s.table.find? (s.recyclable dest) = some i) :
      Created s c dest (some (.pool i)) { s with
        mem := update s.mem i ⟨(s.mem i).virtualIdStatic, (s.mem i).virtualIdStatic, c, isLrNode dest⟩
        table := s.table.erase i ++ [i]
        stored := stored
        out := .recycled (s.mem i).virtualId :: s.out }
  | refused {locked fwTimer} (hfull : s.checkAvailable dest = false)
      (hnone : s.table.find? (s.recyclable dest) = none) (hlock : LockAfter s locked) :
      Created s c dest none { s with
        locked := locked
        fwTimer := fwTimer }

/-- `temp_assoc_setup_and_save` of a block that has a virtual node and is not in the table. -/
theorem setupAndSave_eq (hnot : i ∉ s.table) (hfresh : Fresh cfg s c dest)
    (hid : (s.mem i).virtualIdStatic ≠ 0) : ∃ stored, setupAndSave cfg s c dest i = (true, { s with
      mem := update s.mem i ⟨(s.mem i).virtualIdStatic, (s.mem i).virtualIdStatic, c, isLrNode dest⟩
      table := s.table ++ [i]
      stored := stored }) := by
  have hother : ∀ j ∈ s.table, update s.mem i
      ⟨(s.mem i).virtualIdStatic, (s.mem i).virtualIdStatic, c, isLrNode dest⟩ j = s.mem j := by
    intro j hj
    rw [update_of_ne]
    rintro rfl
    exact hnot hj
  have hany : (s.table.any fun j => sameFields ⟨(s.mem i).virtualIdStatic, (s.mem i).virtualIdStatic, c, isLrNode dest⟩
      (update s.mem i
        ⟨(s.mem i).virtualIdStatic, (s.mem i).virtualIdStatic, c, isLrNode dest⟩ j)) = false := by
    refine List.any_eq_false.mpr fun j hj => ?_
    rw [hother j hj]
    have hkey := hfresh.2 j hj
    simp only [sameFields, Bool.and_eq_true, beq_iff_eq]
    rintro ⟨⟨-, hclient⟩, hlr⟩
    exact hkey (by rw [key, ← hclient, ← hlr])
  have hzero : ((s.mem i).virtualIdStatic == 0) = false := by simpa using hid
  simp only [setupAndSave, hfresh.1, Bool.false_eq_true, if_false, hzero, addToAssociationTable,
    setMem, update_self, hany, List.erase_of_not_mem hnot]
  split
  · exact ⟨_, rfl⟩
  · exact ⟨_, rfl⟩

theorem relock_eq (s : TempAssoc) : ∃ locked fwTimer,
    (if s.table.length = 0 then { s with locked := none, fwTimer := false } else s) =
      ({ s with locked := locked, fwTimer := fwTimer } : TempAssoc) ∧ LockAfter s locked := by
  split
  · rename_i hempty
    refine ⟨none, false, rfl, fun hne => ?_, fun i hi => ?_⟩
    · exact absurd (List.length_eq_zero_iff.mp hempty) hne
    · cases hi
  · exact ⟨s.locked, s.fwTimer, rfl, fun _ => rfl, fun _ hi => hi⟩

theorem Nodes.next_ne_zero (h : Nodes s) {v : NodeId} {idx lrIdx : Nat}
    (hnode : NextNode s dest v idx lrIdx) : v ≠ 0 := by
  rcases hnode with ⟨-, hlt, rfl, -⟩ | ⟨-, hlt, rfl, -⟩
  · have hlr : ∀ k < maxLrTempAssociations, lrTempAssocVirtualNodeids.getD k 0 ≠ 0 := by decide
    exact hlr _ hlt
  · rw [List.getD_eq_getElem _ _ hlt]
    intro hzero
    have hclassic := h.classic _ (List.getElem_mem hlt)
    rw [hzero] at hclassic
    exact absurd hclassic (by decide)

theorem fill_cases (s : TempAssoc) (i : AssocBlock) (dest : NodeId) :
    (∃ v idx lrIdx a, NextNode s dest v idx lrIdx ∧ a.virtualIdStatic = v ∧ fill s i dest = { s with
        mem := update s.mem i a
        nextNodeidIdx := idx
        lrNextNodeidIdx := lrIdx }) ∨
      (fill s i dest = { s with mem := update s.mem i TempAssociation.zero } ∧
        ¬ (s.lrNextNodeidIdx < maxLrTempAssociations ∧ isLrNode dest = true) ∧
        ¬ (s.nextNodeidIdx < s.virtualNodeids.length ∧ isClassicNode dest = true)) := by
  unfold fill
  by_cases hlr : s.lrNextNodeidIdx < maxLrTempAssociations ∧ isLrNode dest = true
  · rw [if_pos (by simpa using hlr)]
    exact .inl ⟨_, _, _, _, .inl ⟨hlr.2, hlr.1, rfl, rfl, rfl⟩, rfl, rfl⟩
  · rw [if_neg (by simpa using hlr)]
    by_cases hclassic : s.nextNodeidIdx < s.virtualNodeids.length ∧ isClassicNode dest = true
    · rw [if_pos (by simpa using hclassic)]
      exact .inl ⟨_, _, _, _, .inr ⟨hclassic.2, hclassic.1, rfl, rfl, rfl⟩, rfl, rfl⟩
    · rw [if_neg (by simpa using hclassic)]
      exact .inr ⟨rfl, hlr, hclassic⟩

theorem Sound.created (h : Sound cfg s) (hfresh : Fresh cfg s c dest) :
    Created s c dest (create cfg s c dest false).1 (create cfg s c dest false).2 := by
  have hlookup : lookupByZipClient cfg s c dest = (none, s) := by
    have hfind : s.table.find? (s.serves c (isLrNode dest)) = none := by
      refine List.find?_eq_none.mpr fun j hj hserves => ?_
      exact hfresh.2 j hj ((serves_iff _).mp hserves)
    simp only [lookupByZipClient, hfresh.1, Bool.false_eq_true, if_false, hfind, Option.map_none]
  simp only [create, Bool.false_eq_true, if_false, hlookup, getNewOrReuseOldest]
  obtain ⟨locked, fwTimer, hrelock, hlock⟩ := relock_eq s
  generalize hr : (if s.table.length = 0 then { s with locked := none, fwTimer := false } else s) = r at hrelock ⊢
  by_cases havail : s.checkAvailable dest = true
  · rw [hrelock]
    dsimp only
    rw [if_pos (show checkAvailable { s with locked := locked, fwTimer := fwTimer } dest = true from
      havail)]
    obtain ⟨i, halloc⟩ := h.exists_free havail
    have hnot := h.free_not_mem halloc
    have hfree : s.allocated i = false := by
      have hfound := List.find?_some halloc
      simpa using hfound
    rw [show membAlloc { s with locked := locked, fwTimer := fwTimer } = some i from halloc]
    dsimp only
    generalize hu : ({ s with
      locked := locked
      fwTimer := fwTimer
      allocated := update s.allocated i true } : TempAssoc) = u
    rcases fill_cases u i dest with ⟨v, idx, lrIdx, a, hnode, hid, hfill⟩ | ⟨hfill, hnoLr, hnoClassic⟩
    · have hsnode : NextNode s dest v idx lrIdx := by
        rw [← hu] at hnode
        exact hnode
      rw [hfill, ← hu]
      generalize hw : ({ s with
        locked := locked
        fwTimer := fwTimer
        allocated := update s.allocated i true
        mem := update s.mem i a
        nextNodeidIdx := idx
        lrNextNodeidIdx := lrIdx } : TempAssoc) = w
      have hwfresh : Fresh cfg w c dest := by
        refine ⟨hfresh.1, fun j hj => ?_⟩
        rw [← hw] at hj ⊢
        have hji : j ≠ i := by
          rintro rfl
          exact hnot hj
        simp only [key, update_of_ne hji]
        exact hfresh.2 j hj
      have hwid : (w.mem i).virtualIdStatic = v := by
        rw [← hw]
        simp only [update_self, hid]
      obtain ⟨stored, heq⟩ := setupAndSave_eq (i := i) (by rw [← hw]; exact hnot) hwfresh
        (by rw [hwid]; exact h.toNodes.next_ne_zero hsnode)
      rw [heq, hwid, ← hw]
      simp only [update_idem]
      exact .fresh hfree hsnode hlock
    · have hclassic : isClassicNode dest = true ∧ s.nextNodeidIdx < maxClassicTempAssociations := by
        rcases checkAvailable_iff.mp havail with ⟨hlr, hlt⟩ | hclassic
        · rw [← hu] at hnoLr
          exact absurd ⟨hlt, hlr⟩ hnoLr
        · exact hclassic
      have hused : s.virtualNodeids.length ≤ s.nextNodeidIdx := by
        rw [← hu] at hnoClassic
        by_contra hlt
        exact hnoClassic ⟨Nat.not_le.mp hlt, hclassic.1⟩
      have hsame : update (update s.allocated i true) i false = s.allocated := by
        rw [update_idem, ← hfree, Function.update_eq_self]
      rw [hfill, ← hu]
      simp only [setupAndSave, hfresh.1, Bool.false_eq_true, if_false, update_self,
        TempAssociation.zero, beq_self_eq_true, if_true, membFree, setMem, update_idem, hsame]
      exact .starved hfree hclassic.1 hused hclassic.2 hlock
  · have hfull : s.checkAvailable dest = false := by simpa using havail
    have hrfull : ¬ r.checkAvailable dest = true := by
      rw [hrelock]
      exact havail
    rw [if_neg hrfull]
    cases hfind : s.table.find? (s.recyclable dest) with
    | none =>
      have hnone : r.table.find? (r.recyclable dest) = none := by
        rw [hrelock]
        by_cases hempty : s.table = []
        · simp only [hempty, List.find?_nil]
        · rw [hlock.1 hempty]
          exact hfind
      rw [hnone, hrelock]
      exact .refused hfull hfind hlock
    | some i =>
      have hi : i ∈ s.table := List.mem_of_find?_eq_some hfind
      have hempty : ¬ s.table.length = 0 := fun hzero => by
        rw [List.length_eq_zero_iff.mp hzero] at hi
        cases hi
      rw [if_neg hempty] at hr
      rw [← hr, hfind]
      dsimp only
      generalize hw : log { s with table := s.table.erase i } (.recycled (s.mem i).virtualId) = w
      have hwfresh : Fresh cfg w c dest := by
        refine ⟨hfresh.1, fun j hj => ?_⟩
        rw [← hw] at hj ⊢
        exact hfresh.2 j (List.mem_of_mem_erase hj)
      have hwid : (w.mem i).virtualIdStatic ≠ 0 := by
        have hactive := h.active i hi
        have hne := h.virtualId_ne_zero hi
        rw [hactive] at hne
        rw [← hw]
        exact hne
      obtain ⟨stored, heq⟩ := setupAndSave_eq (i := i) (by rw [← hw]; exact h.tableNodup.not_mem_erase) hwfresh hwid
      rw [heq, ← hw]
      exact .recycled hfull hfind

/-! ### Every step keeps the invariant -/

theorem Sound.congr (h : Sound cfg s) (hnodes : Nodes t) (htable : t.table = s.table)
    (hmem : ∀ i ∈ s.table, t.mem i = s.mem i) (halloc : t.allocated = s.allocated)
    (hids : t.virtualNodeids.take t.nextNodeidIdx = s.virtualNodeids.take s.nextNodeidIdx)
    (hlr : t.lrNextNodeidIdx = s.lrNextNodeidIdx)
    (hlock : ∀ i, t.locked = some (.pool i) → i ∈ s.table)
    (hheld : ∀ c lr v, Held c lr v t.out → Has cfg s c lr v) : Sound cfg t := by
  have hkey : ∀ i ∈ s.table, t.key i = s.key i := fun i hi => by rw [key, hmem i hi, key]
  have hstatics : ∀ lr, t.statics lr = s.statics lr := by
    intro lr
    have hfilter : (s.table.filter fun i => (t.mem i).isLongRange == lr) =
        s.table.filter fun i => (s.mem i).isLongRange == lr :=
      List.filter_congr fun i hi => by rw [hmem i hi]
    rw [statics, htable, hfilter, statics]
    exact List.map_congr_left fun i hi => by rw [hmem i (List.mem_of_mem_filter hi)]
  refine ⟨hnodes, ?_, ?_, ?_, ?_, ?_, ?_, ?_, ?_⟩
  · rw [htable]
    exact h.tableNodup
  · rw [halloc, htable]
    exact h.alloc
  · rw [htable]
    intro i hi
    rw [hmem i hi]
    exact h.active i hi
  · rw [hstatics, hids]
    exact h.classicUsed
  · rw [hstatics, hlr]
    exact h.lrUsed
  · rw [htable, List.map_congr_left hkey]
    exact h.keys
  · rw [htable]
    exact hlock
  · intro c lr v hv
    have hhas := hheld c lr v hv
    unfold Has at hhas ⊢
    split
    · rename_i hunsol
      rw [if_pos hunsol] at hhas
      exact hhas
    · rename_i hunsol
      rw [if_neg hunsol] at hhas
      obtain ⟨i, hi, hk, hid⟩ := hhas
      exact ⟨i, by rw [htable]; exact hi, by rw [hkey i hi, hk], by rw [hmem i hi, hid]⟩

theorem Sound.answer (h : Sound cfg s) {c : ZipClient} {lr : Bool} {v : Option NodeId}
    (hhas : ∀ w, v = some w → Has cfg s c lr w) : Sound cfg (s.log (.answer c lr v)) := by
  have hnodes := h.toNodes
  refine h.congr ⟨hnodes.1, hnodes.2, hnodes.3, hnodes.4, hnodes.5, hnodes.6, hnodes.7⟩ rfl
    (fun _ _ => rfl) rfl rfl rfl h.lockedIn ?_
  rintro c' lr' w (⟨rfl, rfl, hw⟩ | hheld)
  · exact hhas w hw
  · exact h.held c' lr' w hheld

theorem Has.mono {lr : Bool} (h : Has cfg s c lr v)
    (hkeep : ∀ j ∈ s.table, (s.mem j).virtualId = v → j ∈ t.table ∧ t.mem j = s.mem j) : Has cfg t c lr v := by
  unfold Has at h ⊢
  by_cases hunsol : cfg.unsolicited c = true
  · rwa [if_pos hunsol] at h ⊢
  · rw [if_neg hunsol] at h ⊢
    obtain ⟨j, hj, hkey, hid⟩ := h
    obtain ⟨hmem, heq⟩ := hkeep j hj hid
    exact ⟨j, hmem, by rw [key, heq]; exact hkey, heq ▸ hid⟩

theorem Sound.lock (h : Sound cfg s) {r : AssocRef} (hr : ∀ i, r = .pool i → i ∈ s.table) :
    Sound cfg (s.registerFwLock r) := by
  have hnodes := h.toNodes
  refine h.congr ⟨hnodes.1, hnodes.2, hnodes.3, hnodes.4, hnodes.5, hnodes.6, hnodes.7⟩ rfl
    (fun _ _ => rfl) rfl rfl rfl ?_ h.held
  intro i hi
  exact hr i (Option.some.inj hi)

theorem Sound.fresh (h : Sound cfg s) (hfresh : Fresh cfg s c dest) (hfree : s.allocated i = false)
    {v : NodeId} {idx lrIdx : Nat} (hnode : NextNode s dest v idx lrIdx) {locked : Option AssocRef}
    (hlock : LockAfter s locked) (fwTimer : Bool) (stored : List NodeId) : Sound cfg { s with
      allocated := update s.allocated i true
      mem := update s.mem i ⟨v, v, c, isLrNode dest⟩
      table := s.table ++ [i]
      locked := locked
      fwTimer := fwTimer
      nextNodeidIdx := idx
      lrNextNodeidIdx := lrIdx
      stored := stored } := by
  have hnot : i ∉ s.table := fun hmem => by
    rw [(h.alloc i).mpr hmem] at hfree
    cases hfree
  have hother : ∀ j ∈ s.table, update s.mem i ⟨v, v, c, isLrNode dest⟩ j = s.mem j := by
    intro j hj
    rw [update_of_ne]
    rintro rfl
    exact hnot hj
  generalize hmem : update s.mem i ⟨v, v, c, isLrNode dest⟩ = mem at hother
  have hself : mem i = ⟨v, v, c, isLrNode dest⟩ := by rw [← hmem, update_self]
  have hstatics : ∀ lr, ((s.table ++ [i]).filter fun j => (mem j).isLongRange == lr).map
      (fun j => (mem j).virtualIdStatic) = s.statics lr ++ if isLrNode dest = lr then [v] else [] := by
    intro lr
    rw [List.filter_append, List.map_append]
    have hleft : (s.table.filter fun j => (mem j).isLongRange == lr) =
        s.table.filter fun j => (s.mem j).isLongRange == lr :=
      List.filter_congr fun j hj => by rw [hother j hj]
    congr 1
    · rw [hleft, statics]
      exact List.map_congr_left fun j hj => by rw [hother j (List.mem_of_mem_filter hj)]
    · by_cases hlr : isLrNode dest = lr
      · rw [if_pos hlr, List.filter_cons_of_pos (by simp [hself, hlr])]
        simp [hself]
      · rw [if_neg hlr, List.filter_cons_of_neg (by simp [hself, hlr])]
        rfl
  have hnodes := h.toNodes
  refine ⟨⟨hnodes.1, hnodes.2, hnodes.3, hnodes.4, hnodes.5, ?_, ?_⟩, ?_, ?_, ?_, ?_, ?_, ?_, ?_, ?_⟩
  · rcases hnode with ⟨-, -, -, rfl, -⟩ | ⟨-, hlt, -, rfl, -⟩
    · exact h.idx
    · exact hlt
  · rcases hnode with ⟨-, hlt, -, -, rfl⟩ | ⟨-, -, -, -, rfl⟩
    · exact hlt
    · exact h.lrIdx
  · refine List.nodup_append.mpr ⟨h.tableNodup, List.nodup_singleton i, ?_⟩
    intro a ha b hb hab
    rw [List.mem_singleton.mp hb] at hab
    exact hnot (hab ▸ ha)
  · intro j
    simp only [List.mem_append, List.mem_singleton]
    by_cases hji : j = i
    · rw [hji, update_self]
      exact ⟨fun _ => .inr rfl, fun _ => rfl⟩
    · rw [update_of_ne hji, h.alloc j]
      exact ⟨.inl, fun hor => hor.resolve_right hji⟩
  · intro j hj
    rcases List.mem_append.mp hj with hj | hj
    · simp only [hother j hj]
      exact h.active j hj
    · simp only [List.mem_singleton.mp hj, hself]
  · refine List.Perm.trans (List.Perm.of_eq (hstatics false)) ?_
    rcases hnode with ⟨hlr, -, -, rfl, -⟩ | ⟨hclassic, hlt, rfl, rfl, -⟩
    · rw [if_neg (by simp [hlr]), List.append_nil]
      exact h.classicUsed
    · rw [if_pos (isLrNode_of_classic hclassic), List.getD_eq_getElem _ _ hlt, List.take_succ_eq_append_getElem hlt]
      exact h.classicUsed.append_right _
  · refine List.Perm.trans (List.Perm.of_eq (hstatics true)) ?_
    rcases hnode with ⟨hlr, hlt, rfl, -, rfl⟩ | ⟨hclassic, -, -, -, rfl⟩
    · have hlt' : s.lrNextNodeidIdx < lrTempAssocVirtualNodeids.length := hlt
      rw [if_pos hlr, List.getD_eq_getElem _ _ hlt', List.take_succ_eq_append_getElem hlt']
      exact h.lrUsed.append_right _
    · rw [if_neg (by simp [isLrNode_of_classic hclassic]), List.append_nil]
      exact h.lrUsed
  · rw [List.map_append]
    refine List.nodup_append.mpr ⟨?_, List.nodup_singleton _, ?_⟩
    · rw [List.map_congr_left (g := s.key) fun j hj => by simp only [key, hother j hj]]
      exact h.keys
    · intro a ha b hb hab
      obtain ⟨j, hj, rfl⟩ := List.mem_map.mp ha
      rw [List.mem_singleton.mp hb] at hab
      simp only [key, hother j hj, hself] at hab
      exact hfresh.2 j hj hab
  · intro j hj
    exact List.mem_append_left _ (h.lockedIn j (hlock.2 j hj))
  · intro c' lr w hw
    exact (h.held c' lr w hw).mono fun j hj _ => ⟨List.mem_append_left _ hj, hother j hj⟩

theorem Sound.recycle (h : Sound cfg s) (hfresh : Fresh cfg s c dest) (hi : i ∈ s.table)
    (hkind : (s.mem i).isLongRange = isLrNode dest) (stored : List NodeId) : Sound cfg { s with
      mem := update s.mem i ⟨(s.mem i).virtualIdStatic, (s.mem i).virtualIdStatic, c, isLrNode dest⟩
      table := s.table.erase i ++ [i]
      stored := stored
      out := .recycled (s.mem i).virtualId :: s.out } := by
  have hother : ∀ j, j ≠ i → update s.mem i
      ⟨(s.mem i).virtualIdStatic, (s.mem i).virtualIdStatic, c, isLrNode dest⟩ j = s.mem j :=
    fun j hj => update_of_ne hj _ _
  generalize hmem : update s.mem i
    ⟨(s.mem i).virtualIdStatic, (s.mem i).virtualIdStatic, c, isLrNode dest⟩ = mem at hother
  have hself : mem i = ⟨(s.mem i).virtualIdStatic, (s.mem i).virtualIdStatic, c, isLrNode dest⟩ := by
    rw [← hmem, update_self]
  have hperm : (s.table.erase i ++ [i]).Perm s.table :=
    (List.perm_append_singleton i _).trans (List.perm_cons_erase hi).symm
  -- The association keeps its virtual node and its kind.
  have hstatic : ∀ j, (mem j).virtualIdStatic = (s.mem j).virtualIdStatic := by
    intro j
    by_cases hji : j = i
    · rw [hji, hself]
    · rw [hother j hji]
  have hlong : ∀ j, (mem j).isLongRange = (s.mem j).isLongRange := by
    intro j
    by_cases hji : j = i
    · rw [hji, hself, hkind]
    · rw [hother j hji]
  have hstatics : ∀ lr, (((s.table.erase i ++ [i]).filter fun j => (mem j).isLongRange == lr).map
      fun j => (mem j).virtualIdStatic).Perm (s.statics lr) := by
    intro lr
    simp only [hstatic, hlong]
    exact (hperm.filter _).map _
  have herase : ∀ j ∈ s.table.erase i, j ∈ s.table ∧ j ≠ i := by
    intro j hj
    refine ⟨List.mem_of_mem_erase hj, ?_⟩
    rintro rfl
    exact h.tableNodup.not_mem_erase hj
  have hnodes := h.toNodes
  refine ⟨⟨hnodes.1, hnodes.2, hnodes.3, hnodes.4, hnodes.5, hnodes.6, hnodes.7⟩,
    hperm.nodup_iff.mpr h.tableNodup, fun j => (h.alloc j).trans hperm.mem_iff.symm, ?_,
    (hstatics false).trans h.classicUsed, (hstatics true).trans h.lrUsed, ?_,
    fun j hj => hperm.mem_iff.mpr (h.lockedIn j hj), ?_⟩
  · intro j hj
    by_cases hji : j = i
    · simp only [hji, hself]
    · simp only [hother j hji]
      exact h.active j (hperm.mem_iff.mp hj)
  · rw [List.map_append]
    refine List.nodup_append.mpr ⟨?_, List.nodup_singleton _, ?_⟩
    · rw [List.map_congr_left (g := s.key) fun j hj => by simp only [key, hother j (herase j hj).2]]
      exact h.keys.sublist (List.erase_sublist.map _)
    · intro a ha b hb hab
      obtain ⟨j, hj, rfl⟩ := List.mem_map.mp ha
      rw [List.mem_singleton.mp hb] at hab
      simp only [key, hother j (herase j hj).2, hself] at hab
      exact hfresh.2 j (herase j hj).1 hab
  · rintro c' lr w ⟨hne, hw⟩
    refine (h.held c' lr w hw).mono fun j hj hid => ?_
    have hji : j ≠ i := by
      rintro rfl
      exact hne hid
    exact ⟨hperm.mem_iff.mpr hj, hother j hji⟩

theorem recyclable_kind (hfind : s.table.find? (s.recyclable dest) = some i) :
    (s.mem i).isLongRange = isLrNode dest ∧ some (.pool i) ≠ s.locked := by
  have hrec := List.find?_some hfind
  simp only [recyclable, Bool.and_eq_true, decide_eq_true_eq, beq_iff_eq] at hrec
  exact ⟨hrec.2, hrec.1⟩

theorem Sound.of_created (h : Sound cfg s) (hfresh : Fresh cfg s c dest) {r : Option AssocRef}
    (hcreated : Created s c dest r t) : Sound cfg t ∧
      ∀ p, r = some p → (∀ i, p = .pool i → i ∈ t.table) ∧ Has cfg t c (isLrNode dest) (t.virtualIdOf p) := by
  have hunsol : ¬ cfg.unsolicited c = true := by simp [hfresh.1]
  have hnodes := h.toNodes
  cases hcreated with
  | fresh hfree hnode hlock =>
    refine ⟨h.fresh hfresh hfree hnode hlock _ _, ?_⟩
    rintro p ⟨rfl⟩
    refine ⟨?_, ?_⟩
    · rintro i ⟨rfl⟩
      exact List.mem_append_right _ List.mem_cons_self
    · rw [Has, if_neg hunsol]
      refine ⟨_, List.mem_append_right _ List.mem_cons_self, ?_, rfl⟩
      simp only [key, update_self]
  | @starved i a locked fwTimer hfree hclassic hused hmax hlock =>
    refine ⟨?_, fun p hp => by cases hp⟩
    refine h.congr ⟨hnodes.1, hnodes.2, hnodes.3, hnodes.4, hnodes.5, hnodes.6, hnodes.7⟩ rfl ?_ rfl rfl
      rfl (fun j hj => h.lockedIn j (hlock.2 j hj)) h.held
    intro j hj
    refine update_of_ne ?_ _ _
    rintro rfl
    rw [(h.alloc j).mpr hj] at hfree
    cases hfree
  | recycled hfull holdest =>
    refine ⟨h.recycle hfresh (List.mem_of_find?_eq_some holdest) (recyclable_kind holdest).1 _, ?_⟩
    rintro p ⟨rfl⟩
    refine ⟨?_, ?_⟩
    · rintro i ⟨rfl⟩
      exact List.mem_append_right _ List.mem_cons_self
    · rw [Has, if_neg hunsol]
      refine ⟨_, List.mem_append_right _ List.mem_cons_self, ?_, rfl⟩
      simp only [key, update_self]
  | refused hfull hnone hlock =>
    refine ⟨?_, fun p hp => by cases hp⟩
    exact h.congr ⟨hnodes.1, hnodes.2, hnodes.3, hnodes.4, hnodes.5, hnodes.6, hnodes.7⟩ rfl
      (fun _ _ => rfl) rfl rfl rfl (fun j hj => h.lockedIn j (hlock.2 j hj)) h.held

end TempAssoc

end ZipGateway

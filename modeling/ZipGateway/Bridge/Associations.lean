import ZipGateway.Bridge.Recycling

/-!
# Temporary associations over runs

The virtual nodes in the table stay distinct, a client keeps its virtual node until it is taken away
from it, and the association under the firmware lock stays where it is. A new client gets the oldest
association that may be taken when there is no new virtual node, with one exception:
`check_available_temp_assoc` compares with the number of virtual nodes there should be, not with the
number there are, so the request fails when some of them were never created.
-/

namespace ZipGateway

namespace TempAssoc

variable {cfg : BridgeCfg} {s t : TempAssoc} {c : ZipClient} {dest : NodeId} {i : AssocBlock}

/-! ### Requests -/

theorem create_of_key (hunsol : cfg.unsolicited c = false) (hi : i ∈ s.table)
    (hkey : s.key i = (c, isLrNode dest)) : ∃ j ∈ s.table, s.key j = (c, isLrNode dest) ∧
      create cfg s c dest false = (some (.pool j), s) := by
  have hsome : (s.table.find? (s.serves c (isLrNode dest))).isSome = true :=
    List.find?_isSome.mpr ⟨i, hi, (serves_iff _).mpr hkey⟩
  obtain ⟨j, hfind⟩ := Option.isSome_iff_exists.mp hsome
  refine ⟨j, List.mem_of_find?_eq_some hfind, (serves_iff _).mp (List.find?_some hfind), ?_⟩
  simp only [create, lookupByZipClient, hunsol, Bool.false_eq_true, if_false, hfind, Option.map_some]

theorem create_of_unsolicited (s : TempAssoc) (dest : NodeId) (hunsol : cfg.unsolicited c = true) :
    ∃ a : TempAssociation, a.virtualId = cfg.myNodeId ∧
      create cfg s c dest false = (some .unsol, { s with unsol := a }) := by
  simp only [create, lookupByZipClient, hunsol, if_true, Bool.false_eq_true, if_false]
  exact ⟨_, rfl, rfl⟩

theorem Sound.create (h : Sound cfg s) (c : ZipClient) (dest : NodeId) (busy : Bool) :
    Sound cfg (create cfg s c dest busy).2 ∧ ∀ p, (TempAssoc.create cfg s c dest busy).1 = some p →
      (∀ i, p = .pool i → i ∈ (TempAssoc.create cfg s c dest busy).2.table) ∧
        Has cfg (TempAssoc.create cfg s c dest busy).2 c (isLrNode dest)
          ((TempAssoc.create cfg s c dest busy).2.virtualIdOf p) := by
  cases busy with
  | true => exact ⟨h, fun p hp => by cases hp⟩
  | false =>
    by_cases hunsol : cfg.unsolicited c = true
    · obtain ⟨a, hid, heq⟩ := create_of_unsolicited s dest hunsol
      have hnodes := h.toNodes
      rw [heq]
      refine ⟨h.congr ⟨hnodes.1, hnodes.2, hnodes.3, hnodes.4, hnodes.5, hnodes.6, hnodes.7⟩ rfl
        (fun _ _ => rfl) rfl rfl rfl h.lockedIn h.held, ?_⟩
      rintro p ⟨rfl⟩
      refine ⟨fun i hi => (by cases hi), ?_⟩
      rw [Has, if_pos hunsol]
      exact hid
    · have hunsol : cfg.unsolicited c = false := by simpa using hunsol
      by_cases hkey : ∃ i ∈ s.table, s.key i = (c, isLrNode dest)
      · obtain ⟨i, hi, hkey⟩ := hkey
        obtain ⟨j, hj, hjkey, heq⟩ := create_of_key hunsol hi hkey
        rw [heq]
        refine ⟨h, ?_⟩
        rintro p ⟨rfl⟩
        refine ⟨?_, ?_⟩
        · rintro k ⟨rfl⟩
          exact hj
        · rw [Has, if_neg (by simp [hunsol])]
          exact ⟨j, hj, hjkey, rfl⟩
      · have hfresh : Fresh cfg s c dest := by
          refine ⟨hunsol, fun i hi hk => hkey ⟨i, hi, hk⟩⟩
        exact h.of_created hfresh (h.created hfresh)

/-! ### Virtual nodes -/

/-- What the controller keeps to: virtual nodes for classic nodes are classic nodes, and it does not
forget those it created. -/
def Contract (s : TempAssoc) : AssocInput → Prop
  | .virtualAdded .nodeidDone newId _ _ => isClassicNode newId = true
  | .copyVirtualNodesMask mask => ∀ v ∈ s.virtualNodeids, mask v = true
  | _ => True

theorem Sound.nodes (h : Sound cfg s) (hnodes : Nodes t) (htable : t.table = s.table)
    (hmem : t.mem = s.mem) (halloc : t.allocated = s.allocated)
    (hids : ∃ more, t.virtualNodeids = s.virtualNodeids ++ more)
    (hidx : t.nextNodeidIdx = s.nextNodeidIdx) (hlr : t.lrNextNodeidIdx = s.lrNextNodeidIdx)
    (hlock : t.locked = s.locked) (hout : t.out = s.out) : Sound cfg t := by
  refine h.congr hnodes htable (fun i _ => by rw [hmem]) halloc ?_ hlr ?_ ?_
  · obtain ⟨more, hmore⟩ := hids
    rw [hmore, hidx, List.take_append_of_le_length h.idx]
  · rw [hlock]
    exact h.lockedIn
  · rw [hout]
    exact h.held

theorem Nodes.addVirtualNodes (h : Nodes s) (accepts : Bool) : Nodes (s.addVirtualNodes accepts) := by
  unfold TempAssoc.addVirtualNodes
  split
  · rename_i hlt
    split
    · exact ⟨h.max, fun _ => hlt, h.nodup, h.classic, h.mask, h.idx, h.lrIdx⟩
    · exact h
  · exact h

theorem Sound.addVirtualNodes (h : Sound cfg s) (accepts : Bool) : Sound cfg (s.addVirtualNodes accepts) := by
  have hnodes := h.toNodes.addVirtualNodes accepts
  have hframe : ∃ retry learning, s.addVirtualNodes accepts = { s with
      retryCount := retry
      learning := learning } := by
    unfold TempAssoc.addVirtualNodes
    split
    · split
      · exact ⟨_, _, rfl⟩
      · exact ⟨_, _, rfl⟩
    · exact ⟨_, _, rfl⟩
  obtain ⟨retry, learning, heq⟩ := hframe
  rw [heq] at hnodes ⊢
  exact h.nodes hnodes rfl rfl rfl ⟨[], (List.append_nil _).symm⟩ rfl rfl rfl rfl

theorem Sound.virtualAddCallback (h : Sound cfg s) (hlearning : s.learning = true)
    {status : AssignStatus} {newId : NodeId} (isSuc accepts : Bool)
    (hok : Contract s (.virtualAdded status newId isSuc accepts)) :
    Sound cfg (virtualAddCallback { s with learning := false } status newId isSuc accepts) := by
  have hidle : Sound cfg { s with learning := false } := by
    refine h.nodes ⟨h.max, fun hf => absurd hf Bool.false_ne_true, h.nodup, h.classic, h.mask, h.idx,
      h.lrIdx⟩ rfl rfl rfl ⟨[], (List.append_nil _).symm⟩ rfl rfl rfl rfl
  have hroom := h.learning hlearning
  cases status with
  | complete => exact hidle
  | other => exact hidle
  | nodeidDone =>
    have hclassic : isClassicNode newId = true := hok
    simp only [TempAssoc.virtualAddCallback]
    generalize hu : (if (!isVirtualNode { s with learning := false } newId) = true then
        persistVirtualNodeids { s with
          learning := false
          virtualNodeids := s.virtualNodeids ++ [newId]
          virtualNodesMask := Function.update s.virtualNodesMask newId true }
      else { s with learning := false }) = u
    have husound : Sound cfg u := by
      rw [← hu]
      split
      · rename_i hnew
        have hmask : s.virtualNodesMask newId = false := by
          simp only [isVirtualNode, hclassic, Bool.true_and, Bool.not_eq_true', Bool.or_eq_false_iff] at hnew
          exact hnew.1
        have hnot : newId ∉ s.virtualNodeids := by
          intro hmem
          rw [h.mask newId hmem] at hmask
          cases hmask
        refine h.nodes ⟨?_, fun hf => absurd hf Bool.false_ne_true, ?_, ?_, ?_, ?_, h.lrIdx⟩ rfl rfl rfl
          ⟨[newId], rfl⟩ rfl rfl rfl rfl
        · simp only [persistVirtualNodeids, List.length_append, List.length_singleton]
          exact hroom
        · refine List.nodup_append.mpr ⟨h.nodup, List.nodup_singleton _, ?_⟩
          intro a ha b hb hab
          rw [List.mem_singleton.mp hb] at hab
          exact hnot (hab ▸ ha)
        · intro v hv
          rcases List.mem_append.mp hv with hv | hv
          · exact h.classic v hv
          · rw [List.mem_singleton.mp hv]
            exact hclassic
        · intro v hv
          simp only [persistVirtualNodeids]
          by_cases hvn : v = newId
          · rw [hvn, Function.update_self]
          · rw [Function.update_of_ne hvn]
            rcases List.mem_append.mp hv with hv | hv
            · exact h.mask v hv
            · exact absurd (List.mem_singleton.mp hv) hvn
        · simp only [persistVirtualNodeids, List.length_append]
          exact h.idx.trans (Nat.le_add_right _ _)
      · exact hidle
    have hretry : Sound cfg { u with retryCount := 0 } := by
      refine husound.nodes ⟨husound.max, husound.learning, husound.nodup, husound.classic, husound.mask,
        husound.idx, husound.lrIdx⟩ rfl rfl rfl ⟨[], (List.append_nil _).symm⟩ rfl rfl rfl rfl
    split
    · exact hretry.addVirtualNodes accepts
    · exact hretry

/-! ### Runs -/

theorem sound_step (s : TempAssoc) (e : AssocInput) (hok : Contract s e) (h : Sound cfg s) :
    Sound cfg (step cfg s e) := by
  cases e with
  | request c dest busy firmware =>
    obtain ⟨hsound, hanswer⟩ := h.create c dest busy
    simp only [step]
    generalize create cfg s c dest busy = r at hsound hanswer
    obtain ⟨p, u⟩ := r
    cases p with
    | none => exact hsound.answer fun w hw => by cases hw
    | some p =>
      obtain ⟨hin, hhas⟩ := hanswer p rfl
      have hlogged : Sound cfg (u.log (.answer c (isLrNode dest) (some (u.virtualIdOf p)))) := by
        refine hsound.answer ?_
        rintro w ⟨rfl⟩
        exact hhas
      dsimp only
      split
      · exact hlogged.lock hin
      · exact hlogged
  | firmwareFrame virtualNode =>
    simp only [step]
    split
    · rename_i i hfind
      refine h.lock ?_
      rintro j ⟨rfl⟩
      exact List.mem_of_find?_eq_some hfind
    · exact h
  | fwLockTimeout =>
    simp only [step]
    split
    · have hnodes := h.toNodes
      exact h.congr ⟨hnodes.1, hnodes.2, hnodes.3, hnodes.4, hnodes.5, hnodes.6, hnodes.7⟩ rfl
        (fun _ _ => rfl) rfl rfl rfl (fun i hi => by cases hi) h.held
    · exact h
  | addVirtualNodes accepts => exact h.addVirtualNodes accepts
  | virtualAdded status newId isSuc accepts =>
    simp only [step]
    split
    · rename_i hlearning
      exact h.virtualAddCallback hlearning isSuc accepts hok
    · exact h
  | resumeInit accepts =>
    simp only [step, resumeInit]
    split
    · have hretry : Sound cfg { s with retryCount := 0 } := by
        refine h.nodes ⟨h.max, h.learning, h.nodup, h.classic, h.mask, h.idx, h.lrIdx⟩ rfl rfl rfl
          ⟨[], (List.append_nil _).symm⟩ rfl rfl rfl rfl
      exact hretry.addVirtualNodes accepts
    · exact h
  | copyVirtualNodesMask mask =>
    exact h.nodes ⟨h.max, h.learning, h.nodup, h.classic, hok, h.idx, h.lrIdx⟩ rfl rfl rfl
      ⟨[], (List.append_nil _).symm⟩ rfl rfl rfl rfl

/-- The virtual nodes of the store: classic nodes the controller knows, each once. -/
structure Stored (stored : List NodeId) (mask : NodeId → Bool) : Prop where
  nodup : stored.Nodup
  classic : ∀ v ∈ stored, isClassicNode v = true
  mask : ∀ v ∈ stored, mask v = true

theorem sound_init {stored : List NodeId} {mask : NodeId → Bool} (h : Stored stored mask) :
    Sound cfg (init stored mask) where
  max := List.length_take_le _ _
  learning := fun hf => absurd hf Bool.false_ne_true
  nodup := h.nodup.sublist (List.take_sublist _ _)
  classic := fun v hv => h.classic v (List.mem_of_mem_take hv)
  mask := fun v hv => h.mask v (List.mem_of_mem_take hv)
  idx := Nat.zero_le _
  lrIdx := Nat.zero_le _
  tableNodup := .nil
  alloc := fun _ => ⟨fun hf => absurd hf Bool.false_ne_true, fun hmem => by cases hmem⟩
  active := fun _ hmem => by cases hmem
  classicUsed := .nil
  lrUsed := .nil
  keys := .nil
  lockedIn := fun _ hi => by cases hi
  held := fun _ _ _ hv => hv.elim

def NodeAvailable (s : TempAssoc) (dest : NodeId) : Prop :=
  (isLrNode dest = true ∧ s.lrNextNodeidIdx < maxLrTempAssociations) ∨
    (isClassicNode dest = true ∧ s.nextNodeidIdx < s.virtualNodeids.length)

/-- Without a virtual node for it, a new client gets the oldest association that may be taken. -/
def RecyclesOldest (cfg : BridgeCfg) (s : TempAssoc) (c : ZipClient) (dest : NodeId) : Prop :=
  Fresh cfg s c dest → ¬ NodeAvailable s dest → ∀ i, s.table.find? (s.recyclable dest) = some i →
    (create cfg s c dest false).1 = some (.pool i)

/-- Some virtual nodes for classic nodes were not created, those that were are used, and there is an
association that may be taken. -/
def Starved (cfg : BridgeCfg) (s : TempAssoc) (c : ZipClient) (dest : NodeId) : Prop :=
  Fresh cfg s c dest ∧ isClassicNode dest = true ∧ s.virtualNodeids.length ≤ s.nextNodeidIdx ∧
    s.nextNodeidIdx < maxClassicTempAssociations ∧ ∃ i ∈ s.table, s.recyclable dest i = true

theorem Sound.recyclesOldest_iff (h : Sound cfg s) (c : ZipClient) (dest : NodeId) :
    RecyclesOldest cfg s c dest ↔ ¬ Starved cfg s c dest := by
  constructor
  · rintro hrec ⟨hfresh, hclassic, hused, hmax, i, hi, hok⟩
    have hnone : ¬ NodeAvailable s dest := by
      rintro (⟨hlr, -⟩ | ⟨-, hlt⟩)
      · rw [isLrNode_of_classic hclassic] at hlr
        cases hlr
      · exact absurd hlt (Nat.not_lt.mpr hused)
    have hsome : (s.table.find? (s.recyclable dest)).isSome = true := List.find?_isSome.mpr ⟨i, hi, hok⟩
    obtain ⟨j, hfind⟩ := Option.isSome_iff_exists.mp hsome
    have hresult := hrec hfresh hnone j hfind
    have havail : s.checkAvailable dest = true := checkAvailable_iff.mpr (.inr ⟨hclassic, hmax⟩)
    have hcreated := h.created hfresh
    rw [hresult] at hcreated
    generalize (TempAssoc.create cfg s c dest false).2 = t at hcreated
    cases hcreated with
    | fresh hfree hnode hlock =>
      rcases hnode with ⟨hlr, hlt, -⟩ | ⟨hcl, hlt, -⟩
      · exact hnone (.inl ⟨hlr, hlt⟩)
      · exact hnone (.inr ⟨hcl, hlt⟩)
    | recycled hfull holdest =>
      rw [havail] at hfull
      cases hfull
  · intro hstarved hfresh hnone i hfind
    have hcreated := h.created hfresh
    generalize TempAssoc.create cfg s c dest false = r at hcreated
    obtain ⟨p, t⟩ := r
    cases hcreated with
    | fresh hfree hnode hlock =>
      rcases hnode with ⟨hlr, hlt, -⟩ | ⟨hcl, hlt, -⟩
      · exact absurd (.inl ⟨hlr, hlt⟩) hnone
      · exact absurd (.inr ⟨hcl, hlt⟩) hnone
    | starved hfree hclassic hused hmax hlock =>
      refine absurd ⟨hfresh, hclassic, hused, hmax, i, List.mem_of_find?_eq_some hfind, ?_⟩ hstarved
      exact List.find?_some hfind
    | recycled hfull holdest =>
      rw [hfind] at holdest
      rw [Option.some.inj holdest]
    | refused hfull hnoneFound hlock =>
      rw [hfind] at hnoneFound
      cases hnoneFound

/-- What a step does to the table: nothing, or one more at its end; what stays in its place is as before, and
so is the one under the firmware lock. -/
def TableStep (s t : TempAssoc) : Prop :=
  (t.table = s.table ∧ ∀ j ∈ s.table, t.mem j = s.mem j) ∨
    ∃ i, t.table = s.table.erase i ++ [i] ∧ (i ∈ s.table → s.locked ≠ some (.pool i)) ∧ ∀ j, j ≠ i → t.mem j = s.mem j

theorem TableStep.same (htable : t.table = s.table) (hmem : t.mem = s.mem) : TableStep s t :=
  .inl ⟨htable, fun j _ => by rw [hmem]⟩

theorem Sound.tableStep_create (h : Sound cfg s) (c : ZipClient) (dest : NodeId) (busy : Bool) :
    TableStep s (TempAssoc.create cfg s c dest busy).2 := by
  cases busy with
  | true => exact .same rfl rfl
  | false =>
    by_cases hunsol : cfg.unsolicited c = true
    · obtain ⟨a, -, heq⟩ := create_of_unsolicited s dest hunsol
      rw [heq]
      exact .same rfl rfl
    · have hunsol : cfg.unsolicited c = false := by simpa using hunsol
      by_cases hkey : ∃ i ∈ s.table, s.key i = (c, isLrNode dest)
      · obtain ⟨i, hi, hkey⟩ := hkey
        obtain ⟨j, -, -, heq⟩ := create_of_key hunsol hi hkey
        rw [heq]
        exact .same rfl rfl
      · have hfresh : Fresh cfg s c dest := ⟨hunsol, fun i hi hk => hkey ⟨i, hi, hk⟩⟩
        have hcreated := h.created hfresh
        generalize TempAssoc.create cfg s c dest false = r at hcreated
        obtain ⟨p, t⟩ := r
        have hnot : ∀ i, s.allocated i = false → i ∉ s.table := by
          intro i hfree hi
          rw [(h.alloc i).mpr hi] at hfree
          cases hfree
        cases hcreated with
        | @fresh i v idx lrIdx locked fwTimer stored hfree hnode hlock =>
          refine .inr ⟨i, ?_, fun hi => absurd hi (hnot i hfree), fun j hj => ?_⟩
          · simp only [List.erase_of_not_mem (hnot i hfree)]
          · exact Function.update_of_ne hj _ _
        | @starved i a locked fwTimer hfree hclassic hused hmax hlock =>
          refine .inl ⟨rfl, fun j hj => Function.update_of_ne ?_ _ _⟩
          rintro rfl
          exact hnot j hfree hj
        | @recycled i stored hfull holdest =>
          refine .inr ⟨i, rfl, fun _ hlocked => ?_, fun j hj => Function.update_of_ne hj _ _⟩
          exact (recyclable_kind holdest).2 hlocked.symm
        | refused hfull hnone hlock => exact .same rfl rfl

theorem addVirtualNodes_table (s : TempAssoc) (accepts : Bool) :
    (s.addVirtualNodes accepts).table = s.table ∧ (s.addVirtualNodes accepts).mem = s.mem := by
  unfold TempAssoc.addVirtualNodes
  split
  · split
    · exact ⟨rfl, rfl⟩
    · exact ⟨rfl, rfl⟩
  · exact ⟨rfl, rfl⟩

theorem Sound.tableStep (h : Sound cfg s) (e : AssocInput) : TableStep s (step cfg s e) := by
  cases e with
  | request c dest busy firmware =>
    have hcreate := h.tableStep_create c dest busy
    simp only [step]
    generalize TempAssoc.create cfg s c dest busy = r at hcreate
    obtain ⟨p, u⟩ := r
    cases p with
    | none => exact hcreate
    | some p =>
      dsimp only
      split
      · exact hcreate
      · exact hcreate
  | firmwareFrame virtualNode =>
    simp only [step]
    split
    · exact .same rfl rfl
    · exact .same rfl rfl
  | fwLockTimeout =>
    simp only [step]
    split
    · exact .same rfl rfl
    · exact .same rfl rfl
  | addVirtualNodes accepts =>
    exact .same (addVirtualNodes_table s accepts).1 (addVirtualNodes_table s accepts).2
  | virtualAdded status newId isSuc accepts =>
    simp only [step]
    split
    · cases status with
      | complete => exact .same rfl rfl
      | other => exact .same rfl rfl
      | nodeidDone =>
        simp only [TempAssoc.virtualAddCallback]
        split
        · split
          · exact .same (addVirtualNodes_table _ accepts).1 (addVirtualNodes_table _ accepts).2
          · exact .same (addVirtualNodes_table _ accepts).1 (addVirtualNodes_table _ accepts).2
        · split
          · exact .same rfl rfl
          · exact .same rfl rfl
    · exact .same rfl rfl
  | resumeInit accepts =>
    simp only [step, resumeInit]
    split
    · exact .same (addVirtualNodes_table _ accepts).1 (addVirtualNodes_table _ accepts).2
    · exact .same rfl rfl
  | copyVirtualNodesMask mask => exact .same rfl rfl

structure Associations (cfg : BridgeCfg) (s : TempAssoc) : Prop where
  nonzero : ∀ i ∈ s.table, (s.mem i).virtualId ≠ 0
  distinct : (s.table.map fun i => (s.mem i).virtualId).Nodup
  same : ∀ c dest v, Held c (isLrNode dest) v s.out →
    ∃ r, (create cfg s c dest false).1 = some r ∧ (create cfg s c dest false).2.virtualIdOf r = v
  locked : ∀ i e, s.locked = some (.pool i) → i ∈ (step cfg s e).table ∧ (step cfg s e).mem i = s.mem i
  order : ∀ e, (step cfg s e).table = s.table ∨ ∃ i, (step cfg s e).table = s.table.erase i ++ [i]

theorem Sound.associations (h : Sound cfg s) : Associations cfg s where
  nonzero := fun _ hi => h.virtualId_ne_zero hi
  distinct := h.virtualIds_nodup
  same := by
    intro c dest v hheld
    have hhas := h.held c (isLrNode dest) v hheld
    unfold Has at hhas
    split at hhas
    · rename_i hunsol
      obtain ⟨a, hid, heq⟩ := create_of_unsolicited s dest hunsol
      rw [heq]
      exact ⟨.unsol, rfl, hid.trans hhas.symm⟩
    · rename_i hunsol
      obtain ⟨i, hi, hkey, hid⟩ := hhas
      obtain ⟨j, hj, hjkey, heq⟩ := create_of_key (by simpa using hunsol) hi hkey
      have hij : j = i :=
        List.inj_on_of_nodup_map h.keys hj hi (hjkey.trans hkey.symm)
      rw [heq]
      exact ⟨.pool j, rfl, by rw [hij]; exact hid⟩
  locked := by
    intro i e hlocked
    have hi := h.lockedIn i hlocked
    rcases h.tableStep e with ⟨htable, hmem⟩ | ⟨j, htable, hfree, hmem⟩
    · rw [htable]
      exact ⟨hi, hmem i hi⟩
    · have hij : i ≠ j := by
        rintro rfl
        exact hfree hi hlocked
      rw [htable]
      exact ⟨List.mem_append_left _ ((List.mem_erase_of_ne hij).mpr hi), hmem i hij⟩
  order := by
    intro e
    rcases h.tableStep e with ⟨htable, -⟩ | ⟨j, htable, -⟩
    · exact .inl htable
    · exact .inr ⟨j, htable⟩

/-- In every run, the associations are as they should be, and a new client gets the oldest
association that may be taken exactly when it is not starved. -/
theorem associations_of_run (cfg : BridgeCfg) {stored : List NodeId} {mask : NodeId → Bool}
    (hstored : Stored stored mask) (inputs : List AssocInput)
    (hok : Machine.Admissible (step cfg) Contract (init stored mask) inputs) :
    Associations cfg (run cfg (init stored mask) inputs) ∧
      ∀ c dest, RecyclesOldest cfg (run cfg (init stored mask) inputs) c dest ↔
        ¬ Starved cfg (run cfg (init stored mask) inputs) c dest := by
  have hsound : Sound cfg (run cfg (init stored mask) inputs) :=
    Machine.run_invariant_of_admissible (fun s e hok h => sound_step s e hok h) hok (sound_init hstored)
  exact ⟨hsound.associations, hsound.recyclesOldest_iff⟩

def sampleCfg : BridgeCfg := ⟨1, 4123, 1⟩

def sampleClient (ip : IpAddr) : ZipClient := ⟨ip, 4123, 0, 0⟩

def sampleMask (node : NodeId) : Bool :=
  node == 7 || node == 8

theorem sampleClients_associated : Associations sampleCfg (run sampleCfg (init [7, 8] sampleMask)
    [.request (sampleClient 2) 5 false false, .request (sampleClient 3) 6 false true]) :=
  (associations_of_run sampleCfg
    ⟨by decide, by simp [isClassicNode, isClassic, zwClassicMaxNodes], by simp [sampleMask]⟩
    [.request (sampleClient 2) 5 false false, .request (sampleClient 3) 6 false true]
    ⟨trivial, trivial, trivial⟩).1

/-- Of the four virtual nodes one was created. The first client has it, its association is not
locked, and the second client gets none. -/
theorem starvedClient_not_recycled : ¬ RecyclesOldest sampleCfg (run sampleCfg (init [7] sampleMask)
    [.request (sampleClient 2) 5 false false]) (sampleClient 3) 6 := by
  intro hrec
  have hresult := hrec ⟨by decide, by decide⟩ (by unfold NodeAvailable; decide) 0 (by decide)
  exact absurd hresult (by decide)

end TempAssoc

end ZipGateway

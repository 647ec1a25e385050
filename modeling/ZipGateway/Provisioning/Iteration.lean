import ZipGateway.Provisioning.Commands
import ZipGateway.Provisioning.Unique

/-!
# Iterating the list

A client asks for the first provision with the count 0xFF and then sends back the count of each
report. The counter of the iterator is wider than the count in the frame, which the slots of the list leave
unused. A DSK of more than 16 bytes is not in the iterator.
-/

namespace ZipGateway.Provisioning

def iterGetFrame (seqNo remaining : UInt8) : Bytes :=
  [commandClassProvisioningList, commandProvisionIterGet, seqNo, remaining]

inductive Ending where
  | finished
  | refused
  | running
deriving DecidableEq, Repr

def reportRemaining (report : Bytes) : UInt8 := report.getD 3 0

def reportEntry (report : Bytes) : Option (Bytes × Bytes) :=
  let dsklen := (report.getD 4 0 &&& provisioningListDskLengthMask).toNat
  if dsklen = 0 then none
  else some ((report.drop 5).take dsklen, report.drop (5 + dsklen))

/-- The client: the reports it gets from `remaining` on, and how it ends; frames are written over what is in
the buffer. -/
def iterate (rd : RdLookupByDsk) (buf : Mem) (seqNo : UInt8) : Nat → UInt8 → Pvl → List Bytes × Ending
  | 0, _, _ => ([], .running)
  | fuel + 1, remaining, s =>
    let (s, answer) := pvlCommandHandler rd s (buf.write 0 (iterGetFrame seqNo remaining)) 4
    match answer.report with
    | none => ([], .refused)
    | some report =>
      if reportRemaining report = 0 then ([report], .finished)
      else
        let rest := iterate rd buf seqNo fuel (reportRemaining report) s
        (report :: rest.1, rest.2)

def shown (pvs : Provision) : Provision :=
  if pvs.status = pvsStatusDisabled then { pvs with status := pvsStatusPending } else pvs

/-- The provisions are reported, each once and in this order, and the count of the last report is 0. -/
def Reports (rd : RdLookupByDsk) (buf : Mem) (seqNo : UInt8) (s : Pvl) (pvss : List Provision) : Prop :=
  ∃ fuel reports, iterate rd buf seqNo fuel 0xFF s = (reports, .finished) ∧
    reports.filterMap reportEntry = pvss.map fun pvs => (pvs.dsk, ccProvisioningListAddTlvs rd (shown pvs))

def Iterated (rd : RdLookupByDsk) (buf : Mem) (seqNo : UInt8) (s : Pvl) : Prop :=
  Reports rd buf seqNo s (provisions s.list)

variable {fuel : Nat}

section Shown

variable {list : PvsList} {slot : Slot} {dsk : Bytes} {pvs : Provision}

@[simp]
theorem dsk_shown (pvs : Provision) : (shown pvs).dsk = pvs.dsk := by
  unfold shown
  split <;> rfl

theorem shown_pending (pvs : Provision) :
    shown { pvs with status := pvsStatusPending } = { pvs with status := pvsStatusPending } :=
  if_neg (show pvsStatusPending ≠ pvsStatusDisabled by decide)

def shownList (list : PvsList) : PvsList :=
  list.map (Option.map shown)

theorem at_shownList (list : PvsList) (slot : Slot) : (shownList list).at slot = (list.at slot).map shown := by
  rw [PvsList.at, shownList, List.getElem?_map, PvsList.at]
  cases list[slot]? <;> rfl

theorem provisioningListDevGet_shownList (list : PvsList) (dsk : Bytes) :
    provisioningListDevGet (shownList list) dsk = provisioningListDevGet list dsk := by
  have hhas : hasDsk dsk ∘ Option.map shown = hasDsk dsk := by
    funext entry
    cases entry <;> simp [hasDsk]
  rw [provisioningListDevGet, provisioningListDevGet, shownList, List.findIdx?_map, hhas]

theorem shownList_statusSet (list : PvsList) (entry : Option Slot)
    (hdisabled : ∀ {pvs}, entry.bind list.at = some pvs → pvs.status = pvsStatusDisabled) :
    shownList (provisioningListStatusSet list entry pvsStatusPending) = shownList list := by
  cases entry with
  | none => rfl
  | some slot =>
    apply List.ext_getElem?
    intro i
    simp only [provisioningListStatusSet, shownList, PvsList.write, List.getElem?_map]
    by_cases hi : slot = i
    · subst hi
      rw [List.getElem?_modify_eq]
      cases hentry : list[slot]? with
      | none => rfl
      | some entry =>
        cases entry with
        | none => rfl
        | some pvs =>
          have hstatus := hdisabled (at_eq_some.mpr hentry)
          simp only [Option.map_eq_map, Option.map_some, shown_pending]
          rw [shown, if_pos hstatus]
    · rw [List.getElem?_modify_ne _ _ hi]

end Shown

section Frames

theorem iterGetFrame_read (buf : Mem) (seqNo remaining : UInt8) :
    buf.write 0 (iterGetFrame seqNo remaining) 1 = commandProvisionIterGet ∧
    buf.write 0 (iterGetFrame seqNo remaining) 2 = seqNo ∧
    buf.write 0 (iterGetFrame seqNo remaining) 3 = remaining := by
  simp [Mem.write, iterGetFrame]

theorem pvlCommandHandler_iterGet (rd : RdLookupByDsk) (s : Pvl) (buf : Mem) (seqNo remaining : UInt8) :
    pvlCommandHandler rd s (buf.write 0 (iterGetFrame seqNo remaining)) 4 =
      provisionIterGet rd s (buf.write 0 (iterGetFrame seqNo remaining)) := by
  have hset : commandProvisionIterGet ≠ commandProvisionSet := by decide
  have hdelete : commandProvisionIterGet ≠ commandProvisionDelete := by decide
  rw [pvlCommandHandler, if_neg (by decide), (iterGetFrame_read buf seqNo remaining).1, if_neg hset,
    if_neg hdelete, if_pos rfl]

@[simp]
theorem reportRemaining_iterReport (rd : RdLookupByDsk) (entry : Option Provision)
    (seqNo remaining : UInt8) : reportRemaining (iterReport rd entry seqNo remaining) = remaining := by
  cases entry <;> rfl

theorem reportEntry_iterReport_none (rd : RdLookupByDsk) (seqNo remaining : UInt8) :
    reportEntry (iterReport rd none seqNo remaining) = none := by
  have hbyte : (iterReport rd none seqNo remaining).getD 4 0 = 0 := rfl
  rw [reportEntry, hbyte, if_pos (by decide)]

theorem iterated_iff {dsk : Bytes} : iterated dsk = true ↔ 4 ≤ dsk.length ∧ dsk.length ≤ 16 := by
  rw [iterated, Bool.and_eq_true, decide_eq_true_eq, decide_eq_true_eq, provisioningListDskMaxSize]

theorem reportEntry_iterReport_some (rd : RdLookupByDsk) {pvs : Provision}
    (hdsk : iterated pvs.dsk = true) (seqNo remaining : UInt8) :
    reportEntry (iterReport rd (some pvs) seqNo remaining) = some (pvs.dsk, ccProvisioningListAddTlvs rd pvs) := by
  obtain ⟨hmin, hmax⟩ := iterated_iff.mp hdsk
  have hmask := ofNat_and_mask_of_lt (show pvs.dsk.length < 32 by omega)
  have hlen : (UInt8.ofNat pvs.dsk.length).toNat = pvs.dsk.length := by
    rw [UInt8.toNat_ofNat']
    omega
  have hbyte : (iterReport rd (some pvs) seqNo remaining).getD 4 0 =
      UInt8.ofNat pvs.dsk.length &&& provisioningListDskLengthMask := rfl
  have hdrop : (iterReport rd (some pvs) seqNo remaining).drop 5 = pvs.dsk ++ ccProvisioningListAddTlvs rd pvs := rfl
  rw [reportEntry, hbyte, hmask, hmask, hlen, if_neg (by omega), ← List.drop_drop, hdrop,
    List.take_left, List.drop_left]

end Frames

section Step

variable {rd : RdLookupByDsk} {list : PvsList} {iter : Iter} {seqNo : UInt8} {dsk : Bytes}

def shownEntry (list : PvsList) (dsk : Bytes) : Option Provision :=
  (provisioningListDevGet list dsk).bind (shownList list).at

theorem shownEntry_congr {list' : PvsList} (h : shownList list' = shownList list) (dsk : Bytes) :
    shownEntry list' dsk = shownEntry list dsk := by
  rw [shownEntry, shownEntry, ← provisioningListDevGet_shownList list', h, provisioningListDevGet_shownList]

theorem dsk_of_shownEntry {pvs : Provision} (h : shownEntry list dsk = some pvs) : pvs.dsk = dsk := by
  rw [shownEntry, ← provisioningListDevGet_shownList] at h
  exact dsk_of_entryOf h

theorem provisionIterNext_of_getElem? (rd : RdLookupByDsk) (list : PvsList) (seqNo : UInt8)
    (hdsk : iter.entries[iter.next]? = some dsk) :
    ∃ list', shownList list' = shownList list ∧ provisionIterNext rd list iter seqNo =
        ({ list := list', currIter := some { iter with next := iter.next + 1 } },
          { code := .commandHandled
            report := some (iterReport rd (shownEntry list dsk) seqNo (UInt8.ofNat (iter.left - 1))) }) := by
  have hnext : provisioningListIterGetNext list iter =
      (provisioningListDevGet list dsk, { iter with next := iter.next + 1 }) := by
    rw [provisioningListIterGetNext, hdsk]
  have hleft : Iter.left { iter with next := iter.next + 1 } = iter.left - 1 := by
    simp only [Iter.left]
    omega
  rw [provisionIterNext, hnext]
  simp only [hleft, shownEntry]
  generalize provisioningListDevGet list dsk = entry
  split
  · rename_i hany
    obtain ⟨pvs, hpvs, hstatus⟩ := (Option.any_eq_true _ _).mp hany
    have hstatus : pvs.status = pvsStatusDisabled := by simpa using hstatus
    have hsame := shownList_statusSet list entry fun h => Option.some.inj (h.symm.trans hpvs) ▸ hstatus
    refine ⟨_, hsame, ?_⟩
    obtain ⟨slot, rfl, hat⟩ := Option.bind_eq_some_iff.mp hpvs
    have hshown : (shownList list).at slot = some { pvs with status := pvsStatusPending } := by
      rw [at_shownList, hat, Option.map_some, shown, if_pos hstatus]
    have hnew : (provisioningListStatusSet list (some slot) pvsStatusPending).at slot =
        some { pvs with status := pvsStatusPending } := by
      rw [provisioningListStatusSet, at_write_self, hat, Option.map_some]
    simp only [Option.bind_some, hshown, hnew]
  · rename_i hany
    refine ⟨list, rfl, ?_⟩
    have hshown : entry.bind (shownList list).at = entry.bind list.at := by
      cases entry with
      | none => rfl
      | some slot =>
        simp only [Option.bind_some, at_shownList]
        cases hat : list.at slot with
        | none => rfl
        | some pvs =>
          have hstatus : pvs.status ≠ pvsStatusDisabled := by
            simpa [Option.bind_some, hat] using hany
          rw [Option.map_some, shown, if_neg hstatus]
    rw [hshown]

theorem getElem?_of_left_pos (iter : Iter) (h : 0 < iter.left) : ∃ dsk, iter.entries[iter.next]? = some dsk ∧
      iter.entries.drop iter.next = dsk :: iter.entries.drop (iter.next + 1) := by
  have hlt : iter.next < iter.entries.length := by
    simp only [Iter.left] at h
    omega
  exact ⟨_, List.getElem?_eq_getElem hlt, List.drop_eq_getElem_cons hlt⟩

variable {buf : Mem} {s : Pvl} {remaining : UInt8}

theorem provisionIterGet_of_eq (rd : RdLookupByDsk) (buf : Mem) (seqNo : UInt8)
    (hne : remaining ≠ 0xFF) (hiter : s.currIter = some iter)
    (hleft : remaining.toNat = iter.left) :
    provisionIterGet rd s (buf.write 0 (iterGetFrame seqNo remaining)) = provisionIterNext rd s.list iter seqNo := by
  obtain ⟨-, hseq, hrem⟩ := iterGetFrame_read buf seqNo remaining
  simp only [provisionIterGet, hseq, hrem, if_neg hne, hiter, hleft, ne_eq, not_true_eq_false, if_false]

theorem provisionIterGet_start (rd : RdLookupByDsk) (buf : Mem) (seqNo : UInt8) (s : Pvl) :
    provisionIterGet rd s (buf.write 0 (iterGetFrame seqNo 0xFF)) =
      provisionIterNext rd s.list (provisioningListIteratorGet s.list) seqNo := by
  obtain ⟨-, hseq, hrem⟩ := iterGetFrame_read buf seqNo 0xFF
  simp only [provisionIterGet, hseq, hrem, if_true]

theorem iterate_succ {s' : Pvl} {report : Bytes} {code : CommandHandlerCode}
    (h : provisionIterGet rd s (buf.write 0 (iterGetFrame seqNo remaining)) = (s', { code, report := some report })) :
    iterate rd buf seqNo (fuel + 1) remaining s =
      if reportRemaining report = 0 then ([report], .finished)
      else
        (report :: (iterate rd buf seqNo fuel (reportRemaining report) s').1,
          (iterate rd buf seqNo fuel (reportRemaining report) s').2) := by
  rw [iterate, pvlCommandHandler_iterGet, h]

end Step

section Runs

variable {rd : RdLookupByDsk} {buf : Mem} {seqNo : UInt8} {s : Pvl} {iter : Iter}

def entryView (rd : RdLookupByDsk) (list : PvsList) (dsk : Bytes) : Option (Bytes × Bytes) :=
  (shownEntry list dsk).map fun pvs => (pvs.dsk, ccProvisioningListAddTlvs rd pvs)

theorem reportEntry_iterReport {list : PvsList} {dsk : Bytes} (hdsk : iterated dsk = true) (seqNo remaining : UInt8) :
    reportEntry (iterReport rd (shownEntry list dsk) seqNo remaining) = entryView rd list dsk := by
  rw [entryView]
  cases hentry : shownEntry list dsk with
  | none => exact reportEntry_iterReport_none rd seqNo remaining
  | some pvs => exact reportEntry_iterReport_some rd (dsk_of_shownEntry hentry ▸ hdsk) seqNo remaining

theorem ofNat_eq_zero_of_lt {n : Nat} (h : n < 256) : UInt8.ofNat n = 0 ↔ n = 0 := by
  rw [← UInt8.toNat_inj, UInt8.toNat_ofNat', Nat.mod_eq_of_lt h]
  rfl

theorem iterate_left (rd : RdLookupByDsk) (buf : Mem) (seqNo : UInt8) {n : Nat} (hpos : 0 < n) (hmax : n < 255) (hiter : s.currIter = some iter)
    (hleft : iter.left = n) (hall : ∀ dsk ∈ iter.entries, iterated dsk = true) :
    ∃ reports, iterate rd buf seqNo n (UInt8.ofNat n) s = (reports, .finished) ∧ reports.filterMap reportEntry =
        (iter.entries.drop iter.next).filterMap (entryView rd s.list) := by
  induction n generalizing s iter with
  | zero => omega
  | succ n ih =>
    have htoNat : (UInt8.ofNat (n + 1)).toNat = n + 1 := by
      rw [UInt8.toNat_ofNat']
      omega
    have hne : UInt8.ofNat (n + 1) ≠ 0xFF := by
      intro heq
      rw [heq] at htoNat
      have h255 : (0xFF : UInt8).toNat = 255 := rfl
      omega
    obtain ⟨dsk, hdsk, hdrop⟩ := getElem?_of_left_pos iter (by omega)
    obtain ⟨list', hlist', hnext⟩ :=
      provisionIterNext_of_getElem? rd s.list seqNo hdsk
    have hdskOk := hall dsk (List.mem_of_getElem? hdsk)
    have hget := (provisionIterGet_of_eq rd buf seqNo hne hiter (htoNat.trans hleft.symm)).trans hnext
    rw [iterate_succ hget, reportRemaining_iterReport, hleft, Nat.add_sub_cancel]
    by_cases hn : n = 0
    · subst hn
      have hlast : iter.entries.drop (iter.next + 1) = [] := by
        apply List.drop_eq_nil_of_le
        simp only [Iter.left] at hleft
        omega
      refine ⟨_, if_pos rfl, ?_⟩
      rw [hdrop, hlast, List.filterMap_cons, List.filterMap_cons, reportEntry_iterReport hdskOk]
      rfl
    · have hleft' : Iter.left { iter with next := iter.next + 1 } = n := by
        simp only [Iter.left] at hleft ⊢
        omega
      obtain ⟨reports, hreports, hview⟩ :=
        ih (s := { list := list', currIter := some { iter with next := iter.next + 1 } })
          (Nat.pos_of_ne_zero hn) (by omega) rfl hleft' hall
      have hsame : entryView rd list' = entryView rd s.list := by
        funext dsk
        rw [entryView, shownEntry_congr hlist', entryView]
      refine ⟨_, by rw [if_neg ((ofNat_eq_zero_of_lt (by omega)).not.mpr hn), hreports], ?_⟩
      rw [List.filterMap_cons, hview, hdrop, List.filterMap_cons, reportEntry_iterReport hdskOk, hsame]

theorem entries_provisioningListIteratorGet (list : PvsList) : (provisioningListIteratorGet list).entries =
      ((provisions list).map Provision.dsk).filter iterated := by
  rw [provisioningListIteratorGet, provisions, List.map_filterMap, List.filter_filterMap]
  rfl

theorem iterated_of_mem {list : PvsList} {dsk : Bytes}
    (h : dsk ∈ (provisioningListIteratorGet list).entries) : iterated dsk = true := by
  rw [entries_provisioningListIteratorGet] at h
  exact (List.mem_filter.mp h).2

theorem iterate_start (rd : RdLookupByDsk) (buf : Mem) (seqNo : UInt8) (fuel : Nat) {dsk : Bytes} {rest : List Bytes}
    (hentries : (provisioningListIteratorGet s.list).entries = dsk :: rest) :
    ∃ list', shownList list' = shownList s.list ∧ iterate rd buf seqNo (fuel + 1) 0xFF s =
        if UInt8.ofNat rest.length = 0 then
          ([iterReport rd (shownEntry s.list dsk) seqNo (UInt8.ofNat rest.length)], .finished)
        else
          (iterReport rd (shownEntry s.list dsk) seqNo (UInt8.ofNat rest.length) ::
            (iterate rd buf seqNo fuel (UInt8.ofNat rest.length)
              { list := list', currIter := some { entries := dsk :: rest, next := 1 } }).1,
            (iterate rd buf seqNo fuel (UInt8.ofNat rest.length)
              { list := list', currIter := some { entries := dsk :: rest, next := 1 } }).2) := by
  have hiter : provisioningListIteratorGet s.list = { entries := dsk :: rest, next := 0 } := by
    rw [← hentries]
    rfl
  have hdsk : (provisioningListIteratorGet s.list).entries[(provisioningListIteratorGet s.list).next]? = some dsk := by
    rw [hiter]
    rfl
  have hleft : (provisioningListIteratorGet s.list).left - 1 = rest.length := by
    rw [hiter]
    rfl
  obtain ⟨list', hlist', hnext⟩ := provisionIterNext_of_getElem? rd s.list seqNo hdsk
  refine ⟨list', hlist', ?_⟩
  rw [iterate_succ ((provisionIterGet_start rd buf seqNo s).trans hnext), reportRemaining_iterReport, hleft, hiter]

theorem iterate_empty (fuel : Nat) (hentries : (provisioningListIteratorGet s.list).entries = []) :
    iterate rd buf seqNo (fuel + 1) 0xFF s = ([iterReport rd none seqNo 0], .finished) := by
  have hiter : provisioningListIteratorGet s.list = { entries := [], next := 0 } := by
    rw [← hentries]
    rfl
  have hget := provisionIterGet_start rd buf seqNo s
  rw [hiter] at hget
  rw [iterate_succ hget]
  rfl

theorem iterate_all (rd : RdLookupByDsk) (buf : Mem) (seqNo : UInt8)
    (hmax : (provisioningListIteratorGet s.list).entries.length ≤ 255) :
    ∃ fuel reports, iterate rd buf seqNo fuel 0xFF s = (reports, .finished) ∧ reports.filterMap reportEntry =
        (provisioningListIteratorGet s.list).entries.filterMap (entryView rd s.list) := by
  cases hentries : (provisioningListIteratorGet s.list).entries with
  | nil =>
    refine ⟨1, _, iterate_empty 0 hentries, ?_⟩
    rw [List.filterMap_cons, reportEntry_iterReport_none]
    rfl
  | cons dsk rest =>
    have hall : ∀ d ∈ dsk :: rest, iterated d = true := fun d hd => iterated_of_mem (hentries ▸ hd)
    obtain ⟨list', hlist', hrun⟩ :=
      iterate_start rd buf seqNo rest.length hentries
    rw [hentries, List.length_cons] at hmax
    by_cases hrest : rest.length = 0
    · rw [if_pos ((ofNat_eq_zero_of_lt (by omega)).mpr hrest)] at hrun
      refine ⟨_, _, hrun, ?_⟩
      rw [List.eq_nil_of_length_eq_zero hrest, List.filterMap_cons, List.filterMap_cons,
        reportEntry_iterReport (hall dsk List.mem_cons_self)]
      rfl
    · obtain ⟨reports, hreports, hview⟩ := iterate_left rd buf seqNo
        (s := { list := list', currIter := some { entries := dsk :: rest, next := 1 } })
        (Nat.pos_of_ne_zero hrest) (by omega) rfl rfl hall
      have hsame : entryView rd list' = entryView rd s.list := by
        funext d
        rw [entryView, shownEntry_congr hlist', entryView]
      rw [if_neg ((ofNat_eq_zero_of_lt (by omega)).not.mpr hrest), hreports] at hrun
      refine ⟨_, _, hrun, ?_⟩
      rw [List.filterMap_cons, hview, List.filterMap_cons, reportEntry_iterReport (hall dsk List.mem_cons_self), hsame]
      rfl

end Runs

/-- On every list the client receives the provisions with DSKs of at most 16 bytes, each once and in order. -/
theorem short_iterated (rd : RdLookupByDsk) (buf : Mem) (seqNo : UInt8) (list : PvsList)
    (currIter : Option Iter) (hs : list.Sound) :
    Reports rd buf seqNo { list, currIter }
      ((provisions list).filter fun pvs => pvs.dsk.length ≤ provisioningListDskMaxSize) := by
  have hentries : (provisioningListIteratorGet list).entries = ((provisions list).filter fun pvs =>
      pvs.dsk.length ≤ provisioningListDskMaxSize).map Provision.dsk := by
    rw [entries_provisioningListIteratorGet, List.filter_map]
    congr 1
    apply List.filter_congr
    intro pvs hpvs
    obtain ⟨slot, hslot⟩ := mem_provisions.mp hpvs
    have hmin := (hs.provisions hslot).dskMin
    simp [iterated, hmin]
  have hcount : (provisions list).length ≤ provisioningListSize :=
    hs.size ▸ List.length_filterMap_le _ _
  obtain ⟨fuel, reports, hrun, hreports⟩ := iterate_all rd buf seqNo (s := { list, currIter }) (by
    rw [hentries, List.length_map]
    exact (List.length_filter_le _ _).trans (hcount.trans (by decide)))
  refine ⟨fuel, reports, hrun, hreports.trans ?_⟩
  rw [hentries, List.filterMap_map, ← List.filterMap_eq_map]
  apply List.filterMap_congr
  intro pvs hpvs
  have hfound := entryOf_of_mem hs (List.mem_of_mem_filter hpvs)
  obtain ⟨slot, hslot, hat⟩ := Option.bind_eq_some_iff.mp hfound
  simp only [Function.comp, entryView, shownEntry, hslot, Option.bind_some, at_shownList, hat,
    Option.map_some, dsk_shown]

def addDsk (n : Nat) (h : n < 256) : Op :=
  .devAdd ⟨List.replicate n 7, by rwa [List.length_replicate]⟩ pvsBootmodeSmartStart true

/-- A list of two provisions, with DSKs of 16 and 17 bytes. -/
def sampleList : PvsList :=
  step (step blankList (addDsk 16 (by decide))) (addDsk 17 (by decide))

theorem sound_sampleList : sampleList.Sound :=
  sound_step (sound_step sound_blankList _) _

theorem short_iterated_sample : (provisions sampleList).length = 2 ∧
    Reports (fun _ => none) (fun _ => 0) 1 { list := sampleList }
      ((provisions sampleList).filter fun pvs => pvs.dsk.length ≤ provisioningListDskMaxSize) :=
  ⟨by decide +kernel, short_iterated _ _ _ sampleList none sound_sampleList⟩

/-- The provision with the DSK of 17 bytes is not reported. -/
theorem sample_not_iterated : sampleList.Sound ∧ ¬Iterated (fun _ => none) (fun _ => 0) 1 { list := sampleList } := by
  refine ⟨sound_sampleList, ?_⟩
  rintro ⟨fuel, reports, hrun, hreports⟩
  have hentries : (provisioningListIteratorGet sampleList).entries = [List.replicate 16 7] := by
    decide +kernel
  have htwo : (provisions sampleList).length = 2 := by decide +kernel
  generalize sampleList = list at *
  cases fuel with
  | zero => cases hrun
  | succ fuel =>
    obtain ⟨list', -, hstart⟩ := iterate_start (fun _ => none) (fun _ => 0) 1 fuel (s := { list := list }) hentries
    rw [hstart, if_pos (show UInt8.ofNat (List.length ([] : List Bytes)) = 0 from rfl)] at hrun
    have hle := List.length_filterMap_le reportEntry reports
    rw [hreports, List.length_map, htwo, ← (Prod.mk.inj hrun).1] at hle
    exact absurd hle (Nat.not_succ_le_self 1)

end ZipGateway.Provisioning

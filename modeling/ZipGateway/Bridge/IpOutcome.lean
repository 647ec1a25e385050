import ZipGateway.Bridge.IpRemoval

/-!
# What an acknowledgement says

A command that meets no fault is completed once. An acknowledgement or a completion with OK is true for
a set-up when the association the command describes is in the table, and for a removal when no
association that the command picks is left. The set-up can re-use an association that is not the one
described. The removal takes the first associations that are marked, which may be left over from an
earlier command, and one whose command does not get through is completed with OK: these are the
conditions that remain.
-/

namespace ZipGateway.IpAssoc

def Frame.describes (f : Frame) (a : Assoc) : Bool :=
  a.hanNodeid = f.destNode ∧ a.hanEndpoint = f.destEndpoint ∧ a.grouping = f.grouping ∧
    a.resourceIp = f.resourceIp ∧ a.resourceEndpoint = f.endpoint

def IsSetUp (f : Frame) (s : State) : Prop :=
  ∃ i ∈ s.table, f.describes (s.mem i)

def IsRemoved (f : Frame) (s : State) : Prop :=
  ∀ i ∈ s.table, f.selector.picks (s.mem i) = false

def Achieved (f : Frame) (s : State) : Prop :=
  (f.command = associationSet → IsSetUp f s) ∧ (f.command = associationRemove → IsRemoved f s)

/-- The log of a command that was completed as it should be. -/
structure CompletedOnce (f : Frame) (s : State) : Prop where
  once : s.out.countP Out.isCompletion = 1
  acks : s.out.countP Out.isAck ≤ 1
  honest : s.SaysOk → Achieved f s

namespace State

def entered (s : State) (f : Frame) : State :=
  { s with clock := s.clock + 1, backup := f, out := .handled f :: s.out }

def SetFits (env : Env) (s : State) (f : Frame) : Prop :=
  ∀ type i, setPath env s f = .virtual type → s.findExisting type f.wasDtls = some i →
    IsSetUp f (s.withMem i { s.mem i with hanEndpoint := f.destEndpoint })

def RemoveFits (s : State) (f : Frame) : Prop :=
  let t := s.findAndMarkForRemoval f.selector
  ∀ i ∈ t.markedList.drop t.marked, f.selector.picks (s.mem i) = false

/-- Nothing goes wrong after which a command is completed twice, or with OK without having done what it
was sent for. `t` is the state after the command. -/
def Smooth (env : Env) (s : State) (f : Frame) (t : State) : Prop :=
  if f.command = associationGet then
    env.sendZip s.nZip = !f.isShortGet
  else
    (∀ o ∈ t.out, o.isFault = false) ∧
      (f.firstQueue = false → f.command = associationSet → (s.entered f).SetFits env f) ∧
      (f.firstQueue = false → f.command = associationRemove → s.marked = 0 →
        (∀ o ∈ t.out, o.isFailedRemoval = false) ∧ s.RemoveFits f)

end State

namespace State

variable {env : Env} {s t : State} {f : Frame}

/-! ### Setting up -/

/-- How far a set-up has come; `fits` says whether its association is the one asked for. -/
inductive SetStage (fits : Prop) (f : Frame) (s : State) : Prop
  | faulted (o : Out) (hmem : o ∈ s.out) (hfault : o.isFault)
  | refused (hpending : s.pending = []) (hok : ¬s.SaysOk) (hfits : fits)
  | adding (hpending : s.pending = [.virtualAdd]) (hok : ¬s.SaysOk) (hfits : fits)
      (hbackup : s.backup = f)
  | sending (i : Block) (hpending : s.pending = [.association i]) (hok : ¬s.SaysOk)
      (hsetUp : IsSetUp f s ↔ fits)
  | routing (i : Block) (hpending : s.pending = [.returnRoute]) (hroute : s.returnRouteFor = some i)
      (hok : ¬s.SaysOk) (hsetUp : IsSetUp f s ↔ fits)
  | done (hpending : s.pending = []) (hok : s.SaysOk) (hsetUp : IsSetUp f s ↔ fits)

namespace SetStage

variable {fits : Prop}

theorem of_suffix {o : Out} (hfault : o.isFault) (hmem : o ∈ s.out) (hsuffix : s.out <:+ t.out) : SetStage fits f t :=
  .faulted o (hsuffix.subset hmem) hfault

theorem put (h : SetStage fits f s) {o : Out} (ho : o.isOk = false) : SetStage fits f (s.put o) := by
  have hout : (s.put o).SaysOk ↔ s.SaysOk := by simp [ho]
  cases h with
  | faulted o' hmem hfault => exact .faulted o' (List.mem_cons_of_mem o hmem) hfault
  | refused hp hok hfits => exact .refused hp (mt hout.mp hok) hfits
  | adding hp hok hfits hb => exact .adding hp (mt hout.mp hok) hfits hb
  | sending i hp hok hs => exact .sending i hp (mt hout.mp hok) hs
  | routing i hp hr hok hs => exact .routing i hp hr (mt hout.mp hok) hs
  | done hp hok hs => exact .done hp (hout.mpr hok) hs

theorem refuse (hpending : s.pending = []) (hok : ¬s.SaysOk) (hfits : fits) : SetStage fits f s.refuse :=
  .refused (pending_refuse hpending) (not_saysOk_refuse hok) hfits

theorem sendIpAssociationCmd (hpending : s.pending = []) (hok : ¬s.SaysOk)
    (hsetUp : IsSetUp f s ↔ fits) (i : Block) (frame : Bytes) :
    SetStage fits f (s.sendIpAssociationCmd env i frame) := by
  unfold State.sendIpAssociationCmd State.sendDataAppl
  cases env.sendAppl s.nSend with
  | true =>
    refine .sending i ?_ ?_ hsetUp
    · simp [await, State.put, hpending]
    · exact not_saysOk_put rfl hok
  | false =>
    let u := { s with nSend := s.nSend + 1 }.put (.sent (s.mem i).hanNodeid frame false)
    have hcleaned := (Tally.sendZipAck u transmitCompleteError).trans (Tally.abort_some env _ i transmitCompleteError)
    exact of_suffix (s := u) rfl List.mem_cons_self hcleaned.suffix

theorem createCallback (hpending : s.pending = []) (hok : ¬s.SaysOk)
    (frame : Assoc → Bytes) (a : Option Block) (hsome : a.isSome → (IsSetUp f s ↔ fits))
    (hnone : a = none → fits) : SetStage fits f (s.createCallback env frame a) := by
  cases a with
  | some i => exact sendIpAssociationCmd hpending hok (hsome rfl) i (frame (s.mem i))
  | none => exact refuse hpending hok (hnone rfl)

theorem callCreateCompleteCb {type : AssocType} (hcb : s.createCb = some type)
    (htype : type = .permanent ∨ type = .proxy) (hpending : s.pending = [])
    (hok : ¬s.SaysOk) (a : Option Block) (hsome : a.isSome → (IsSetUp f s ↔ fits))
    (hnone : a = none → fits) : SetStage fits f (s.callCreateCompleteCb env a) := by
  unfold State.callCreateCompleteCb
  rw [hcb]
  rcases htype with rfl | rfl
  · exact (createCallback (s := s.withCreateCb none) hpending hok permanentFrame a hsome hnone).put
      rfl
  · exact (createCallback (s := s.withCreateCb none) hpending hok proxyFrame a hsome hnone).put
      rfl

theorem isSetUp_addToAssociationTable (i : Block) (hdescribes : f.describes (s.mem i)) :
    IsSetUp f (s.addToAssociationTable i) := by
  unfold State.addToAssociationTable
  split_ifs with hany
  · obtain ⟨j, hj, heq⟩ := List.any_eq_true.mp hany
    have hcopy : s.mem j = s.mem i := by simpa using heq
    refine ⟨j, hj, ?_⟩
    change f.describes (s.mem j)
    rwa [hcopy]
  · exact ⟨i, by simp [withTable], hdescribes⟩

theorem addToAssociationTable_eq (s : State) (i : Block) :
    ∃ allocated table, s.addToAssociationTable i = { s with allocated := allocated, table := table } := by
  unfold State.addToAssociationTable
  split_ifs
  · exact ⟨_, s.table, rfl⟩
  · exact ⟨s.allocated, _, rfl⟩

theorem handleIpAssociationSet (hs : Creating s) (hpending : s.pending = [])
    (hok : ¬s.SaysOk) (hbackup : s.backup = f) :
    SetStage (s.SetFits env f) f (s.handleIpAssociationSet env f) := by
  subst hbackup
  unfold State.handleIpAssociationSet
  cases hpath : setPath env s s.backup with
  | refused =>
    refine refuse hpending hok fun type i hvirtual => ?_
    rw [hpath] at hvirtual
    cases hvirtual
  | localAssoc =>
    have hfits : s.SetFits env s.backup := by
      intro type i hvirtual
      rw [hpath] at hvirtual
      cases hvirtual
    dsimp only
    unfold State.createLocal
    obtain ⟨allocated, halloc⟩ := s.membAlloc_eq
    generalize s.membAlloc = result at halloc ⊢
    obtain ⟨block, u⟩ := result
    obtain rfl : u = { s with allocated := allocated } := halloc
    cases block with
    | none => exact refuse hpending hok hfits
    | some i =>
      let v := { s with allocated := allocated }.withMem i (localFields (s.mem i) s.backup)
      have hdescribes : s.backup.describes (v.mem i) := by
        simp [v, withMem, localFields, Frame.describes]
      have hsetUp := isSetUp_addToAssociationTable i hdescribes
      obtain ⟨allocated', table, hadded⟩ := addToAssociationTable_eq v i
      have hpending' : (v.addToAssociationTable i).pending = [] := by
        rw [hadded]
        exact hpending
      have hok' : ¬(v.addToAssociationTable i).SaysOk := by
        rw [hadded]
        exact hok
      exact sendIpAssociationCmd hpending' hok' (iff_of_true hsetUp hfits) i (localFrame env s.backup)
  | virtual type =>
    have htype := type_of_setPath hpath
    have hcb : s.createCb = none := hs.idle (by simp [hpending])
    dsimp only
    unfold State.ipAssocCreate
    rw [hcb]
    simp only [Option.isSome_none, Bool.false_eq_true, if_false]
    cases hexisting : (s.withCreateCb (some type)).findExisting type s.backup.wasDtls with
    | some i =>
      let v := s.withMem i { s.mem i with hanEndpoint := s.backup.destEndpoint }
      have hfits : IsSetUp s.backup v ↔ s.SetFits env s.backup := by
        constructor
        · intro hsetUp type' i' hpath' hexisting'
          obtain rfl : type = type' := SetPath.virtual.inj (hpath.symm.trans hpath')
          obtain rfl : i = i' := Option.some.inj (hexisting.symm.trans hexisting')
          exact hsetUp
        · intro hfits
          exact hfits type i hpath hexisting
      exact callCreateCompleteCb (s := v.withCreateCb (some type)) rfl htype hpending hok (some i)
        (fun _ => hfits) (by simp)
    | none =>
      have hfits : s.SetFits env s.backup := by
        intro type' i' hpath' hexisting'
        obtain rfl : type = type' := SetPath.virtual.inj (hpath.symm.trans hpath')
        exact absurd (hexisting.symm.trans hexisting') (by simp)
      dsimp only
      unfold State.setSlaveLearnMode
      dsimp only [withCreateCb, withVirtualAdd]
      cases env.learnMode s.nLearn with
      | true =>
        refine .adding ?_ ?_ hfits rfl
        · simp [await, State.put, hpending]
        · exact not_saysOk_put rfl hok
      | false =>
        let u : State := { s with
          nLearn := s.nLearn + 1, virtualAdd := none, createCb := some type
          out := .learnMode true 0 false :: s.out }
        have hcalled := Tally.callCreateCompleteCb env (s := u) rfl htype none
        exact of_suffix (s := u) rfl List.mem_cons_self (hcalled.trans (Tally.refuse _)).suffix

theorem virtualAddCallback {type : AssocType} {wasDtls : UInt8} (hcb : s.createCb = some type)
    (hadd : s.virtualAdd = some (type, wasDtls)) (htype : type = .permanent ∨ type = .proxy)
    (hpending : s.pending = []) (hok : ¬s.SaysOk) (hbackup : s.backup = f) (hfits : fits)
    (status : AssignStatus) (newId : NodeId) :
    SetStage fits f (s.virtualAddCallback env status newId) := by
  let t := s.withVirtualAdd none
  unfold State.virtualAddCallback
  dsimp only
  split_ifs
  · rw [hadd]
    dsimp only
    obtain ⟨allocated, halloc⟩ := t.membAlloc_eq
    generalize t.membAlloc = result at halloc ⊢
    obtain ⟨block, u⟩ := result
    obtain rfl : u = { t with allocated := allocated } := halloc
    cases block with
    | none =>
      exact callCreateCompleteCb (s := { t with allocated := allocated }) hcb htype hpending hok
        none (by simp) fun _ => hfits
    | some i =>
      dsimp only
      unfold State.setupAndSave
      split_ifs
      · let v := ({ t with allocated := allocated }.withMem i (virtualSource type wasDtls newId s.backup)).membFree i
        exact callCreateCompleteCb (s := v) hcb htype hpending hok none (by simp) fun _ => hfits
      · let v := { t with allocated := allocated }.withMem i (virtualFields type wasDtls newId s.backup)
        have hdescribes : f.describes (v.mem i) := by
          simp [v, withMem, virtualFields, virtualSource, Frame.describes, hbackup]
        have hsetUp := isSetUp_addToAssociationTable i hdescribes
        obtain ⟨allocated', table, hadded⟩ := addToAssociationTable_eq v i
        change SetStage fits f ((v.addToAssociationTable i).callCreateCompleteCb env (some i))
        rw [hadded] at hsetUp ⊢
        exact callCreateCompleteCb (s := { v with allocated := allocated', table := table }) hcb htype
          hpending hok (some i) (fun _ => iff_of_true hsetUp hfits) (by simp)
  · exact callCreateCompleteCb (s := t) hcb htype hpending hok none (by simp) fun _ => hfits

theorem sendIpAssociationCmdCallback (hpending : s.pending = []) (hok : ¬s.SaysOk)
    (hsetUp : IsSetUp f s ↔ fits) (i : Block) (status : UInt8) :
    SetStage fits f ((s.put (.callback (.association i) status)).sendIpAssociationCmdCallback env i status) := by
  let t := s.put (.callback (.association i) status)
  unfold State.sendIpAssociationCmdCallback
  split_ifs with hstatus
  · dsimp only
    unfold State.assignReturnRoute
    dsimp only
    cases env.assignRoute (t.withReturnRouteFor (some i)).nRoute with
    | true =>
      refine .routing i ?_ rfl ?_ hsetUp
      · exact congrArg _ hpending
      · exact not_saysOk_put rfl (not_saysOk_put rfl hok)
    | false =>
      let dest := if (s.mem i).type = .localAssoc then env.nodeOfIp (s.mem i).resourceIp
        else (s.mem i).virtualId
      let u := { t.withReturnRouteFor (some i) with nRoute := t.nRoute + 1 }.put (.route (s.mem i).hanNodeid dest false)
      have hforgot : Tally 0 0 u (u.withReturnRouteFor none) := Tally.of_eq rfl rfl rfl rfl
      have hcleaned := (hforgot.trans (Tally.sendZipAck _ transmitCompleteFail)).trans
        (Tally.abort_some env _ i transmitCompleteFail)
      exact of_suffix (s := u) rfl List.mem_cons_self hcleaned.suffix
  · have hcleaned := (Tally.sendZipAck t transmitCompleteFail).trans (Tally.abort_some env _ i transmitCompleteFail)
    refine of_suffix (s := t) ?_ List.mem_cons_self hcleaned.suffix
    simp [Out.isFault, hstatus]

theorem assignReturnRouteCallback {i : Block} (hpending : s.pending = [])
    (hroute : s.returnRouteFor = some i) (hsetUp : IsSetUp f s ↔ fits) (status : UInt8) :
    SetStage fits f (s.assignReturnRouteCallback env status) := by
  let t := (s.withReturnRouteFor none).put (.routeAssigned (some i) status)
  unfold State.assignReturnRouteCallback
  rw [hroute]
  dsimp only
  split_ifs with hstatus
  · have hcleaned := (Tally.sendZipAck t status).trans (Tally.abort_some env _ i transmitCompleteFail)
    refine of_suffix (s := t) ?_ List.mem_cons_self hcleaned.suffix
    simp [Out.isFault, hstatus]
  · have hok : status = transmitCompleteOk := by simpa using hstatus
    subst hok
    exact .done hpending ((saysOk_put _).mpr (.inl rfl)) hsetUp

theorem step (hs : Creating s) (h : SetStage fits f s) {e : Event} (he : e.isCallback) :
    SetStage fits f (s.step env e) := by
  have htally := tally_callback env hs he
  cases h with
  | faulted o hmem hfault => exact of_suffix hfault hmem htally.suffix
  | refused hpending hok hfits =>
    rw [step_of_not_pending env he (by simp [hpending])]
    exact .refused hpending hok hfits
  | done hpending hok hsetUp =>
    rw [step_of_not_pending env he (by simp [hpending])]
    exact .done hpending hok hsetUp
  | adding hpending hok hfits hbackup =>
    by_cases hawaited : e.awaited = some .virtualAdd
    · cases e <;> cases hawaited
      next status newId =>
      obtain ⟨type, wasDtls, hcb, hadd, htype⟩ := hs.waiting (by simp [hpending])
      let u : State := { s with clock := s.clock + 1, pending := s.pending.erase .virtualAdd }
      have hstep : s.step env (.virtualAdded status newId) = u.virtualAddCallback env status newId :=
        if_pos (by simp [hpending])
      rw [hstep]
      exact virtualAddCallback (s := u) hcb hadd htype (by simp [u, hpending]) hok hbackup hfits status newId
    · rw [step_of_not_pending env he (by simpa [hpending] using hawaited)]
      exact .adding hpending hok hfits hbackup
  | sending i hpending hok hsetUp =>
    by_cases hawaited : e.awaited = some (.association i)
    · cases e <;> cases hawaited
      next status =>
      let u : State := { s with clock := s.clock + 1, pending := s.pending.erase (.association i) }
      have hstep : s.step env (.associationSent i status) =
          (u.put (.callback (.association i) status)).sendIpAssociationCmdCallback env i status :=
        if_pos (by simp [hpending])
      rw [hstep]
      exact sendIpAssociationCmdCallback (s := u) (by simp [u, hpending]) hok hsetUp i status
    · rw [step_of_not_pending env he (by simpa [hpending] using hawaited)]
      exact .sending i hpending hok hsetUp
  | routing i hpending hroute hok hsetUp =>
    by_cases hawaited : e.awaited = some .returnRoute
    · cases e <;> cases hawaited
      next status =>
      let u : State := { s with clock := s.clock + 1, pending := s.pending.erase .returnRoute }
      have hstep : s.step env (.routeAssigned status) = u.assignReturnRouteCallback env status :=
        if_pos (by simp [hpending])
      rw [hstep]
      exact assignReturnRouteCallback (s := u) (by simp [u, hpending]) hroute hsetUp status
    · rw [step_of_not_pending env he (by simpa [hpending] using hawaited)]
      exact .routing i hpending hroute hok hsetUp

theorem run {answers : List Event} (hcallbacks : ∀ e ∈ answers, e.isCallback) :
    ∀ {s : State}, Creating s → SetStage fits f s → SetStage fits f (s.run env answers) := by
  induction answers with
  | nil =>
    intro s hs h
    exact h
  | cons e answers ih =>
    intro s hs h
    have he := hcallbacks e List.mem_cons_self
    have hrest : ∀ e' ∈ answers, e'.isCallback := fun e' he' =>
      hcallbacks e' (List.mem_cons_of_mem e he')
    exact ih hrest ((tally_callback env hs he).creating hs) (h.step hs he)

theorem honest_iff (h : SetStage fits f s) (hpending : s.pending = [])
    (hfaults : ∀ o ∈ s.out, o.isFault = false) : (s.SaysOk → IsSetUp f s) ↔ fits := by
  cases h with
  | faulted o hmem hfault =>
    rw [hfaults o hmem] at hfault
    cases hfault
  | refused _ hok hfits => exact iff_of_true (fun hmem => absurd hmem hok) hfits
  | done _ hok hsetUp => rw [← hsetUp, imp_iff_right hok]
  | adding hp | sending i hp | routing i hp => simp [hpending] at hp

end SetStage

/-! ### Every command -/

theorem run_of_report (env : Env) {answers : List Event} (hcallbacks : ∀ e ∈ answers, e.isCallback) :
    ∀ {s : State}, s.pending = [.report] → (s.run env answers).pending = [] →
      ∃ status, (s.run env answers).out = .completed status :: s.out := by
  induction answers with
  | nil =>
    intro s hreport hdone
    have hnil : s.pending = [] := hdone
    rw [hreport] at hnil
    cases hnil
  | cons e answers ih =>
    intro s hreport hdone
    have he := hcallbacks e List.mem_cons_self
    have hrest : ∀ e' ∈ answers, e'.isCallback := fun e' he' =>
      hcallbacks e' (List.mem_cons_of_mem e he')
    by_cases hawaited : e.awaited = some .report
    · cases e <;> cases hawaited
      next status =>
      let u : State := { s with clock := s.clock + 1, pending := s.pending.erase .report }
      have hstep : s.step env (.reportSent status) = u.reportSendCompleted status :=
        if_pos (by simp [hreport])
      have hidle := run_of_idle env hrest (s := u.reportSendCompleted status)
        (by simp [u, reportSendCompleted, State.put, hreport])
      rw [← hstep] at hidle
      refine ⟨status, hidle.1.trans ?_⟩
      rw [hstep]
      rfl
    · have hstep := step_of_not_pending env he (s := s) (by simpa [hreport] using hawaited)
      have hreport' : (s.step env e).pending = [.report] := by
        rw [hstep]
        exact hreport
      obtain ⟨status, hout⟩ := ih hrest hreport' hdone
      refine ⟨status, hout.trans ?_⟩
      rw [hstep]

theorem get_spec (env : Env) (s : State) (f : Frame) :
    (∃ grouping index actualNodes dest, (s.handleIpAssociationGet env f).out =
        .reported grouping index actualNodes dest (env.sendZip s.nZip) ::
          ((if f.len.toNat < ipAssocGetFrameSize then [.completed transmitCompleteOk] else []) ++ .ack true :: s.out)) ∧
      (s.handleIpAssociationGet env f).pending = (if env.sendZip s.nZip then [.report] else []) ++ s.pending := by
  let u : State :=
    if f.len.toNat < ipAssocGetFrameSize then
      (s.sendZipAck transmitCompleteOk).reportSendCompleted transmitCompleteOk
    else s.sendZipAck transmitCompleteOk
  have hu : u.nZip = s.nZip ∧ u.pending = s.pending ∧
      u.out = (if f.len.toNat < ipAssocGetFrameSize then [.completed transmitCompleteOk] else []) ++
        .ack true :: s.out := by
    by_cases hshort : f.len.toNat < ipAssocGetFrameSize
    · simp [u, hshort, sendZipAck, reportSendCompleted, State.put]
    · simp [u, hshort, sendZipAck, State.put]
  obtain ⟨hzip, hpending, hout⟩ := hu
  have hget : ∃ grouping index actualNodes dest, s.handleIpAssociationGet env f =
      (let t := { u with nZip := u.nZip + 1 }.put (.reported grouping index actualNodes dest (env.sendZip u.nZip))
      if env.sendZip u.nZip then t.await .report else t) := ⟨_, _, _, _, rfl⟩
  obtain ⟨grouping, index, actualNodes, dest, hget⟩ := hget
  rw [hget, hzip, ← hout, ← hpending]
  cases env.sendZip s.nZip
  · exact ⟨⟨grouping, index, actualNodes, dest, rfl⟩, rfl⟩
  · exact ⟨⟨grouping, index, actualNodes, dest, rfl⟩, rfl⟩

theorem completedOnce_get_iff (hget : f.command = associationGet) (hidle : s.pending = [])
    {answers : List Event} (hcallbacks : ∀ e ∈ answers, e.isCallback)
    (hdone : (s.fresh.run env (.command f :: answers)).pending = []) :
    CompletedOnce f (s.fresh.run env (.command f :: answers)) ↔ env.sendZip s.nZip = !f.isShortGet := by
  have hshort : f.isShortGet = decide (f.len.toNat < ipAssocGetFrameSize) := by
    simp [Frame.isShortGet, hget]
  have hstep : s.fresh.step env (.command f) = (s.fresh.entered f).handleIpAssociationGet env f := by
    change State.handleIpAssociation _ _ _ = _
    simp [handleIpAssociation, hget, associationGet, associationSet, associationRemove, entered]
    rfl
  have hachieved (t : State) : Achieved f t := by
    constructor <;> intro hcommand <;> rw [hget] at hcommand <;> cases hcommand
  obtain ⟨⟨grouping, index, actualNodes, dest, hout⟩, hpending⟩ := get_spec env (s.fresh.entered f) f
  rw [← hstep] at hout hpending
  change _ = (if env.sendZip s.nZip then [.report] else []) ++ s.pending at hpending
  rw [hidle, List.append_nil] at hpending
  change _ = Out.reported grouping index actualNodes dest (env.sendZip s.nZip) :: (_ ++ [.ack true, .handled f]) at hout
  have hfinal : ∃ log : List Out, (s.fresh.run env (.command f :: answers)).out =
      log ++ (s.fresh.step env (.command f)).out ∧
        log.countP Out.isCompletion = (env.sendZip s.nZip).toNat ∧ log.countP Out.isAck = 0 := by
    cases hzip : env.sendZip s.nZip with
    | true =>
      rw [hzip] at hpending
      obtain ⟨status, hlog⟩ := run_of_report env hcallbacks hpending hdone
      exact ⟨[.completed status], hlog, rfl, rfl⟩
    | false =>
      rw [hzip] at hpending
      exact ⟨[], (run_of_idle env hcallbacks hpending).1, rfl, rfl⟩
  obtain ⟨log, hrun, hcompletions, hacks⟩ := hfinal
  have hcount : (s.fresh.run env (.command f :: answers)).out.countP Out.isCompletion =
      (env.sendZip s.nZip).toNat + f.isShortGet.toNat := by
    rw [hrun, hout, List.countP_append, hcompletions, hshort]
    by_cases hlen : f.len.toNat < ipAssocGetFrameSize
    · simp only [hlen, if_true, decide_true]
      rfl
    · simp only [hlen, if_false, decide_false]
      rfl
  have hackCount : (s.fresh.run env (.command f :: answers)).out.countP Out.isAck = 1 := by
    rw [hrun, hout, List.countP_append, hacks]
    split_ifs <;> rfl
  constructor
  · intro h
    have honce := h.once
    rw [hcount] at honce
    cases hzip : env.sendZip s.nZip <;> cases hs : f.isShortGet <;> simp_all
  · intro hzip
    refine ⟨?_, hackCount.le, fun _ => hachieved _⟩
    rw [hcount, hzip]
    cases f.isShortGet <;> rfl

theorem tally_command (env : Env) (hs : Creating s) (hget : f.command ≠ associationGet) :
    Tally 1 1 (s.entered f) (s.step env (.command f)) := by
  have hentered : Creating (s.entered f) := creating_congr hs rfl rfl rfl
  change Tally 1 1 (s.entered f) (State.handleIpAssociation _ _ _)
  unfold handleIpAssociation
  dsimp only
  split_ifs
  · exact (Tally.reportSendCompleted (s.entered f) _).weaken rfl (by decide)
  · exact Tally.handleIpAssociationSet env hentered f
  · exact Tally.handleIpAssociationRemove env (s.entered f) f
  · exact (Tally.reportSendCompleted (s.entered f) _).weaken rfl (by decide)

theorem RemoveStage.isRemoved_iff {more : Prop} {q : Selector} {base : State} (hq : q = f.selector)
    (h : RemoveStage more q base s) (hpending : s.pending = []) :
    (s.SaysOk → IsRemoved f s) ↔ (∀ o ∈ s.out, o.isFailedRemoval = false) ∧
        ∀ i ∈ base.markedList.drop base.marked, q.picks (base.mem i) = false := by
  subst hq
  cases h with
  | failed _ _ hpicked hok o hmem hfailed =>
    obtain ⟨i, hi, hpicks⟩ := hpicked
    refine iff_of_false (fun h => ?_) fun h => ?_
    · rw [h hok i hi] at hpicks
      cases hpicks
    · rw [h.1 o hmem] at hfailed
      cases hfailed
  | sending j i rest hj hi hp hm => simp [hpending] at hp
  | removing j hj hp hm => simp [hpending] at hp
  | done _ _ hok hr =>
    rw [imp_iff_right hok, and_iff_right hr.sent, ← hr.list, ← hr.contents]
    constructor
    · intro hremoved i hi
      exact hremoved i (List.mem_filter.mp hi).1
    · intro hnone i hi
      by_contra hpicks
      have hpicked : f.selector.picks (s.mem i) = true := by simpa using hpicks
      have hlisted : i ∈ s.markedList :=
        List.mem_filter.mpr ⟨hi, by simpa using hr.marks i hi hpicked⟩
      exact hpicks (hnone i hlisted)

section Honest

variable {answers : List Event} (hcallbacks : ∀ e ∈ answers, e.isCallback)

include hcallbacks

theorem honest_set_iff (hs : Creating s) (hidle : s.pending = []) (hok : ¬s.SaysOk)
    (hbackup : s.backup = f) (hset : f.command = associationSet)
    (hdone : ((s.handleIpAssociationSet env f).run env answers).pending = [])
    (hfaults : ∀ o ∈ ((s.handleIpAssociationSet env f).run env answers).out, o.isFault = false) :
    (((s.handleIpAssociationSet env f).run env answers).SaysOk →
        Achieved f ((s.handleIpAssociationSet env f).run env answers)) ↔ s.SetFits env f := by
  have hremove : f.command ≠ associationRemove := by simp [hset, associationSet, associationRemove]
  have hstage : SetStage (s.SetFits env f) f (s.handleIpAssociationSet env f) :=
    SetStage.handleIpAssociationSet hs hidle hok hbackup
  have hcreating := (Tally.handleIpAssociationSet env hs f).creating hs
  rw [← (hstage.run hcallbacks hcreating).honest_iff hdone hfaults]
  constructor
  · intro hhonest hmem
    exact (hhonest hmem).1 hset
  · intro hsetUp hmem
    exact ⟨fun _ => hsetUp hmem, fun hcommand => absurd hcommand hremove⟩

theorem honest_remove_iff (hidle : s.pending = [])
    (hsent : ∀ o ∈ s.out, o.isFailedRemoval = false) (hremove : f.command = associationRemove)
    (hmarked : s.marked = 0)
    (hdone : ((s.handleIpAssociationRemove env f).run env answers).pending = []) :
    (((s.handleIpAssociationRemove env f).run env answers).SaysOk →
        Achieved f ((s.handleIpAssociationRemove env f).run env answers)) ↔
      (∀ o ∈ ((s.handleIpAssociationRemove env f).run env answers).out, o.isFailedRemoval = false) ∧
        s.RemoveFits f := by
  let base := s.findAndMarkForRemoval f.selector
  have hset : f.command ≠ associationSet := by simp [hremove, associationSet, associationRemove]
  have hstage : RemoveStage False f.selector base (s.handleIpAssociationRemove env f) :=
    RemoveStage.handleIpAssociationRemove hidle hsent hmarked
  have hend : RemoveStage False f.selector base ((s.handleIpAssociationRemove env f).run env answers) :=
    hstage.run (marked_le_length f.selector s) hcallbacks
  have hfits : s.RemoveFits f ↔ ∀ i ∈ base.markedList.drop base.marked, f.selector.picks (base.mem i) = false := by
    simp only [base, picks_findAndMark]
    rfl
  rw [hfits, ← hend.isRemoved_iff rfl hdone]
  constructor
  · intro hhonest hmem
    exact (hhonest hmem).2 hremove
  · intro hremoved hmem
    exact ⟨fun hcommand => absurd hcommand hset, fun _ => hremoved hmem⟩

/-- An OK of a command without faults is true when the association that is used, or those that are
removed, are the ones of the command. -/
theorem honest_iff (hs : Creating s) (hget : f.command ≠ associationGet) (hidle : s.pending = [])
    (hdone : (s.fresh.run env (.command f :: answers)).pending = [])
    (hfaults : ∀ o ∈ (s.fresh.run env (.command f :: answers)).out, o.isFault = false) :
    ((s.fresh.run env (.command f :: answers)).SaysOk → Achieved f (s.fresh.run env (.command f :: answers))) ↔
      (f.firstQueue = false → f.command = associationSet → (s.entered f).SetFits env f) ∧
        (f.firstQueue = false → f.command = associationRemove → s.marked = 0 →
          (∀ o ∈ (s.fresh.run env (.command f :: answers)).out, o.isFailedRemoval = false) ∧ s.RemoveFits f) := by
  let u := s.fresh.entered f
  have hu : Creating u := creating_congr hs rfl rfl rfl
  have hok : ¬u.SaysOk := by simp [u, entered, fresh, SaysOk, Out.isOk]
  -- a command that is answered at once, and not with an OK
  have hrefused (t : State) (hstep : s.fresh.step env (.command f) = t) (hpending : t.pending = [])
      (hok : ¬t.SaysOk) : ¬(s.fresh.run env (.command f :: answers)).SaysOk := by
    rw [run_cons, hstep, SaysOk, (run_of_idle env hcallbacks hpending).1]
    exact hok
  cases hqueue : f.firstQueue with
  | true =>
    have hstep : s.fresh.step env (.command f) = u.reportSendCompleted transmitCompleteNoAck :=
      if_pos ⟨hqueue, hget⟩
    have hnone := hrefused _ hstep hidle (not_saysOk_put rfl hok)
    refine iff_of_true (fun hmem => absurd hmem hnone) ⟨?_, ?_⟩ <;> simp
  | false =>
    have hlater : ¬(f.firstQueue = true ∧ f.command ≠ associationGet) := by simp [hqueue]
    simp only [true_implies]
    by_cases hset : f.command = associationSet
    · have hremove : f.command ≠ associationRemove := by
        simp [hset, associationSet, associationRemove]
      have hstep : s.fresh.step env (.command f) = u.handleIpAssociationSet env f :=
        (if_neg hlater).trans (if_pos hset)
      rw [run_cons, hstep] at hdone hfaults ⊢
      have hbackup : u.backup = f := rfl
      rw [honest_set_iff hcallbacks hu hidle hok hbackup hset hdone hfaults]
      constructor
      · intro hfits
        exact ⟨fun _ => hfits, fun hcommand => absurd hcommand hremove⟩
      · rintro ⟨hfits, -⟩
        exact hfits hset
    · by_cases hremove : f.command = associationRemove
      · have hstep : s.fresh.step env (.command f) = u.handleIpAssociationRemove env f :=
          ((if_neg hlater).trans (if_neg hset)).trans (if_pos hremove)
        by_cases hmarked : s.marked = 0
        · rw [run_cons, hstep] at hdone ⊢
          have hsent : ∀ o ∈ u.out, o.isFailedRemoval = false := by
            simp [u, entered, fresh, Out.isFailedRemoval]
          rw [honest_remove_iff (s := u) hcallbacks hidle hsent hremove hmarked hdone]
          constructor
          · intro hfits
            exact ⟨fun hcommand => absurd hcommand hset, fun _ _ => hfits⟩
          · rintro ⟨-, hfits⟩
            exact hfits hremove hmarked
        · have hstep' : s.fresh.step env (.command f) = u.refuse := hstep.trans (if_pos hmarked)
          have hnone := hrefused _ hstep' (pending_refuse hidle) (not_saysOk_refuse hok)
          refine iff_of_true (fun hmem => absurd hmem hnone) ⟨?_, ?_⟩
          · exact fun hcommand => absurd hcommand hset
          · exact fun _ hzero => absurd hzero hmarked
      · have hstep : s.fresh.step env (.command f) = u.reportSendCompleted transmitCompleteOk :=
          (((if_neg hlater).trans (if_neg hset)).trans (if_neg hremove)).trans (if_neg hget)
        refine iff_of_true (fun _ => ⟨?_, ?_⟩) ⟨?_, ?_⟩
        all_goals
          intro hcommand
          first
          | exact absurd hcommand hset
          | exact absurd hcommand hremove

end Honest

/-- A command is completed once, with at most one acknowledgement, and an OK is true: this is so when
nothing goes wrong on the way, and only then. -/
theorem completedOnce_iff (env : Env) (before : List Event) (f : Frame) {answers : List Event}
    (hidle : (init.run env before).pending = []) (hcallbacks : ∀ e ∈ answers, e.isCallback)
    (hdone : ((init.run env before).fresh.run env (.command f :: answers)).pending = []) :
    CompletedOnce f ((init.run env before).fresh.run env (.command f :: answers)) ↔ Smooth env (init.run env before) f
        ((init.run env before).fresh.run env (.command f :: answers)) := by
  have hs : Creating (init.run env before) := creating_run env before
  generalize init.run env before = s at *
  unfold Smooth
  split_ifs with hget
  · exact completedOnce_get_iff hget hidle hcallbacks hdone
  · have hfresh : Creating s.fresh := creating_congr hs rfl rfl rfl
    have hcommand := tally_command env hfresh hget
    have hentered : Creating (s.fresh.entered f) := creating_congr hs rfl rfl rfl
    have hall := hcommand.trans (tally_callbacks env hcallbacks (hcommand.creating hentered))
    obtain ⟨hcompletions, hacks⟩ := completions_of_operation hall hidle rfl rfl
      (by simp [Out.isFault, Frame.isShortGet, hget])
    rw [← run_cons] at hcompletions hacks
    simp only [hdone, List.length_nil, List.map_nil, List.sum_nil] at hcompletions hacks
    have hfaults : (s.fresh.run env (.command f :: answers)).out.countP Out.isFault = 0 ↔
        ∀ o ∈ (s.fresh.run env (.command f :: answers)).out, o.isFault = false := by
      simp [List.countP_eq_zero]
    constructor
    · intro h
      have hnone := hfaults.mp (by have honce := h.once; omega)
      exact ⟨hnone, (honest_iff hcallbacks hs hget hidle hdone hnone).mp h.honest⟩
    · rintro ⟨hnone, hfits⟩
      have hzero := hfaults.mpr hnone
      refine ⟨by omega, by omega, ?_⟩
      exact (honest_iff hcallbacks hs hget hidle hdone hnone).mpr hfits

theorem completedOnce_setFiveSix : CompletedOnce setFiveSix (init.fresh.run twoNodes
      [.command setFiveSix, .associationSent 0 transmitCompleteOk, .routeAssigned transmitCompleteOk]) := by
  refine (completedOnce_iff twoNodes [] setFiveSix rfl (by decide) ?_).mpr ⟨?_, ?_, ?_⟩
  · decide
  · decide
  · intro _ _ type i hpath
    have hlocal : setPath twoNodes (init.entered setFiveSix) setFiveSix = .localAssoc := by
      decide
    exact absurd (hlocal.symm.trans hpath) (by simp)
  · intro _ hremove
    exact absurd hremove (by decide)

/-- The return route fails, and the association that was set up is removed: the removal acknowledges
and completes before the set-up does. -/
theorem setFiveSix_completed_twice :
    let s := init.fresh.run twoNodes [.command setFiveSix, .associationSent 0 transmitCompleteOk,
        .routeAssigned transmitCompleteFail]
    s.pending = [] ∧ s.out.countP Out.isCompletion = 2 ∧ s.out.countP Out.isAck = 2 ∧ ¬CompletedOnce setFiveSix s := by
  intro s
  have htwice : s.out.countP Out.isCompletion = 2 := by decide
  refine ⟨by decide, htwice, by decide, ?_⟩
  intro h
  have honce := h.once
  omega

end State

end ZipGateway.IpAssoc

import ZipGateway.Directory.Interview

/-!
# The version probe of one endpoint

`rd_ep_probe_cc_version` asks an endpoint for the versions of the classes that the gateway controls, one after
the other, and then calls back. What becomes of a request is given from outside. A request that is refused marks
the node, but no event is posted for it, so that the probe waits for an answer that does not come.
-/

namespace ZipGateway.Directory

/-! ### Versions of command classes -/

variable {ev : PcvEvent} {s : Pcvs}

theorem length_ccVersionSetIn (cls : UInt16) (version : UInt8) (bytes : Bytes) :
    (ccVersionSetIn cls version bytes).length = bytes.length := by
  fun_induction ccVersionSetIn cls version bytes with
  | case1 => rfl
  | case2 lo hi v fill rest hne ih => simp [ih]
  | case3 => rfl

theorem val_ccVersionSetIn (cls : UInt16) (version : UInt8) (b : Blob) :
    (Blob.ofBytes (ccVersionSetIn cls version b.val)).val = ccVersionSetIn cls version b.val := by
  have hlt := b.property
  rw [← length_ccVersionSetIn cls version] at hlt
  exact congrArg Subtype.val (Blob.ofBytes_val ⟨_, hlt⟩)

def ccVersionListed (cls : UInt16) : Bytes → Bool
  | lo :: hi :: _ :: _ :: rest => hi.toUInt16 * 256 + lo.toUInt16 = cls || ccVersionListed cls rest
  | _ => false

theorem ccVersionGetFrom_setIn (c cls : UInt16) (version : UInt8) (bytes : Bytes) :
    ccVersionGetFrom c (ccVersionSetIn cls version bytes) =
      if c = cls ∧ ccVersionListed c bytes = true then version else ccVersionGetFrom c bytes := by
  fun_induction ccVersionSetIn cls version bytes with
  | case1 lo hi v fill rest heq =>
    subst heq
    by_cases hc : c = hi.toUInt16 * 256 + lo.toUInt16
    · simp [ccVersionGetFrom, ccVersionListed, hc]
    · simp [ccVersionGetFrom, hc, Ne.symm hc]
  | case2 lo hi v fill rest hne ih =>
    by_cases hc : hi.toUInt16 * 256 + lo.toUInt16 = c
    · have hcls : c ≠ cls := fun h => hne (hc.trans h)
      simp [ccVersionGetFrom, hc, hcls]
    · simp [ccVersionGetFrom, ccVersionListed, hc, ih]
  | case3 bytes hshort =>
    rcases bytes with _ | ⟨lo, _ | ⟨hi, _ | ⟨v, _ | ⟨fill, rest⟩⟩⟩⟩
    · simp [ccVersionListed]
    · simp [ccVersionListed]
    · simp [ccVersionListed]
    · simp [ccVersionListed]
    · exact absurd rfl (hshort lo hi v fill rest)

theorem ccVersionListed_setIn (c cls : UInt16) (version : UInt8) (bytes : Bytes) :
    ccVersionListed c (ccVersionSetIn cls version bytes) = ccVersionListed c bytes := by
  fun_induction ccVersionSetIn cls version bytes with
  | case1 => rfl
  | case2 lo hi v fill rest hne ih => simp [ccVersionListed, ih]
  | case3 => rfl

namespace VersionProbe

inductive Outcome where
  | refused
  | timedOut
  | answered (cmd : Bytes)
deriving DecidableEq, Repr

structure Probe where
  node : NodeHeader
  ep : EpEntry
  pcvs : Pcvs
  requestedCommandClass : UInt8
  posted : Option PcvEvent
  called : List UInt8

namespace Probe

variable (d : Probe)

def post (s : Pcvs) (ev : PcvEvent) : Probe :=
  { d with pcvs := s, posted := some ev }

def failed : Probe :=
  { d with node := { d.node with probeFlags := rdNodeFlagProbeFailed } }

def ccVersionCallback (frame : Option Bytes) : Probe :=
  let next : Pcvs := ⟨d.pcvs.probeCcIdx + 1, .lastReport⟩
  match frame with
  | some cmd =>
    if cmd.getD 2 0 = d.requestedCommandClass ∧ 1 ≤ cmd.getD 3 0 then
      { d with node := d.node.setCcVersion d.requestedCommandClass.toUInt16 (cmd.getD 3 0) }.post next
        .versionCcReportRecv
    else d.failed.post next .versionCcCallbackFail
  | none => d.failed.post next .versionCcCallbackFail

def versionCapabilitiesCallback : Option Bytes → Probe
  | some cmd => { d with node := { d.node with versionCapAndZwaveSw := cmd.getD 2 0 } }.post
      { d.pcvs with state := .sendVersionZwsGet } .versionCapReportRecv
  | none => d.failed.post { d.pcvs with state := .versionProbeDone } .versionCapCallbackFail

def versionZwaveSoftwareCallback : Option Bytes → Probe
  | some _ => { d with node := { d.node with isZwsProbed := 1 } }.post
      { d.pcvs with state := .versionProbeDone } .versionZwsReportRecv
  | none => d.post { d.pcvs with state := .versionProbeDone } .versionZwsCallbackFail

def request (o : Outcome) (callback : Option Bytes → Probe) : Probe :=
  match o with
  | .refused => d.failed
  | .timedOut => callback none
  | .answered cmd => callback (some cmd)

def cls : UInt16 :=
  controlledCcV.getD d.pcvs.probeCcIdx 0xFFFF

def supports (c : UInt16) : Bool :=
  State.epClassSupport d.node d.ep c &&& State.supported ≠ 0

def wantsZws : Bool :=
  d.node.versionCapAndZwaveSw &&& 0x01 ≠ 0 ∧ d.node.versionCapAndZwaveSw &&& 0x02 ≠ 0 ∧
    d.node.versionCapAndZwaveSw &&& 0x04 ≠ 0

def pcvState (o : Outcome) : Probe :=
  match d.pcvs.state with
  | .idle => d.post ⟨0, .sendVersionCcGet⟩ .start
  | .sendVersionCcGet =>
    if d.supports d.cls then
      if d.node.ccVersion d.cls = 0 then
        let d := { d with requestedCommandClass := d.cls.toUInt8 }
        d.request o d.ccVersionCallback
      else d.post ⟨d.pcvs.probeCcIdx + 1, .lastReport⟩ .ccProbed
    else d.post ⟨d.pcvs.probeCcIdx + 1, .lastReport⟩ .ccNotSupport
  | .lastReport =>
    if d.cls ≠ 0xFFFF then d.post { d.pcvs with state := .sendVersionCcGet } .notLast
    else d.post { d.pcvs with state := .checkIfV3 } .versionCcDone
  | .checkIfV3 =>
    if d.node.ccVersion 0x86 = 3 then d.post { d.pcvs with state := .sendVersionCapGet } .isV3
    else d.post { d.pcvs with state := .versionProbeDone } .notV3
  | .sendVersionCapGet =>
    if d.node.versionCapAndZwaveSw = 0 then d.request o d.versionCapabilitiesCallback
    else d.post { d.pcvs with state := .sendVersionZwsGet } .capProbed
  | .sendVersionZwsGet =>
    if d.wantsZws then
      if d.node.isZwsProbed = 0 then d.request o d.versionZwaveSoftwareCallback
      else d.post { d.pcvs with state := .versionProbeDone } .zwsProbed
    else d.post { d.pcvs with state := .versionProbeDone } .zwsNotSupport
  | .versionProbeDone =>
    if d.node.probeFlags = rdNodeFlagProbeFailed then { d with called := d.called ++ [1] }
    else { d with
      node := { d.node with probeFlags := rdNodeFlagProbeHasCompleted }
      called := d.called ++ [0] }

/-- `pcv_fsm_post_event` with the event that is posted, and the request it makes. -/
def step (o : Outcome) : Probe :=
  match d.posted with
  | none => d
  | some ev => if State.handles d.pcvs.state ev then { d with posted := none }.pcvState o
      else { d with posted := none }

/-- The event that is posted makes a request. -/
def Sends : Prop :=
  d.posted.any (State.handles d.pcvs.state) = true ∧
    match d.pcvs.state with
    | .sendVersionCcGet => d.supports d.cls = true ∧ d.node.ccVersion d.cls = 0
    | .sendVersionCapGet => d.node.versionCapAndZwaveSw = 0
    | .sendVersionZwsGet => d.wantsZws = true ∧ d.node.isZwsProbed = 0
    | _ => False

end Probe

def probeCcVersion (myNodeId : NodeId) (node : NodeHeader) (ep : EpEntry) (pcvs : Option Pcvs)
    (requested : UInt8) : Probe :=
  if node.nodeid = myNodeId then ⟨node, ep, pcvs.getD ⟨0, .idle⟩, requested, none, [0]⟩
  else ⟨{ node with probeFlags := rdNodeFlagProbeStarted }, ep, { pcvs.getD ⟨0, .idle⟩ with state := .idle },
    requested, some .initial, []⟩

def run (os : Nat → Outcome) (d : Probe) : Nat → Probe
  | 0 => d
  | k + 1 => (run os d k).step (os k)

def Probe.Recorded (d : Probe) (n : Nat) : Prop :=
  ∀ i < n, d.supports (controlledCcV.getD i 0xFFFF) = true → d.node.ccVersion (controlledCcV.getD i 0xFFFF) ≠ 0

def Probe.Listed (d : Probe) : Prop :=
  ∀ i < 7, d.supports (controlledCcV.getD i 0xFFFF) = true →
    ccVersionListed (controlledCcV.getD i 0xFFFF) d.node.ccVersions.val = true

/-- There is exactly one call in the end, the index does not pass the mark, and the status is not 0 before the
versions of all the classes are recorded. -/
def Completes (os : Nat → Outcome) (d : Probe) : Prop :=
  (∃ status k, ∀ j, k ≤ j → (run os d j).called = [status]) ∧
  (∀ k, (run os d k).pcvs.state = .idle ∨ (run os d k).pcvs.probeCcIdx ≤ 7) ∧
  ∀ k, 0 ∈ (run os d k).called → (run os d k).Recorded 7

/-! ### One step -/

section Steps

variable {d : Probe} {o : Outcome} {os : Nat → Outcome}

theorem supports_setCcVersion (cls c : UInt16) (v : UInt8) :
    ({ d with node := d.node.setCcVersion cls v } : Probe).supports c = d.supports c := by
  unfold Probe.supports NodeHeader.setCcVersion
  split <;> rfl

theorem ccVersion_setCcVersion {c cls : UInt16} {v : UInt8} (h : d.supports c = true) :
    (d.node.setCcVersion cls v).ccVersion c =
      if c = cls ∧ ccVersionListed c d.node.ccVersions.val = true then v else d.node.ccVersion c := by
  have hmode : ¬d.node.mode &&& modeFlagsDeleted ≠ 0 := by
    intro hdeleted
    unfold Probe.supports State.epClassSupport at h
    rw [if_pos hdeleted] at h
    exact absurd h (by decide)
  have hset : d.node.setCcVersion cls v =
      { d.node with ccVersions := .ofBytes (ccVersionSetIn cls v d.node.ccVersions.val) } := if_neg hmode
  rw [hset]
  unfold NodeHeader.ccVersion
  rw [if_neg hmode, if_neg hmode, val_ccVersionSetIn, ccVersionGetFrom_setIn]

theorem listed_setCcVersion (h : d.Listed) (cls : UInt16) (v : UInt8) :
    ({ d with node := d.node.setCcVersion cls v } : Probe).Listed := by
  intro i hi hsupports
  rw [supports_setCcVersion] at hsupports
  have hlisted := h i hi hsupports
  change ccVersionListed _ (d.node.setCcVersion cls v).ccVersions.val = true
  unfold NodeHeader.setCcVersion
  split
  · exact hlisted
  · rw [val_ccVersionSetIn, ccVersionListed_setIn]
    exact hlisted

/-- Where the index stands in each state. -/
def Placed : Pcvs → Prop
  | ⟨_, .idle⟩ => True
  | ⟨i, .sendVersionCcGet⟩ => i < 7
  | ⟨i, .lastReport⟩ => i ≤ 7
  | ⟨i, _⟩ => i = 7

theorem Placed.idle_or_le (h : Placed s) : s.state = .idle ∨ s.probeCcIdx ≤ 7 := by
  obtain ⟨i, state⟩ := s
  cases state
  case idle => exact .inl rfl
  case sendVersionCcGet => exact .inr (Nat.le_of_lt h)
  case lastReport => exact .inr h
  all_goals exact .inr (Nat.le_of_eq h)

structure Probing (d : Probe) (ev : PcvEvent) : Prop where
  posted : d.posted = some ev
  handled : State.handles d.pcvs.state ev = true
  called : d.called = []
  placed : Placed d.pcvs
  listed : d.Listed
  recorded : d.pcvs.state = .idle ∨ d.node.probeFlags = rdNodeFlagProbeFailed ∨ d.Recorded d.pcvs.probeCcIdx

def left : Pcvs → Nat
  | ⟨_, .idle⟩ => 30
  | ⟨i, .sendVersionCcGet⟩ => 2 * (7 - i) + 5
  | ⟨i, .lastReport⟩ => 2 * (7 - i) + 6
  | ⟨_, .checkIfV3⟩ => 4
  | ⟨_, .sendVersionCapGet⟩ => 3
  | ⟨_, .sendVersionZwsGet⟩ => 2
  | ⟨_, .versionProbeDone⟩ => 1

def GoesOn (s : Pcvs) (d' : Probe) : Prop :=
  (∃ ev, Probing d' ev) ∧ left d'.pcvs < left s

structure Done (d : Probe) (status : UInt8) : Prop where
  posted : d.posted = none
  called : d.called = [status]
  placed : d.pcvs.state = .idle ∨ d.pcvs.probeCcIdx ≤ 7
  recorded : status = 0 → d.Recorded 7

structure Stuck (d : Probe) : Prop where
  posted : d.posted = none
  called : d.called = []
  placed : d.pcvs.state = .idle ∨ d.pcvs.probeCcIdx ≤ 7

theorem probing_failed (hcalled : d.called = []) (hlisted : d.Listed) (hplaced : Placed s)
    (hhandled : State.handles s.state ev = true) : Probing (d.failed.post s ev) ev :=
  ⟨rfl, hhandled, hcalled, hplaced, hlisted, .inr (.inl rfl)⟩

theorem controlled_lt_seven : ∀ i < 7, controlledCcV.getD i 0xFFFF ≠ 0xFFFF ∧
    (controlledCcV.getD i 0xFFFF).toUInt8.toUInt16 = controlledCcV.getD i 0xFFFF := by decide

theorem Probe.Recorded.succ {n : Nat} (h : d.Recorded n) (hn : d.supports (controlledCcV.getD n 0xFFFF) = true →
    d.node.ccVersion (controlledCcV.getD n 0xFFFF) ≠ 0) : d.Recorded (n + 1) := by
  intro i hi
  rcases Nat.lt_succ_iff_lt_or_eq.mp hi with hlt | rfl
  · exact h i hlt
  · exact hn

theorem recorded_setCcVersion {i : Nat} {v : UInt8} (hi : i < 7) (hv : v ≠ 0)
    (hlisted : d.Listed) (hrecorded : d.Recorded i) :
    ({ d with node := d.node.setCcVersion (controlledCcV.getD i 0xFFFF) v } : Probe).Recorded (i + 1) := by
  have hclass : ∀ j ≤ i, d.supports (controlledCcV.getD j 0xFFFF) = true →
      (controlledCcV.getD j 0xFFFF = controlledCcV.getD i 0xFFFF ∨ d.node.ccVersion (controlledCcV.getD j 0xFFFF) ≠ 0) →
      (d.node.setCcVersion (controlledCcV.getD i 0xFFFF) v).ccVersion (controlledCcV.getD j 0xFFFF) ≠ 0 := by
    intro j hj hsupports hor
    rw [ccVersion_setCcVersion hsupports]
    split
    · exact hv
    · rename_i hother
      exact hor.resolve_left fun heq => hother ⟨heq, hlisted j (by omega) hsupports⟩
  apply Probe.Recorded.succ
  · intro j hj hsupports
    rw [supports_setCcVersion] at hsupports
    exact hclass j (by omega) hsupports (.inr (hrecorded j hj hsupports))
  · intro hsupports
    rw [supports_setCcVersion] at hsupports
    exact hclass i (Nat.le_refl i) hsupports (.inl rfl)

theorem goesOn_ccVersion (h : Probing d ev) {i : Nat} (hstate : d.pcvs = ⟨i, .sendVersionCcGet⟩)
    (frame : Option Bytes) :
    GoesOn d.pcvs ({ d with posted := none, requestedCommandClass := d.cls.toUInt8 }.ccVersionCallback frame) := by
  have hi : i < 7 := by
    have hplaced := h.placed
    rwa [hstate] at hplaced
  have hcls : d.cls = controlledCcV.getD i 0xFFFF := by rw [Probe.cls, hstate]
  have hfewer : left ⟨i + 1, .lastReport⟩ < left ⟨i, .sendVersionCcGet⟩ := by
    change 2 * (7 - (i + 1)) + 6 < 2 * (7 - i) + 5
    omega
  have hfailed : GoesOn d.pcvs ({ d with posted := none, requestedCommandClass := d.cls.toUInt8 }.failed.post
      ⟨i + 1, .lastReport⟩ .versionCcCallbackFail) := by
    refine ⟨⟨_, probing_failed h.called h.listed (by exact hi) rfl⟩, ?_⟩
    rw [hstate]
    exact hfewer
  unfold Probe.ccVersionCallback
  rw [hstate] at hfailed ⊢
  cases frame with
  | none => exact hfailed
  | some cmd =>
    dsimp only
    split
    · rename_i hmatch
      refine ⟨⟨_, rfl, rfl, h.called, by exact hi, ?_, ?_⟩, hfewer⟩
      · exact listed_setCcVersion h.listed _ _
      · rcases h.recorded with hidle | hmark | hrecorded
        · rw [hstate] at hidle
          cases hidle
        · refine .inr (.inl ?_)
          change (NodeHeader.setCcVersion d.node _ _).probeFlags = _
          unfold NodeHeader.setCcVersion
          split <;> exact hmark
        · rw [hstate] at hrecorded
          have hv : cmd.getD 3 0 ≠ 0 := by
            intro hzero
            rw [hzero] at hmatch
            exact absurd hmatch.2 (by decide)
          have := recorded_setCcVersion hi hv h.listed hrecorded
          refine .inr (.inr ?_)
          rw [hcls, (controlled_lt_seven i hi).2]
          exact this
    · exact hfailed

theorem goesOn_post (h : Probing d ev) (ev' : PcvEvent) (hplaced : Placed s)
    (hhandled : State.handles s.state ev' = true) (hleft : left s < left d.pcvs)
    (hrecorded : d.node.probeFlags = rdNodeFlagProbeFailed ∨ d.Recorded s.probeCcIdx) :
    GoesOn d.pcvs ({ d with posted := none }.post s ev') :=
  ⟨⟨ev', rfl, hhandled, h.called, hplaced, h.listed, .inr hrecorded⟩, hleft⟩

theorem request_cases {d₀ : Probe} {callback : Option Bytes → Probe} (hposted : d₀.posted = none)
    (hcalled : d₀.called = []) (hplaced : d₀.pcvs.state = .idle ∨ d₀.pcvs.probeCcIdx ≤ 7)
    (hgoes : ∀ frame, GoesOn s (callback frame)) :
    o = .refused ∧ Stuck (d₀.request o callback) ∨ o ≠ .refused ∧ GoesOn s (d₀.request o callback) := by
  cases o with
  | refused => exact .inl ⟨rfl, hposted, hcalled, hplaced⟩
  | timedOut => exact .inr ⟨Outcome.noConfusion, hgoes none⟩
  | answered cmd => exact .inr ⟨Outcome.noConfusion, hgoes (some cmd)⟩

theorem sends_iff (h : Probing d ev) : d.Sends ↔ match d.pcvs.state with
    | .sendVersionCcGet => d.supports d.cls = true ∧ d.node.ccVersion d.cls = 0
    | .sendVersionCapGet => d.node.versionCapAndZwaveSw = 0
    | .sendVersionZwsGet => d.wantsZws = true ∧ d.node.isZwsProbed = 0
    | _ => False := by
  unfold Probe.Sends
  rw [h.posted]
  exact and_iff_right h.handled

theorem step_probing (h : Probing d ev) (o : Outcome) : (d.Sends ∧ o = .refused) ∧ Stuck (d.step o) ∨
      ¬(d.Sends ∧ o = .refused) ∧ (GoesOn d.pcvs (d.step o) ∨ ∃ status, Done (d.step o) status) := by
  have hstep : d.step o = { d with posted := none }.pcvState o := by
    unfold Probe.step
    rw [h.posted]
    exact if_pos h.handled
  have hle := h.placed.idle_or_le
  have hplaced := h.placed
  have hrecorded := h.recorded
  have hgoes {d' : Probe} (hquiet : ¬d.Sends) (hgoes : GoesOn d.pcvs d') : (d.Sends ∧ o = .refused) ∧ Stuck d' ∨
        ¬(d.Sends ∧ o = .refused) ∧ (GoesOn d.pcvs d' ∨ ∃ status, Done d' status) :=
    .inr ⟨fun hsends => hquiet hsends.1, .inl hgoes⟩
  have hrequest {d₀ : Probe} {callback : Option Bytes → Probe} (hsends : d.Sends)
      (hposted : d₀.posted = none) (hcalled : d₀.called = []) (hpcvs : d₀.pcvs = d.pcvs)
      (hback : ∀ frame, GoesOn d.pcvs (callback frame)) :
      (d.Sends ∧ o = .refused) ∧ Stuck (d₀.request o callback) ∨ ¬(d.Sends ∧ o = .refused) ∧
        (GoesOn d.pcvs (d₀.request o callback) ∨ ∃ status, Done (d₀.request o callback) status) := by
    rcases request_cases (o := o) hposted hcalled (hpcvs ▸ hle) hback with ⟨ho, hstuck⟩ | ⟨ho, hgoes⟩
    · exact .inl ⟨⟨hsends, ho⟩, hstuck⟩
    · exact .inr ⟨fun hrefused => ho hrefused.2, .inl hgoes⟩
  have hsends := sends_iff h
  rw [hstep]
  unfold Probe.pcvState
  obtain ⟨node, ep, ⟨i, state⟩, requested, posted, called⟩ := d
  have hcalled : called = [] := h.called
  have hpassed (hidle : state ≠ .idle) : node.probeFlags = rdNodeFlagProbeFailed ∨
      (⟨node, ep, ⟨i, state⟩, requested, posted, called⟩ : Probe).Recorded i := hrecorded.resolve_left hidle
  cases state
  case idle =>
    exact hgoes hsends.mp (goesOn_post h _ (show 0 < 7 by decide) rfl (show 19 < 30 by decide) (.inr fun _ hi => absurd hi (Nat.not_lt_zero _)))
  case sendVersionCcGet =>
    have hi : i < 7 := hplaced
    have hfewer : left ⟨i + 1, .lastReport⟩ < left ⟨i, .sendVersionCcGet⟩ := by
      change 2 * (7 - (i + 1)) + 6 < 2 * (7 - i) + 5
      omega
    dsimp only
    split
    · rename_i hsupports
      split
      · rename_i hzero
        exact hrequest (hsends.mpr ⟨hsupports, hzero⟩) rfl hcalled rfl (goesOn_ccVersion h rfl)
      · rename_i hnonzero
        refine hgoes (fun hs => hnonzero (hsends.mp hs).2) (goesOn_post h _ hi rfl hfewer ?_)
        exact (hpassed PcvState.noConfusion).imp_right fun hr => hr.succ fun _ => hnonzero
    · rename_i hsupports
      refine hgoes (fun hs => hsupports (hsends.mp hs).1) (goesOn_post h _ hi rfl hfewer ?_)
      exact (hpassed PcvState.noConfusion).imp_right fun hr => hr.succ fun hs => absurd hs hsupports
  case lastReport =>
    have hi : i ≤ 7 := hplaced
    dsimp only
    split
    · rename_i hmark
      have hlt : i < 7 := by
        refine Nat.lt_of_le_of_ne hi ?_
        rintro rfl
        exact hmark rfl
      exact hgoes hsends.mp (goesOn_post h _ hlt rfl (Nat.lt_succ_self _) (hpassed PcvState.noConfusion))
    · rename_i hmark
      have heq : i = 7 := by
        refine Nat.le_antisymm hi (Nat.le_of_not_lt fun hlt => ?_)
        exact hmark (controlled_lt_seven i hlt).1
      refine hgoes hsends.mp (goesOn_post h _ heq rfl ?_ (hpassed PcvState.noConfusion))
      change 4 < 2 * (7 - i) + 6
      omega
  case checkIfV3 =>
    dsimp only
    split
    · exact hgoes hsends.mp (goesOn_post h _ hplaced rfl (show 3 < 4 by decide) (hpassed PcvState.noConfusion))
    · exact hgoes hsends.mp (goesOn_post h _ hplaced rfl (show 1 < 4 by decide) (hpassed PcvState.noConfusion))
  case sendVersionCapGet =>
    dsimp only
    split
    · rename_i hzero
      refine hrequest (hsends.mpr hzero) rfl hcalled rfl fun frame => ?_
      cases frame with
      | none => exact ⟨⟨_, probing_failed hcalled h.listed hplaced rfl⟩, show 1 < 3 by decide⟩
      | some cmd => exact ⟨⟨_, rfl, rfl, hcalled, hplaced, h.listed, .inr (hpassed PcvState.noConfusion)⟩, show 2 < 3 by decide⟩
    · rename_i hnonzero
      exact hgoes (fun hs => hnonzero (hsends.mp hs))
        (goesOn_post h _ hplaced rfl (show 2 < 3 by decide) (hpassed PcvState.noConfusion))
  case sendVersionZwsGet =>
    dsimp only
    split
    · rename_i hwants
      split
      · rename_i hzero
        refine hrequest (hsends.mpr ⟨hwants, hzero⟩) rfl hcalled rfl fun frame => ?_
        cases frame with
        | none => exact goesOn_post h _ hplaced rfl (show 1 < 2 by decide) (hpassed PcvState.noConfusion)
        | some cmd =>
          exact ⟨⟨_, rfl, rfl, hcalled, hplaced, h.listed, .inr (hpassed PcvState.noConfusion)⟩, show 1 < 2 by decide⟩
      · rename_i hnonzero
        exact hgoes (fun hs => hnonzero (hsends.mp hs).2)
          (goesOn_post h _ hplaced rfl (show 1 < 2 by decide) (hpassed PcvState.noConfusion))
    · rename_i hwants
      exact hgoes (fun hs => hwants (hsends.mp hs).1)
        (goesOn_post h _ hplaced rfl (show 1 < 2 by decide) (hpassed PcvState.noConfusion))
  case versionProbeDone =>
    refine .inr ⟨fun hs => hsends.mp hs.1, .inr ?_⟩
    have hi : i = 7 := hplaced
    dsimp only
    split
    · exact ⟨1, rfl, by rw [hcalled]; rfl, .inr (Nat.le_of_eq hi), fun h => absurd h (by decide)⟩
    · rename_i hmark
      have hall := (hpassed PcvState.noConfusion).resolve_left hmark
      rw [hi] at hall
      exact ⟨0, rfl, by rw [hcalled]; rfl, .inr (Nat.le_of_eq hi), fun _ => hall⟩

end Steps

/-! ### Whole runs -/

section Runs

variable {d : Probe} (os : Nat → Outcome)

theorem run_add_of_posted {k : Nat} (h : (run os d k).posted = none) (n : Nat) : run os d (k + n) = run os d k := by
  induction n with
  | zero => rfl
  | succ n ih =>
    change (run os d (k + n)).step (os (k + n)) = run os d k
    rw [ih]
    unfold Probe.step
    rw [h]

def RefusedBefore (d : Probe) (k : Nat) : Prop :=
  ∃ j < k, (run os d j).Sends ∧ os j = .refused

theorem not_sends_of_posted {d : Probe} (h : d.posted = none) : ¬d.Sends := by
  intro hsends
  rw [Probe.Sends, h] at hsends
  exact Bool.false_ne_true hsends.1

theorem run_cases (h : ∃ ev, Probing d ev) (k : Nat) :
    ¬RefusedBefore os d k ∧ (∃ ev, Probing (run os d k) ev) ∧ left (run os d k).pcvs + k ≤ left d.pcvs ∨
      ¬RefusedBefore os d k ∧ (∃ status, Done (run os d k) status) ∨ RefusedBefore os d k ∧ Stuck (run os d k) := by
  induction k with
  | zero => exact .inl ⟨fun ⟨_, hj, _⟩ => absurd hj (Nat.not_lt_zero _), h, Nat.le_refl _⟩
  | succ k ih =>
    have hbefore : RefusedBefore os d (k + 1) ↔ RefusedBefore os d k ∨ (run os d k).Sends ∧ os k = .refused := by
      constructor
      · rintro ⟨j, hj, hrefused⟩
        rcases Nat.lt_succ_iff_lt_or_eq.mp hj with hlt | rfl
        · exact .inl ⟨j, hlt, hrefused⟩
        · exact .inr hrefused
      · rintro (⟨j, hj, hrefused⟩ | hrefused)
        · exact ⟨j, Nat.lt_succ_of_lt hj, hrefused⟩
        · exact ⟨k, Nat.lt_succ_self k, hrefused⟩
    rw [hbefore]
    rcases ih with ⟨hno, ⟨ev, hprobing⟩, hleft⟩ | ⟨hno, status, hdone⟩ | ⟨hyes, hstuck⟩
    · rcases step_probing hprobing (os k) with ⟨hrefused, hstuck⟩ | ⟨hquiet, ⟨hgoes, hless⟩ | hdone⟩
      · exact .inr (.inr ⟨.inr hrefused, hstuck⟩)
      · refine .inl ⟨not_or.mpr ⟨hno, hquiet⟩, hgoes, ?_⟩
        change left ((run os d k).step (os k)).pcvs + (k + 1) ≤ left d.pcvs
        omega
      · exact .inr (.inl ⟨not_or.mpr ⟨hno, hquiet⟩, hdone⟩)
    · rw [run_add_of_posted os hdone.posted 1]
      exact .inr (.inl ⟨not_or.mpr ⟨hno, fun hs => not_sends_of_posted hdone.posted hs.1⟩, status, hdone⟩)
    · rw [run_add_of_posted os hstuck.posted 1]
      exact .inr (.inr ⟨.inl hyes, hstuck⟩)

theorem completes_of_probing (h : ∃ ev, Probing d ev) : Completes os d ↔ ∀ k, (run os d k).Sends → os k ≠ .refused := by
  constructor
  · rintro ⟨⟨status, k, hcalled⟩, -⟩ j hsends hrefused
    rcases run_cases os h (k + j + 1) with hprobing | hdone | ⟨-, hstuck⟩
    · exact hprobing.1 ⟨j, by omega, hsends, hrefused⟩
    · exact hdone.1 ⟨j, by omega, hsends, hrefused⟩
    · have hnone := hcalled (k + j + 1) (by omega)
      rw [hstuck.called] at hnone
      cases hnone
  · intro hnone
    have hcases (k : Nat) : (∃ ev, Probing (run os d k) ev) ∧ left (run os d k).pcvs + k ≤ left d.pcvs ∨
        ∃ status, Done (run os d k) status := by
      rcases run_cases os h k with hprobing | hdone | ⟨⟨j, -, hsends, hrefused⟩, -⟩
      · exact .inl hprobing.2
      · exact .inr hdone.2
      · exact absurd hrefused (hnone j hsends)
    refine ⟨?_, fun k => ?_, fun k hzero => ?_⟩
    · obtain ⟨status, hdone⟩ := (hcases (left d.pcvs + 1)).resolve_left fun hprobing => by omega
      refine ⟨status, left d.pcvs + 1, fun j hj => ?_⟩
      rw [← Nat.add_sub_of_le hj, run_add_of_posted os hdone.posted]
      exact hdone.called
    · rcases hcases k with ⟨⟨ev, hprobing⟩, -⟩ | ⟨status, hdone⟩
      · exact hprobing.placed.idle_or_le
      · exact hdone.placed
    · rcases hcases k with ⟨⟨ev, hprobing⟩, -⟩ | ⟨status, hdone⟩
      · rw [hprobing.called] at hzero
        cases hzero
      · rw [hdone.called, List.mem_singleton] at hzero
        exact hdone.recorded hzero.symm

end Runs

/-- The probe of a node whose table has the supported classes completes exactly if no request is refused; for
the gateway's own node the versions are to be recorded before. -/
theorem probeCcVersion_completes_iff (os : Nat → Outcome) (myNodeId : NodeId) (node : NodeHeader) (ep : EpEntry)
    (pcvs : Option Pcvs) (requested : UInt8)
    (hself : node.nodeid = myNodeId → (pcvs.getD ⟨0, .idle⟩).probeCcIdx ≤ 7 ∧
      (probeCcVersion myNodeId node ep pcvs requested).Recorded 7)
    (hlisted : node.nodeid ≠ myNodeId → (probeCcVersion myNodeId node ep pcvs requested).Listed) :
    Completes os (probeCcVersion myNodeId node ep pcvs requested) ↔
      ∀ k, (run os (probeCcVersion myNodeId node ep pcvs requested) k).Sends → os k ≠ .refused := by
  by_cases hnode : node.nodeid = myNodeId
  · obtain ⟨hidx, hrecorded⟩ := hself hnode
    have hcall : probeCcVersion myNodeId node ep pcvs requested =
        ⟨node, ep, pcvs.getD ⟨0, .idle⟩, requested, none, [0]⟩ := if_pos hnode
    have hrun (k : Nat) : run os (probeCcVersion myNodeId node ep pcvs requested) k =
        probeCcVersion myNodeId node ep pcvs requested := by
      rw [← Nat.zero_add k]
      apply run_add_of_posted
      change (probeCcVersion myNodeId node ep pcvs requested).posted = none
      rw [hcall]
    unfold Completes
    simp only [hrun]
    constructor
    · rintro - - hsends
      exact absurd hsends (not_sends_of_posted (by rw [hcall]))
    · rintro -
      refine ⟨⟨0, 0, fun _ _ => ?_⟩, fun _ => .inr ?_, fun _ _ => hrecorded⟩
      · rw [hcall]
      · rw [hcall]
        exact hidx
  · apply completes_of_probing
    have hlisted := hlisted hnode
    rw [probeCcVersion, if_neg hnode] at hlisted ⊢
    exact ⟨.initial, rfl, rfl, rfl, trivial, hlisted, .inl rfl⟩

def sampleHeader : NodeHeader :=
  ⟨5, 0, 0, 0, 0, modeAlwayslistening, .done, 0, 0, 0, 0, 1, 0, .empty, .empty, 0, 0, 0, .ofBytes [0x86, 0, 0, 0], 0⟩

def sampleEntry : EpEntry :=
  ⟨0, .probeVersion, 0, 0, .empty, .empty, .empty, .ofBytes [0, 0, 0x86]⟩

theorem probeCcVersion_completes_sample :
    Completes (fun _ => .timedOut) (probeCcVersion 1 sampleHeader sampleEntry none 0) := by
  have hnode : sampleHeader.nodeid ≠ 1 := by decide
  refine (probeCcVersion_completes_iff _ 1 sampleHeader sampleEntry none 0 (fun h => absurd h hnode) fun _ => ?_).mpr
    fun _ _ => Outcome.noConfusion
  unfold Probe.Listed
  decide

theorem probeCcVersion_completes_not : ¬∀ os myNodeId node ep pcvs requested,
    Completes os (probeCcVersion myNodeId node ep pcvs requested) := by
  intro h
  have hlisted : (probeCcVersion 1 sampleHeader sampleEntry none 0).Listed := by
    unfold Probe.Listed
    decide
  have hprobing : ∃ ev, Probing (probeCcVersion 1 sampleHeader sampleEntry none 0) ev :=
    ⟨.initial, rfl, rfl, rfl, trivial, hlisted, .inl rfl⟩
  refine (completes_of_probing (fun _ => .refused) hprobing).mp (h _ _ _ _ _ _) 1 ⟨by decide, ?_⟩ rfl
  exact ⟨by decide, by decide⟩

end VersionProbe
end ZipGateway.Directory

import ZipGateway.NetworkManagement.InclusionController

/-!
# Hand-overs between controllers

Every function that is passed for a hand-over or an S0 step is called once, a COMPLETE frame reports the
step that has just ended to the controller that asked for it, and only that controller takes part in a
session. This holds in the runs in which `STATE_PERFORM_S0_INCLUSION` gets no event but the one it waits
for, other controllers keep out of a session, network management is idle when a proxy request arrives,
and no proxy replacement succeeds.
-/

namespace ZipGateway.InclusionController

open Machine (Admissible)

section Log

def Out.accepted? : Out → Option Callback
  | .accepted call => some call
  | _ => none

def Out.called? : Out → Option Callback
  | .called call _ => some call
  | _ => none

def Out.complete? : Out → Option (NodeId × Step × UInt8)
  | .sent dest frame =>
    if frame.getD 1 0 = inclusionControllerComplete then
      some (dest, if frame.getD 2 0 = stepIdS0Inclusion then .s0 else .proxy, frame.getD 3 0)
    else none
  | _ => none

def asker (step : Step) (log : List Out) : Option NodeId :=
  log.foldl (fun found x =>
    match x with
    | .asked asker step' => if step' = step then some asker else found
    | _ => found) none

def started (log : List Out) : Bool :=
  log.foldl (fun found x =>
    match x with
    | .asked _ .proxy => false
    | .proxyStarted => true
    | _ => found) false

@[simp]
theorem asker_append (step : Step) (log : List Out) (x : Out) : asker step (log ++ [x]) =
      match x with
      | .asked asker step' => if step' = step then some asker else InclusionController.asker step log
      | _ => asker step log := by
  simp only [asker, List.foldl_append, List.foldl_cons, List.foldl_nil]

@[simp]
theorem started_append (log : List Out) (x : Out) : started (log ++ [x]) =
      match x with
      | .asked _ .proxy => false
      | .proxyStarted => true
      | _ => started log := by
  unfold started
  rw [List.foldl_append]
  rfl

def Justified (log : List Out) : Prop :=
  ∀ before x after, log = before ++ x :: after → ∀ dest step status, x.complete? = some (dest, step, status) →
      ∃ earlier ok, before = earlier ++ [.ended step ok] ∧ asker step earlier = some dest ∧
        (status = stepOk ↔ ok = true)

theorem justified_nil : Justified [] := by
  intro before x after h
  simp at h

theorem Justified.append {log : List Out} (h : Justified log) (x : Out)
    (hx : ∀ dest step status, x.complete? = some (dest, step, status) →
      ∃ earlier ok, log = earlier ++ [.ended step ok] ∧ asker step earlier = some dest ∧
        (status = stepOk ↔ ok = true)) : Justified (log ++ [x]) := by
  intro before y after heq
  obtain rfl | ⟨after, z, rfl⟩ := List.eq_nil_or_concat after
  · obtain ⟨rfl, hxy⟩ := List.append_inj' heq rfl
    obtain rfl : x = y := by simpa using hxy
    exact hx
  · have hcut : log ++ [x] = (before ++ y :: after) ++ [z] := by simpa using heq
    obtain ⟨hlog, -⟩ := List.append_inj' hcut rfl
    exact h before y after hlog

theorem Justified.put {log : List Out} (h : Justified log) {x : Out} (hx : x.complete? = none) :
    Justified (log ++ [x]) := by
  refine h.append x fun dest step status hsome => ?_
  rw [hx] at hsome
  cases hsome

end Log

namespace State

variable (s : State)

def accepted : List Callback :=
  s.log.filterMap Out.accepted?

def called : List Callback :=
  s.log.filterMap Out.called?

def owed : List Callback :=
  match s.state with
  | .waitForSucAccept | .performS0Inclusion | .waitS0Inclusion => s.completeFunc.toList
  | .idle | .waitForAdd => []

def Awaits : Prop :=
  match s.state with
  | .waitForSucAccept => s.timer = true ∨ 0 < s.sending
  | .performS0Inclusion => s.s0Running = true
  | .waitS0Inclusion => s.timer = true
  | .idle | .waitForAdd => True

end State

structure HandedOver (s : State) : Prop where
  answered : s.called ++ s.owed = s.accepted
  awaits : s.owed ≠ [] → s.crashed = false ∧ s.Awaits
  justified : Justified s.log
  fromPeer : ∀ sender peer, .advanced sender peer ∈ s.log → sender = peer
  started : s.state = .waitForAdd → started s.log = true

def ActsOn (state : FsmState) (frame : Bytes) : Prop :=
  match state with
  | .idle => frame.getD 1 0 = inclusionControllerInitiate ∧
      (frame.getD 3 0 = stepIdProxyInclusion ∨ frame.getD 3 0 = stepIdProxyReplace)
  | .waitForSucAccept =>
    frame.getD 1 0 = inclusionControllerComplete ∧
        (frame.getD 2 0 = stepIdProxyInclusion ∨ frame.getD 2 0 = stepIdProxyReplace) ∨
      frame.getD 1 0 = inclusionControllerInitiate ∧ frame.getD 3 0 = stepIdS0Inclusion
  | .performS0Inclusion =>
    frame.getD 1 0 = inclusionControllerInitiate ∨ frame.getD 1 0 = inclusionControllerComplete
  | .waitS0Inclusion =>
    frame.getD 1 0 = inclusionControllerComplete ∧ frame.getD 2 0 = stepIdS0Inclusion
  | .waitForAdd => False

instance : ∀ (state : FsmState) (frame : Bytes), Decidable (ActsOn state frame)
  | .idle, _ => inferInstanceAs (Decidable (_ ∧ (_ ∨ _)))
  | .waitForSucAccept, _ => inferInstanceAs (Decidable (_ ∧ (_ ∨ _) ∨ _ ∧ _))
  | .performS0Inclusion, _ => inferInstanceAs (Decidable (_ ∨ _))
  | .waitS0Inclusion, _ => inferInstanceAs (Decidable (_ ∧ _))
  | .waitForAdd, _ => isFalse id

/-- Network management is idle when a proxy request arrives. In a session only its peer sends a frame
that is acted on; the S0 step it asks for can begin, and nothing happens then but its end. No proxy
operation succeeds with a status other than `ADD_NODE_STATUS_DONE`. -/
def Allowed (s : State) : Event → Prop
  | .requestHandover _ _ _ call => call = none → s.state ≠ .idle ∧ s.state ≠ .performS0Inclusion
  | .youDoIt _ _ | .started _ => s.state ≠ .performS0Inclusion
  | .frame env sender scheme bytes =>
    sender.isAllowed scheme = true → ActsOn s.state bytes →
      s.state ≠ .performS0Inclusion ∧ (s.state = .idle → s.nm = .idle) ∧ (s.state ≠ .idle → sender.id = s.peer) ∧
        (s.state = .waitForSucAccept → bytes.getD 1 0 = inclusionControllerInitiate →
          env.security0 = true → env.begins = true)
  | .txDone _ _ => 0 < s.sending → s.state ≠ .performS0Inclusion
  | .timeout _ => s.timer = true → s.state ≠ .performS0Inclusion
  | .nmNifTimeout _ =>
    ∀ isReplace, s.nm = .proxyInclusionWaitNif isReplace → s.state ≠ .performS0Inclusion
  | .nmSendReply _ buf => ∀ isReplace, s.nm = .proxy isReplace → s.state ≠ .performS0Inclusion ∧
      (s.state = .waitForAdd → (nodeAddStatus buf = addNodeStatusDone ↔ proxySucceeded isReplace buf = true))
  | .s0Done _ _ | .nmBegins | .nmEnds | .nmNodeInfo => True

instance (s : State) : ∀ e : Event, Decidable (Allowed s e)
  | .requestHandover _ _ _ _ => inferInstanceAs (Decidable (_ → _ ∧ _))
  | .youDoIt _ _ | .started _ => inferInstanceAs (Decidable (_ ≠ _))
  | .frame _ _ _ _ =>
    inferInstanceAs (Decidable (_ → _ → _ ≠ _ ∧ (_ → _) ∧ (_ → _) ∧ (_ → _ → _ → _)))
  | .txDone _ _ | .timeout _ => inferInstanceAs (Decidable (_ → _ ≠ _))
  | .nmNifTimeout _ => inferInstanceAs (Decidable (∀ _ : Bool, _ → _ ≠ _))
  | .nmSendReply _ _ => inferInstanceAs (Decidable (∀ _ : Bool, _ → _ ≠ _ ∧ (_ → (_ ↔ _))))
  | .s0Done _ _ | .nmBegins | .nmEnds | .nmNodeInfo => isTrue trivial

section Invariant

variable {s : State} {env : Env} {call : Callback}

def Role (s : State) : Prop :=
  match s.state with
  | .idle => True
  | .waitForSucAccept => s.completeFunc.isSome ∧ (s.timer = true ∨ 0 < s.sending)
  | .performS0Inclusion =>
    s.completeFunc.isSome ∧ s.s0Running = true ∧ asker .s0 s.log = some s.peer
  | .waitForAdd => asker .proxy s.log = some s.peer ∧ started s.log = true
  | .waitS0Inclusion =>
    s.completeFunc.isSome ∧ s.timer = true ∧ asker .proxy s.log = some s.peer ∧ started s.log = true

structure Sound (s : State) : Prop where
  alive : s.crashed = false
  answered : s.called ++ s.owed = s.accepted
  justified : Justified s.log
  fromPeer : ∀ sender peer, .advanced sender peer ∈ s.log → sender = peer

structure Inv (s : State) : Prop extends Sound s where
  role : Role s

theorem inv_init : Inv .init where
  alive := rfl
  answered := rfl
  justified := justified_nil
  fromPeer := by simp [State.init]
  role := trivial

theorem Inv.handedOver (h : Inv s) : HandedOver s where
  answered := h.answered
  awaits := by
    intro howed
    refine ⟨h.alive, ?_⟩
    have hrole := h.role
    unfold Role at hrole
    unfold State.Awaits
    cases hstate : s.state with
    | idle | waitForAdd => trivial
    | waitForSucAccept | performS0Inclusion | waitS0Inclusion =>
      simp only [hstate] at hrole ⊢
      first
        | exact hrole.2
        | exact hrole.2.1
  justified := h.justified
  fromPeer := h.fromPeer
  started := by
    intro hstate
    have hrole := h.role
    unfold Role at hrole
    simp only [hstate] at hrole
    exact hrole.2

def Out.isNeutral : Out → Bool
  | .refused _ | .asked _ _ | .proxyStarted | .ended _ _ => true
  | _ => false

theorem Sound.congr (h : Sound s) {t : State} (halive : t.crashed = s.crashed) (howed : t.owed = s.owed)
    (hlog : t.log = s.log) : Sound t := by
  refine ⟨halive.trans h.alive, ?_, hlog ▸ h.justified, hlog ▸ h.fromPeer⟩
  unfold State.called State.accepted
  rw [howed, hlog]
  exact h.answered

theorem Sound.put (h : Sound s) {x : Out} (hx : x.isNeutral = true) : Sound (s.put x) := by
  have hanswered := h.answered
  refine ⟨h.alive, ?_, h.justified.put ?_, ?_⟩
  · cases x with
    | accepted _ | called _ _ | sent _ _ | advanced _ _ => cases hx
    | _ =>
      simpa [State.called, State.accepted, State.owed, State.put, Out.called?, Out.accepted?,
        List.filterMap_cons] using hanswered
  · cases x with
    | accepted _ | called _ _ | sent _ _ | advanced _ _ => cases hx
    | _ => rfl
  · intro sender peer hmem
    obtain hmem | hmem := List.mem_append.mp hmem
    · exact h.fromPeer sender peer hmem
    · rw [← List.mem_singleton.mp hmem] at hx
      cases hx

theorem Sound.sendDataAppl (h : Sound s) {dest : NodeId} {frame : Bytes}
    (hframe : ∀ dest' step status, Out.complete? (.sent dest frame) = some (dest', step, status) →
      ∃ earlier ok, s.log = earlier ++ [.ended step ok] ∧ asker step earlier = some dest' ∧
        (status = stepOk ↔ ok = true)) : Sound (s.sendDataAppl dest frame) := by
  refine ⟨h.alive, ?_, h.justified.append _ hframe, ?_⟩
  · simpa [State.called, State.accepted, State.owed, State.put, State.sendDataAppl, Out.called?,
      Out.accepted?, List.filterMap_cons] using h.answered
  · simpa [State.sendDataAppl, State.put] using h.fromPeer

theorem Sound.close (h : Sound s) (hcall : s.completeFunc = some call) (howed : s.owed = [call])
    {state : FsmState} (status : UInt8)
    (hstate : state = .idle ∨ state = .waitForAdd ∧ asker .proxy s.log = some s.peer ∧ started s.log = true) :
    Inv ({ s with state := state }.callComplete status) := by
  have heq : { s with state := state }.callComplete status =
      { s with state := state, log := s.log ++ [.called call status] } := by
    simp only [State.callComplete, hcall, State.put]
  rw [heq]
  have hanswered := h.answered
  rw [howed] at hanswered
  refine ⟨⟨h.alive, ?_, h.justified.put rfl, ?_⟩, ?_⟩
  · rcases hstate with rfl | ⟨rfl, -⟩ <;>
      simpa [State.called, State.accepted, State.owed, Out.called?, Out.accepted?, List.filterMap_cons] using hanswered
  · simpa using h.fromPeer
  · rcases hstate with rfl | ⟨rfl, hasker, hstarted⟩
    · trivial
    · exact ⟨by simpa using hasker, by simpa using hstarted⟩

theorem Sound.sucAcceptTxDone (h : Sound s) (hstate : s.state = .waitForSucAccept)
    (hcall : s.completeFunc = some call) (ok : Bool) : Inv (sucAcceptTxDone s ok) := by
  have howed : s.owed = [call] := by
    unfold State.owed
    rw [hstate]
    simp [hcall]
  cases ok with
  | true =>
    refine ⟨h.congr rfl rfl rfl, ?_⟩
    show Role s.ctimerSet
    simp [Role, State.ctimerSet, hstate, hcall]
  | false => exact h.close hcall howed 0 (.inl rfl)

theorem Sound.s0InclusionDone (h : Sound s) (hstate : s.state = .performS0Inclusion)
    (hcall : s.completeFunc = some call) (hasker : asker .s0 s.log = some s.peer) {status : UInt8}
    {ok : Bool} (hok : status = stepOk ↔ ok = true) : Inv (s0InclusionDone s env status ok) := by
  unfold InclusionController.s0InclusionDone performS0
  have hput : Sound { s.put (.ended .s0 ok) with state := .waitForSucAccept } := by
    refine (h.put (x := .ended .s0 ok) rfl).congr rfl ?_ rfl
    simp [State.owed, State.put, hstate]
  simp only
  split
  · refine ⟨hput.sendDataAppl ?_, ?_⟩
    · intro dest step status' hcomplete
      have heq : (s.peer, Step.s0, status) = (dest, step, status') := by
        simpa [Out.complete?, completeFrame, State.put] using hcomplete
      cases heq
      exact ⟨s.log, ok, rfl, hasker, hok⟩
    · show Role (State.sendDataAppl _ _ _)
      simp [Role, State.sendDataAppl, State.put, hcall]
  · exact hput.sucAcceptTxDone rfl hcall false

theorem Sound.startProxy (h : Sound s) (isReplace : Bool) : Sound (s.startProxy isReplace) := by
  unfold State.startProxy
  split
  · exact (h.put (x := .proxyStarted) rfl).congr rfl rfl rfl
  · exact h

theorem complete?_initiateFrame (dest : NodeId) (nodeId : NodeId) (stepId : UInt8) :
    Out.complete? (.sent dest (initiateFrame nodeId stepId)) = none := rfl

theorem Sound.accept (h : Sound s) (howed : s.owed = []) {t : State} (hlog : t.log = s.log ++ [.accepted call])
    (halive : t.crashed = s.crashed) (howed' : t.owed = [call]) : Sound t := by
  have hanswered := h.answered
  rw [howed] at hanswered
  refine ⟨halive.trans h.alive, ?_, hlog ▸ h.justified.put rfl, ?_⟩
  · unfold State.called State.accepted
    rw [howed', hlog]
    simpa [State.called, State.accepted, Out.called?, Out.accepted?, List.filterMap_cons] using hanswered
  · simpa [hlog] using h.fromPeer

theorem Inv.idle (h : Inv s) (hstate : s.state = .idle) {ev : FsmEvent} (hcall : ev ≠ .requestSucInclusion none)
    (hinitiate : ∀ sender frame, ev = .initiate sender frame →
      sender = s.peer ∧ (frame.getD 3 0 = stepIdProxyInclusion ∨
        frame.getD 3 0 = stepIdProxyReplace → s.nm = .idle)) : Inv (handlerFsmIdle s env ev) := by
  have howed : s.owed = [] := by
    unfold State.owed
    rw [hstate]
  cases ev with
  | requestSucInclusion call =>
    cases call with
    | none => exact absurd rfl hcall
    | some call =>
      simp only [handlerFsmIdle]
      have haccept : Sound ({ s with
              state := .waitForSucAccept
              completeFunc := some call
              peer := env.suc }.put (.accepted call)) := h.accept howed rfl rfl rfl
      split
      · refine ⟨haccept.sendDataAppl ?_, ?_⟩
        · simp [complete?_initiateFrame]
        · simp [Role, State.sendDataAppl, State.put]
      · exact haccept.sucAcceptTxDone rfl rfl false
  | initiate sender frame =>
    obtain ⟨rfl, hnm⟩ := hinitiate sender frame rfl
    have hasked : ∀ isReplace, s.nm = .idle →
        Inv (({ s with nodeId := (frame.getD 2 0).toUInt16, state := .waitForAdd }.put
          (.asked s.peer .proxy)).startProxy isReplace) := by
      intro isReplace hidle
      have hadd : Sound { s with nodeId := (frame.getD 2 0).toUInt16, state := .waitForAdd } :=
        h.toSound.congr rfl (Eq.trans rfl howed.symm) rfl
      refine ⟨(hadd.put (x := .asked s.peer .proxy) rfl).startProxy isReplace, ?_⟩
      simp [Role, State.startProxy, State.put, hidle, -List.append_assoc]
    simp only [handlerFsmIdle]
    split
    · exact hasked false (hnm (.inl (by assumption)))
    · split
      · exact hasked true (hnm (.inr (by assumption)))
      · refine ⟨h.toSound.congr rfl ?_ rfl, ?_⟩
        · simp [State.owed, hstate]
        · simp [Role, hstate]
  | _ => exact h

theorem Sound.waitForSucAccept (h : Sound s) (hstate : s.state = .waitForSucAccept)
    (hcall : s.completeFunc = some call) {ev : FsmEvent}
    (hawaits : (∃ ok, ev = .txDone ok) ∨ ev = .timeout ∨ s.timer = true ∨ 0 < s.sending)
    (hev : ∀ sender frame, ev = .initiate sender frame → frame.getD 3 0 = stepIdS0Inclusion →
      sender = s.peer ∧ (env.security0 = true → env.begins = true)) :
    Inv (handlerFsmWaitForSucAccept s env ev) := by
  have howed : s.owed = [call] := by
    unfold State.owed
    rw [hstate]
    simp [hcall]
  have hstay : (s.timer = true ∨ 0 < s.sending) → Inv s := by
    intro hawaits
    refine ⟨h, ?_⟩
    simp only [Role, hstate]
    exact ⟨by simp [hcall], hawaits⟩
  cases ev with
  | txDone ok => exact h.sucAcceptTxDone hstate hcall ok
  | timeout => exact h.close hcall howed 0 (.inl rfl)
  | complete sender frame =>
    simp only [handlerFsmWaitForSucAccept]
    split
    · exact h.close hcall howed 1 (.inl rfl)
    · exact hstay (by simpa using hawaits)
  | initiate sender frame =>
    simp only [handlerFsmWaitForSucAccept]
    split
    · rename_i hstep
      obtain ⟨rfl, hbegins⟩ := hev sender frame rfl hstep
      have hasked : Sound ({ s with state := .performS0Inclusion }.put (.asked s.peer .s0)) := by
        have hperform : Sound { s with state := .performS0Inclusion } := by
          refine h.congr rfl ?_ rfl
          simp [State.owed, hstate]
        exact hperform.put rfl
      have hasker : asker .s0 ({ s with state := .performS0Inclusion }.put (.asked s.peer .s0)).log = some s.peer := by
        simp [State.put]
      split
      · rename_i hsecurity0
        refine ⟨hasked.congr rfl rfl rfl, ?_⟩
        refine ⟨by simp [State.put, hcall], ?_, hasker⟩
        simp [hbegins hsecurity0]
      · exact hasked.s0InclusionDone rfl hcall hasker (by decide)
    · exact hstay (by simpa using hawaits)
  | _ => exact hstay (by simpa using hawaits)

theorem Inv.waitForAdd (h : Inv s) (hstate : s.state = .waitForAdd) {ev : FsmEvent}
    (hev : ∀ status, ev = .addNodeDone status → ∃ earlier ok,
      s.log = earlier ++ [.ended .proxy ok] ∧ (status = stepOk ↔ ok = true)) :
    Inv (handlerFsmWaitForAdd s env ev) := by
  have hrole := h.role
  simp only [Role, hstate] at hrole
  obtain ⟨hasker, hstarted⟩ := hrole
  have howed : s.owed = [] := by
    unfold State.owed
    rw [hstate]
  cases ev with
  | addNodeDone status =>
    obtain ⟨earlier, ok, hlog, hok⟩ := hev status rfl
    have hsent : Sound (s.sendDataAppl s.peer (completeFrame stepIdProxyInclusion status)) := by
      refine h.toSound.sendDataAppl ?_
      intro dest step status' hcomplete
      have heq : (s.peer, Step.proxy, status) = (dest, step, status') := by
        simpa [Out.complete?, completeFrame, stepIdProxyInclusion, stepIdS0Inclusion] using hcomplete
      cases heq
      refine ⟨earlier, ok, hlog, ?_, hok⟩
      simpa [hlog] using hasker
    simp only [handlerFsmWaitForAdd]
    exact ⟨hsent.congr rfl (Eq.trans rfl (Eq.trans howed.symm rfl)) rfl, trivial⟩
  | s0Inclusion call =>
    have haccept : Sound ({ s with completeFunc := some call, state := .waitS0Inclusion }.put
        (.accepted call)) := h.toSound.accept howed rfl rfl rfl
    simp only [handlerFsmWaitForAdd]
    split
    · have hsent : Sound (State.sendDataAppl _ s.peer (initiateFrame s.nodeId stepIdS0Inclusion)) :=
        haccept.sendDataAppl (by simp [complete?_initiateFrame])
      refine ⟨hsent.congr rfl rfl rfl, ?_⟩
      show Role (State.ctimerSet _)
      simp [Role, State.ctimerSet, State.sendDataAppl, State.put, hasker, hstarted, -List.append_assoc]
    · refine ⟨haccept.congr rfl rfl rfl, ?_⟩
      show Role (State.ctimerSet _)
      simp [Role, State.ctimerSet, State.put, hasker, hstarted]
  | _ => exact h

theorem Sound.waitS0Inclusion (h : Sound s) (hstate : s.state = .waitS0Inclusion)
    (hcall : s.completeFunc = some call) (hasker : asker .proxy s.log = some s.peer)
    (hstarted : started s.log = true) {ev : FsmEvent} (hawaits : ev = .timeout ∨ s.timer = true) :
    Inv (handlerFsmWaitS0Inclusion s ev) := by
  have howed : s.owed = [call] := by
    unfold State.owed
    rw [hstate]
    simp [hcall]
  have hstay : s.timer = true → Inv s := by
    intro htimer
    refine ⟨h, ?_⟩
    simp only [Role, hstate]
    exact ⟨by simp [hcall], htimer, hasker, hstarted⟩
  have hclose : ∀ status, Inv ({ s with state := .waitForAdd }.callComplete status) := fun status =>
    h.close hcall howed status (.inr ⟨rfl, hasker, hstarted⟩)
  cases ev with
  | timeout => exact hclose 0
  | complete sender frame =>
    simp only [handlerFsmWaitS0Inclusion]
    split
    · exact hclose _
    · exact hstay (by simpa using hawaits)
  | _ => exact hstay (by simpa using hawaits)

theorem Inv.handlerFsm (h : Inv s) (hstate : s.state ≠ .performS0Inclusion) {ev : FsmEvent}
    (hcall : s.state = .idle → ev ≠ .requestSucInclusion none)
    (hinitiate : ∀ sender frame, ev = .initiate sender frame → (s.state = .idle → sender = s.peer ∧
        (frame.getD 3 0 = stepIdProxyInclusion ∨ frame.getD 3 0 = stepIdProxyReplace → s.nm = .idle)) ∧
      (s.state = .waitForSucAccept → frame.getD 3 0 = stepIdS0Inclusion →
        sender = s.peer ∧ (env.security0 = true → env.begins = true)))
    (hdone : s.state = .waitForAdd → ∀ status, ev = .addNodeDone status → ∃ earlier ok,
      s.log = earlier ++ [.ended .proxy ok] ∧ (status = stepOk ↔ ok = true)) :
    Inv (handlerFsm s env ev) := by
  have hrole := h.role
  unfold InclusionController.handlerFsm
  unfold Role at hrole
  cases hs : s.state with
  | idle => exact h.idle hs (hcall hs) fun sender frame hev => (hinitiate sender frame hev).1 hs
  | waitForSucAccept =>
    simp only [hs] at hrole
    obtain ⟨call, hcall⟩ := Option.isSome_iff_exists.mp hrole.1
    exact h.waitForSucAccept hs hcall (.inr (.inr hrole.2)) fun sender frame hev =>
      (hinitiate sender frame hev).2 hs
  | waitForAdd => exact h.waitForAdd hs (hdone hs)
  | waitS0Inclusion =>
    simp only [hs] at hrole
    obtain ⟨call, hcall⟩ := Option.isSome_iff_exists.mp hrole.1
    exact h.waitS0Inclusion hs hcall hrole.2.2.1 hrole.2.2.2 (.inr hrole.2.1)
  | performS0Inclusion => exact absurd hs hstate

theorem Inv.put (h : Inv s) {x : Out} (hx : x.isNeutral = true) (hasked : ∀ asker step, x ≠ .asked asker step) :
    Inv (s.put x) := by
  refine ⟨h.toSound.put hx, ?_⟩
  have hrole := h.role
  unfold Role at hrole ⊢
  cases x with
  | accepted _ | called _ _ | sent _ _ | advanced _ _ => cases hx
  | asked asker step => exact absurd rfl (hasked asker step)
  | refused _ | ended _ _ => simpa [State.put] using hrole
  | proxyStarted =>
    simp only [State.put, asker_append, started_append]
    cases hs : s.state <;> simp only [hs] at hrole ⊢ <;> simp_all

theorem Inv.nm (h : Inv s) (nm : Nm) : Inv { s with nm := nm } :=
  ⟨h.toSound.congr rfl rfl rfl, h.role⟩

theorem Inv.sendReport (h : Inv s) (hstate : s.state ≠ .performS0Inclusion) {ok : Bool} {status : UInt8}
    (hok : s.state = .waitForAdd → (status = stepOk ↔ ok = true)) : Inv (s.sendReport env ok status) := by
  have hput : Inv (s.put (.ended .proxy ok)) := h.put rfl (by simp)
  refine hput.handlerFsm hstate (by simp) (by simp) ?_
  intro hadd status' hstatus
  obtain rfl : status = status' := by simpa using hstatus
  exact ⟨s.log, ok, rfl, hok hadd⟩

theorem Role.congr (h : Role s) {t : State} (hstate : t.state = s.state)
    (hcall : t.completeFunc = s.completeFunc) (hlog : t.log = s.log) (hpeer : t.peer = s.peer)
    (hs0 : t.s0Running = s.s0Running)
    (hsuc : s.state = .waitForSucAccept → t.timer = s.timer ∧ t.sending = s.sending)
    (htimer : s.state = .waitS0Inclusion → t.timer = s.timer) : Role t := by
  unfold Role at h ⊢
  rw [hstate, hcall, hlog, hpeer, hs0]
  cases hs : s.state with
  | waitForSucAccept => simpa [hs, (hsuc hs).1, (hsuc hs).2] using h
  | waitS0Inclusion => simpa [hs, htimer hs] using h
  | idle => trivial
  | performS0Inclusion | waitForAdd => simpa [hs] using h

theorem handlerFsm_waitForSucAccept (hs : s.state = .waitForSucAccept) (ev : FsmEvent) :
    handlerFsm s env ev = handlerFsmWaitForSucAccept s env ev := by
  simp only [InclusionController.handlerFsm, hs]

theorem handlerFsm_waitS0Inclusion (hs : s.state = .waitS0Inclusion) (ev : FsmEvent) :
    handlerFsm s env ev = handlerFsmWaitS0Inclusion s ev := by
  simp only [InclusionController.handlerFsm, hs]

theorem handlerFsm_txDone (hs : s.state ≠ .waitForSucAccept) (hs' : s.state ≠ .performS0Inclusion)
    (ok : Bool) : handlerFsm s env (.txDone ok) = s := by
  unfold InclusionController.handlerFsm
  split <;> first
    | contradiction
    | rfl

theorem handlerFsm_timeout (hs : s.state ≠ .waitForSucAccept) (hs' : s.state ≠ .performS0Inclusion)
    (hs0 : s.state ≠ .waitS0Inclusion) : handlerFsm s env .timeout = s := by
  unfold InclusionController.handlerFsm
  split <;> first
    | contradiction
    | rfl

theorem Inv.txDone (h : Inv s) (hstate : s.state ≠ .performS0Inclusion) (ok : Bool) :
    Inv (InclusionController.handlerFsm { s with sending := s.sending - 1 } env (.txDone ok)) := by
  have hsound : Sound { s with sending := s.sending - 1 } := h.toSound.congr rfl rfl rfl
  by_cases hs : s.state = .waitForSucAccept
  · have hrole := h.role
    simp only [Role, hs] at hrole
    obtain ⟨call, hcall⟩ := Option.isSome_iff_exists.mp hrole.1
    rw [handlerFsm_waitForSucAccept (s := { s with sending := s.sending - 1 }) hs]
    exact hsound.waitForSucAccept hs hcall (.inl ⟨ok, rfl⟩) (by simp)
  · rw [handlerFsm_txDone (s := { s with sending := s.sending - 1 }) hs hstate]
    exact ⟨hsound, h.role.congr rfl rfl rfl rfl rfl (fun hs' => absurd hs' hs) fun _ => rfl⟩

theorem Inv.timeout (h : Inv s) (hstate : s.state ≠ .performS0Inclusion) :
    Inv (InclusionController.handlerFsm { s with timer := false } env .timeout) := by
  have hsound : Sound { s with timer := false } := h.toSound.congr rfl rfl rfl
  have hrole := h.role
  by_cases hs : s.state = .waitForSucAccept
  · simp only [Role, hs] at hrole
    obtain ⟨call, hcall⟩ := Option.isSome_iff_exists.mp hrole.1
    rw [handlerFsm_waitForSucAccept (s := { s with timer := false }) hs]
    exact hsound.waitForSucAccept hs hcall (.inr (.inl rfl)) (by simp)
  · by_cases hs0 : s.state = .waitS0Inclusion
    · simp only [Role, hs0] at hrole
      obtain ⟨call, hcall⟩ := Option.isSome_iff_exists.mp hrole.1
      rw [handlerFsm_waitS0Inclusion (s := { s with timer := false }) hs0]
      exact hsound.waitS0Inclusion hs0 hcall hrole.2.2.1 hrole.2.2.2 (.inl rfl)
    · rw [handlerFsm_timeout (s := { s with timer := false }) hs hstate hs0]
      exact ⟨hsound, hrole.congr rfl rfl rfl rfl rfl (fun hs' => absurd hs' hs) fun hs' => absurd hs' hs0⟩

theorem Inv.s0Done (h : Inv s) (schemeMask : Int) : Inv (InclusionController.handlerFsm
      ({ s with s0Running := false }.put (.ended .s0 (0 < schemeMask))) env
        (.s0InclusionDone (secureLearnFlags schemeMask))) := by
  have hsound : Sound { s with s0Running := false } := h.toSound.congr rfl rfl rfl
  have hrole := h.role
  unfold Role at hrole
  by_cases hs : s.state = .performS0Inclusion
  · simp only [hs] at hrole
    obtain ⟨call, hcall⟩ := Option.isSome_iff_exists.mp hrole.1
    have hok : secureLearnFlags schemeMask = stepOk ↔ decide (0 < schemeMask) = true := by
      unfold secureLearnFlags
      split_ifs <;> simp_all [nodeFlagSecurity0, nodeFlagKnownBad, stepOk]
    have hdone : Inv (InclusionController.s0InclusionDone _ env _ _) :=
      hsound.s0InclusionDone hs hcall hrole.2.2 hok
    simpa [InclusionController.handlerFsm, InclusionController.s0InclusionDone, State.put, hs,
      FsmEvent.number] using hdone
  · have hstays : Inv { s with s0Running := false } := by
      refine ⟨hsound, ?_⟩
      unfold Role
      cases hs' : s.state <;> simp_all
    exact (hstays.put rfl (by simp)).handlerFsm hs (by simp) (by simp) (by simp)

theorem inv_receive {sender : NodeId} {ev : FsmEvent}
    (hpeer : InclusionController.handlerFsm s env ev = s ∨ sender = s.peer)
    (hfsm : Inv (InclusionController.handlerFsm s env ev)) : Inv (s.receive env sender ev) := by
  simp only [State.receive]
  split
  · exact hfsm
  · rename_i hchanged
    obtain rfl := hpeer.resolve_left hchanged
    generalize InclusionController.handlerFsm s env ev = t at hfsm
    refine ⟨⟨hfsm.alive, ?_, hfsm.justified.put rfl, ?_⟩, ?_⟩
    · simpa [State.called, State.accepted, State.owed, State.put, Out.called?, Out.accepted?,
        List.filterMap_cons] using hfsm.answered
    · intro sender peer hmem
      obtain hmem | hmem := List.mem_append.mp hmem
      · exact hfsm.fromPeer sender peer hmem
      · cases List.mem_singleton.mp hmem
        rfl
    · simpa [Role, State.put] using hfsm.role

theorem handlerFsm_initiate {sender : NodeId} {frame : Bytes} (hidle : s.state ≠ .idle)
    (hcmd : frame.getD 1 0 = inclusionControllerInitiate) (hacts : ¬ActsOn s.state frame) :
    handlerFsm s env (.initiate sender frame) = s := by
  unfold InclusionController.handlerFsm
  split
  · contradiction
  · rename_i hs
    rw [hs] at hacts
    simp only [handlerFsmWaitForSucAccept]
    exact if_neg fun hstep => hacts (.inr ⟨hcmd, hstep⟩)
  · rename_i hs
    rw [hs] at hacts
    exact absurd (.inl hcmd) hacts
  · rfl
  · rfl

theorem handlerFsm_complete {sender : NodeId} {frame : Bytes}
    (hcmd : frame.getD 1 0 = inclusionControllerComplete) (hacts : ¬ActsOn s.state frame) :
    handlerFsm s env (.complete sender frame) = s := by
  unfold InclusionController.handlerFsm
  split
  · rfl
  · rename_i hs
    rw [hs] at hacts
    simp only [handlerFsmWaitForSucAccept]
    exact if_neg fun hstep => hacts (.inl ⟨hcmd, hstep⟩)
  · rename_i hs
    rw [hs] at hacts
    exact absurd (.inr hcmd) hacts
  · rfl
  · rename_i hs
    rw [hs] at hacts
    simp only [handlerFsmWaitS0Inclusion]
    exact if_neg fun hstep => hacts ⟨hcmd, hstep⟩

theorem Inv.frame (h : Inv s) {sender : Sender} {scheme : Udp.Scheme} {bytes : Bytes}
    (hallowed : Allowed s (.frame env sender scheme bytes)) :
    Inv (s.inclusionControllerHandler env sender scheme bytes) := by
  unfold State.inclusionControllerHandler
  split
  · exact h
  rename_i hsender
  have hallowed := hallowed (by simpa using hsender)
  split
  · rename_i hcmd
    by_cases hidle : s.state = .idle
    · rw [if_pos hidle]
      have hpeer : Inv { s with peer := sender.id } := by
        refine ⟨h.toSound.congr rfl rfl rfl, ?_⟩
        simp only [Role, hidle]
      refine inv_receive (.inr rfl) (hpeer.handlerFsm (by simp [hidle]) (by simp) ?_ (by simp))
      rintro sender' frame ⟨rfl, rfl⟩
      refine ⟨fun _ => ⟨rfl, fun hstep => ?_⟩, fun hs => ?_⟩
      · obtain ⟨-, hnm, -⟩ := hallowed (by rw [hidle]; exact ⟨hcmd, hstep⟩)
        exact hnm hidle
      · simp [hidle] at hs
    · rw [if_neg hidle]
      by_cases hacts : ActsOn s.state bytes
      · obtain ⟨hperform, -, hpeer, hbegins⟩ := hallowed hacts
        have hsender : sender.id = s.peer := hpeer hidle
        refine inv_receive (.inr hsender) (h.handlerFsm hperform (by simp) ?_ (by simp))
        rintro sender' frame ⟨rfl, rfl⟩
        exact ⟨fun hs => absurd hs hidle, fun hs _ => ⟨hsender, hbegins hs hcmd⟩⟩
      · have hsame : InclusionController.handlerFsm s env (.initiate sender.id bytes) = s :=
          handlerFsm_initiate hidle hcmd hacts
        exact inv_receive (.inl hsame) (hsame.symm ▸ h)
  · split
    · rename_i hcmd
      by_cases hacts : ActsOn s.state bytes
      · obtain ⟨hperform, -, hpeer, -⟩ := hallowed hacts
        have hidle : s.state ≠ .idle := by
          intro hs
          rw [hs] at hacts
          exact absurd (hacts.1.symm.trans hcmd) (by decide)
        exact inv_receive (.inr (hpeer hidle)) (h.handlerFsm hperform (by simp) (by simp) (by simp))
      · have hsame : InclusionController.handlerFsm s env (.complete sender.id bytes) = s :=
          handlerFsm_complete hcmd hacts
        exact inv_receive (.inl hsame) (hsame.symm ▸ h)
    · exact h

theorem inv_step (h : Inv s) {e : Event} (he : Allowed s e) : Inv (step s e) := by
  unfold step
  rw [if_neg (by simp [h.alive])]
  cases e with
  | requestHandover env nodeId isReplace call =>
    have hkept : Inv { s with nodeId := nodeId, isReplace := isReplace } :=
      ⟨h.toSound.congr rfl rfl rfl, h.role⟩
    cases call with
    | none =>
      obtain ⟨hidle, hperform⟩ := he rfl
      exact hkept.handlerFsm hperform (fun hs => absurd hs hidle) (by simp) (by simp)
    | some call =>
      simp only [State.react, State.requestHandover]
      split
      · exact h.put rfl (by simp)
      · rename_i hidle
        have hidle : s.state = .idle := by simpa using hidle
        exact hkept.handlerFsm (by simp [hidle]) (by simp) (by simp) (by simp)
  | youDoIt env call => exact h.handlerFsm he (by simp) (by simp) (by simp)
  | started env => exact h.handlerFsm he (by simp) (by simp) (by simp)
  | frame env sender scheme bytes => exact h.frame he
  | txDone env ok =>
    simp only [State.react]
    split
    · exact h
    · rename_i hsending
      exact h.txDone (he (by omega)) ok
  | timeout env =>
    simp only [State.react]
    split
    · exact h.timeout (he (by assumption))
    · exact h
  | s0Done env schemeMask =>
    simp only [State.react]
    split
    · exact h.s0Done schemeMask
    · exact h
  | nmBegins =>
    simp only [State.react]
    split
    · exact h.nm .other
    · exact h
  | nmEnds =>
    simp only [State.react]
    split
    · exact h.nm .idle
    · exact h.nm .idle
    · exact h
  | nmNodeInfo =>
    simp only [State.react]
    split
    · exact h.nm _
    · exact h
  | nmNifTimeout env =>
    simp only [State.react]
    split
    · rename_i hnm
      exact (h.nm .idle).sendReport (he _ hnm) fun _ => by decide
    · exact h
  | nmSendReply env buf =>
    simp only [State.react]
    split
    · rename_i isReplace hnm
      obtain ⟨hperform, hdone⟩ := he isReplace hnm
      refine h.sendReport hperform fun hadd => ?_
      rw [← hdone hadd]
      split <;> simp_all [stepOk, stepFailed]
    · exact h

end Invariant

/-- In every run of allowed events, the hand-over is as claimed. -/
theorem handover_sound (events : List Event) (hevents : Admissible step Allowed .init events) :
    HandedOver (run events) :=
  (Machine.run_invariant_of_admissible (fun _ _ he h => inv_step h he) hevents inv_init).handedOver

def someEnv : Env := ⟨true, 1, true, true⟩

def controller (id : NodeId) : Sender := ⟨id, 0, true, false, true⟩

/-- A hand-over to the SUC, which asks for the S0 step, and then a proxy request of another controller,
which is asked for the S0 step. -/
def twoSessions : List Event :=
  [.requestHandover someEnv 7 false (some ⟨0, 0x55⟩), .txDone someEnv true,
    .frame someEnv (controller 1) .noScheme (initiateFrame 7 stepIdS0Inclusion), .s0Done someEnv 1,
    .txDone someEnv true, .frame someEnv (controller 1) .noScheme (completeFrame stepIdProxyInclusion 1),
    .frame someEnv (controller 9) .noScheme (initiateFrame 8 stepIdProxyInclusion), .nmNodeInfo,
    .youDoIt someEnv ⟨1, 0x55⟩, .frame someEnv (controller 9) .noScheme (completeFrame stepIdS0Inclusion 1),
    .nmSendReply someEnv [0x34, 0x02, 0x01, addNodeStatusDone], .nmEnds]

theorem twoSessions_handedOver : HandedOver (run twoSessions) :=
  handover_sound twoSessions (by decide)

/-- A third controller reports a proxy inclusion during the S0 step, which the SUC takes for its end; a
time-out ends the hand-over. -/
def overheardComplete : List Event :=
  [.requestHandover someEnv 7 false (some ⟨0, 0x55⟩), .txDone someEnv true,
    .frame someEnv (controller 1) .noScheme (initiateFrame 7 stepIdS0Inclusion),
    .frame someEnv (controller 3) .noScheme (completeFrame stepIdProxyInclusion stepOk)]

theorem handover_not_sound : ¬HandedOver (run overheardComplete) := by
  intro h
  have := h.fromPeer 3 1 (by decide)
  exact absurd this (by decide)

end ZipGateway.InclusionController

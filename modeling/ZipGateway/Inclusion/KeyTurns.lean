import ZipGateway.Inclusion.KeyRequests

/-!
# The search ends in every run

An event is processed from a state that keeps the invariant, with what its frame told; only a report for the
key that was asked for is taken together with the entry that notes it.
-/

namespace ZipGateway.Inclusion

variable {frame : Bytes} {src : Connection}

namespace Ctx

section Events

variable {env : Env} {fire : List Call → Ctx → Ctx} {s : Ctx}

def rowSearches : Transition → Bool
  | ⟨state, event, .none, new⟩ =>
    !(state = some .awaitingKexGet ∧ event = some .reject : Bool) || new = some .idle
  | ⟨state, event, .sendPubKeyB, _⟩ => state = some .awaitingKexSet ∧ event = some .kexSetRecv
  | ⟨state, event, .sendNetKeyGet, _⟩ =>
    state = some .echoKexSetSending ∧ event = some .echoKexReportRecv ∨
      state = some .keyExchanged ∧ event = some .transferEndRecv
  | ⟨state, event, .sendNetKeyVerify, _⟩ => state = some .awaitingNetKeyReport ∧ event = some .netKeyReportRecv
  | ⟨state, event, .sendFinalTransferEnd, _⟩ =>
    state = some .awaitingNetKeyReport ∧ event = some .noKeysGranted ∨
      state = some .keyExchanged ∧ event = some .sendFinalTransferEnd
  | ⟨state, _, .resendData, _⟩ =>
    state = some .awaitingNetKeyReport ∨ state = some .keyExchanged ∨ state = some .sendingFinalTransferEnd ∨
      (state.any State.sendsAgain : Bool)
  | _ => true

theorem rowSearches_of_mem : ∀ row ∈ transitionTable, rowSearches row := by
  decide

theorem rowSearches_findTransition (state : State) (event : Event) : rowSearches (findTransition state event) :=
  rowSearches_of_mem _ (findTransition_spec state event).1

def Due (s : Ctx) : Event → Prop
  | .kexSetRecv => s.state = .awaitingKexSet → s.buf 5 = grantedKeys s.log
  | .echoKexReportRecv => s.state = .echoKexSetSending → searchFrom s.log = some s.keyExchange
  | .transferEndRecv => s.state = .keyExchanged →
    searchFrom s.log = some s.keyExchange ∧ (0 - s.keyExchange) &&& s.keyGranted ≠ 0
  | .sendFinalTransferEnd => s.state = .keyExchanged → (0 - s.keyExchange) &&& s.keyGranted = 0
  | .joiningStart => s.state = .idle → Begun s.log
  | .netKeyReportRecv | .noKeysGranted => s.state ≠ .awaitingNetKeyReport
  | _ => True

theorem turn_of_state (h : KeepsTurn s.progress) {state : State} (hs : s.state = state) : Turn s.progress state := by
  have hturn : Turn s.progress s.state := h.turn
  rwa [hs] at hturn

theorem command_of_sendsAgain (h : KeepsTurn s.progress) {state : State} (hs : s.state = state)
    (hagain : state.sendsAgain) : s.inclusionBuf 1 ≠ networkKeyGet := by
  have hturn := turn_of_state h hs
  cases state <;> first | exact hturn | cases hagain

theorem lowest_left (granted : UInt8) : (0 - 1) &&& granted = granted := by
  exact UInt8.neg_one_and

/-- `echoKexReportRecv` finds the lowest bit in `key_exchange`, `transferEndRecv` a bit with a granted key above. -/
theorem keepsTurn_search (hf : FireKeepsTurn fire) (h : KeepsTurn s.progress) (hbetween : Between s.progress)
    (hfrom : searchFrom s.log = some s.keyExchange)
    (hleft : s.keyGranted ≠ 0 → (0 - s.keyExchange) &&& s.keyGranted ≠ 0) :
    KeepsTurn ((s.withState .awaitingNetKeyReport).sendNetKeyGet env fire (process env fire 2)).progress := by
  refine keepsTurn_sendNetKeyGet (s := s.withState .awaitingNetKeyReport) hf 0 rfl h.requests ?_ hfrom hleft
  exact ⟨hbetween.1, hbetween.2, hbetween.3, hbetween.4⟩

theorem keepsTurn_event (hf : FireKeepsTurn fire) (h : KeepsTurn s.progress) {event : Event} (hdue : s.Due event) :
    KeepsTurn (s.processEvent env fire event).progress := by
  obtain ⟨-, hstate, hevent⟩ := findTransition_spec s.state event
  have hcredible := findTransition_credible s.state event
  have hsearches := rowSearches_findTransition s.state event
  rw [processEvent_eq]
  generalize findTransition s.state event = row at *
  obtain ⟨state, event', action, new⟩ := row
  have hfrom : ∀ x, state = some x → s.state = x := by
    rintro x rfl
    have hx : x = s.state := by simpa using hstate
    exact hx.symm
  have hby : ∀ e, event' = some e → event = e := by
    rintro e rfl
    have he : e = event := by simpa using hevent
    exact he.symm
  have hrequests : RequestsInTurn s.log := h.requests
  have hfree : ∀ x : State, x.isFree → KeepsTurn (s.withState x).progress := fun x hx => .of_free hrequests hx
  clear hstate hevent
  cases action <;> simp only [Transition.credible, decide_eq_true_eq, rowSearches] at hcredible hsearches
  case none =>
    rcases hcredible with rfl | ⟨rfl, hsome⟩ | ⟨-, rfl⟩ | ⟨hstate, hreject⟩
    · exact h
    · obtain ⟨x, rfl⟩ := Option.ne_none_iff_exists'.mp hsome
      have hsame : s.enter (some x) = s := by
        rw [← hfrom x rfl]
        rfl
      change KeepsTurn (s.enter (some x)).progress
      rw [hsame]
      exact h
    · exact hfree .errorSent rfl
    · have hidle : new = some .idle := by simpa [hstate, hreject] using hsearches
      rw [hidle]
      exact hfree .idle rfl
  case abort =>
    subst hcredible
    exact keepsTurn_inclusionFailedEvtPush (s := s.withState .idle) hf hrequests rfl _
  case remoteError =>
    subst hcredible
    exact keepsTurn_inclusionFailedEvtPush (s := s.withState .idle) hf hrequests rfl _
  case resendFrame =>
    subst hcredible
    exact keepsTurn_inclusionSendFrame h
  case resendData =>
    subst hcredible
    refine keepsTurn_inclusionSendData hf fun result => keepsTurn_sent h (fun hother => ?_) result
    rcases hsearches with hstate | hstate | hstate | hstate
    · exact absurd (hfrom _ hstate) hother
    · exact (turn_of_state h (hfrom _ hstate)).2
    · exact (turn_of_state h (hfrom _ hstate)).2
    · cases state with
      | none => cases hstate
      | some x => exact command_of_sendsAgain h (hfrom x rfl) hstate
  case sendKexGet =>
    obtain ⟨-, -, rfl⟩ := hcredible
    exact keepsTurn_sendKexGet (hfree .awaitingKexReport rfl)
  case kexRepRecv =>
    obtain ⟨-, -, rfl⟩ := hcredible
    exact keepsTurn_kexRepRecv hf 1 rfl hrequests
  case sendKexSet =>
    obtain ⟨-, -, rfl⟩ := hcredible
    exact keepsTurn_sendKexSet (hfree .awaitingPubKeyB rfl)
  case sendPubKeyA =>
    obtain ⟨-, -, rfl⟩ := hcredible
    exact keepsTurn_sendPubKeyA hf (hfree .awaitingUserAccept rfl)
  case doEcdhCalcA =>
    obtain ⟨-, -, rfl⟩ := hcredible
    exact (hfree .awaitingEchoKexSet rfl).carry rfl rfl rfl rfl (.inl ⟨rfl, rfl⟩)
  case sendEchoKexReport =>
    obtain ⟨-, -, rfl⟩ := hcredible
    exact keepsTurn_sendEchoKexReport hf 1 rfl hrequests
  case sendErrorCancel =>
    obtain ⟨-, rfl⟩ := hcredible
    exact keepsTurn_sendError env fire hrequests _
  case sendErrorDecrypt =>
    obtain ⟨-, rfl⟩ := hcredible
    exact keepsTurn_sendError env fire hrequests _
  case sendNetKeyReport =>
    obtain ⟨-, -, rfl⟩ := hcredible
    exact keepsTurn_sendNetKeyReport hf 1 rfl hrequests
  case sendTransferEnd =>
    obtain ⟨-, ⟨-, rfl⟩ | ⟨-, rfl⟩⟩ := hcredible
    · exact keepsTurn_sendTransferEnd hf rfl hrequests
    · exact keepsTurn_sendTransferEnd hf rfl hrequests
  case inclusionComplete =>
    obtain ⟨-, rfl⟩ := hcredible
    exact keepsTurn_inclusionComplete hf rfl hrequests
  case checkNoKeys =>
    obtain ⟨-, rfl⟩ := hcredible
    exact keepsTurn_checkNoKeys hf rfl hrequests
  case joiningStart =>
    obtain ⟨hstate, hstart, rfl⟩ := hcredible
    obtain rfl := hby _ hstart
    exact ⟨hrequests, hdue (hfrom _ hstate)⟩
  case timeoutTb1Set =>
    obtain ⟨hstate, rfl⟩ := hcredible
    have hsame : s.enter (some .awaitingKexGet) = s := by
      rw [← hfrom _ hstate]
      rfl
    change KeepsTurn (s.enter (some .awaitingKexGet)).progress
    rw [hsame]
    exact h
  case sendKexReport =>
    obtain ⟨hstate, rfl⟩ := hcredible
    exact keepsTurn_sendKexReport (s := s.withState .awaitingKexSet) hf ⟨hrequests, turn_of_state h (hfrom _ hstate)⟩
  case sendPubKeyB =>
    obtain ⟨hstate, rfl⟩ := hcredible
    obtain rfl := hby _ hsearches.2
    exact keepsTurn_sendPubKeyB (s := s.withState .awaitingPubKeyA) 1 rfl hrequests
      (turn_of_state h (hfrom _ hstate)) (hdue (hfrom _ hstate))
  case pubKeyARecv =>
    obtain ⟨hstate, rfl⟩ := hcredible
    obtain ⟨hbetween, hexchange⟩ := turn_of_state h (hfrom _ hstate)
    exact keepsTurn_pubKeyARecv (s := s.withState .awaitingUserAAccept) hf
      ⟨hrequests, ⟨hbetween.1, hbetween.2, hbetween.3, hbetween.4⟩, hexchange⟩
  case doEcdhCalcB =>
    obtain ⟨hstate, rfl⟩ := hcredible
    obtain ⟨hbetween, hexchange⟩ := turn_of_state h (hfrom _ hstate)
    exact keepsTurn_doEcdhCalcB (s := s.withState .echoKexSetSending) hf
      ⟨hrequests, ⟨hbetween.1, hbetween.2, hbetween.3, hbetween.4⟩, hexchange⟩
  case sendEchoKexSet =>
    obtain ⟨hstate, rfl⟩ := hcredible
    obtain ⟨hbetween, hexchange⟩ := turn_of_state h (hfrom _ hstate)
    exact keepsTurn_sendEchoKexSet (s := s.withState .echoKexSetSending) hf
      ⟨hrequests, ⟨hbetween.1, hbetween.2, hbetween.3, hbetween.4⟩, hexchange⟩
  case sendNetKeyGet =>
    obtain ⟨-, rfl⟩ := hcredible
    rcases hsearches with ⟨hstate, hevent⟩ | ⟨hstate, hevent⟩
    · obtain rfl := hby _ hevent
      obtain ⟨hbetween, hexchange⟩ := turn_of_state h (hfrom _ hstate)
      refine keepsTurn_search hf h hbetween (hdue (hfrom _ hstate)) fun hgranted => ?_
      have hone : s.keyExchange = 1 := hexchange
      rw [hone, lowest_left]
      exact hgranted
    · obtain rfl := hby _ hevent
      obtain ⟨hbetween, -⟩ := turn_of_state h (hfrom _ hstate)
      obtain ⟨hnewest, hleft⟩ := hdue (hfrom _ hstate)
      exact keepsTurn_search hf h hbetween hnewest fun _ => hleft
  case sendNetKeyVerify =>
    obtain ⟨hstate, hevent⟩ := hsearches
    obtain rfl := hby _ hevent
    exact absurd (hfrom _ hstate) hdue
  case sendFinalTransferEnd =>
    obtain ⟨-, rfl⟩ := hcredible
    rcases hsearches with ⟨hstate, hevent⟩ | ⟨hstate, hevent⟩
    · obtain rfl := hby _ hevent
      exact absurd (hfrom _ hstate) hdue
    · obtain rfl := hby _ hevent
      obtain ⟨hbetween, -⟩ := turn_of_state h (hfrom _ hstate)
      refine keepsTurn_sendFinalTransferEnd (s := s.withState .sendingFinalTransferEnd) hf 1 rfl hrequests ?_
      exact hbetween.finished (hdue (hfrom _ hstate))
  case joiningComplete =>
    obtain ⟨hstate, rfl⟩ := hcredible
    exact keepsTurn_joiningComplete hf hrequests (turn_of_state h (hfrom _ hstate)).1
  case joiningNeverStarted =>
    obtain ⟨-, rfl⟩ := hcredible
    refine keepsTurn_evtHandler hf ?_ ?_
    · exact (hfree .idle rfl).carry rfl rfl rfl rfl (.inl ⟨rfl, rfl⟩)
    · simp

end Events

section Calls

variable {env : Env} {fire : List Call → Ctx → Ctx} {s : Ctx}

theorem keepsTurn_idle (h : RequestsInTurn s.log) (hs : s.state = .idle) : KeepsTurn s.progress := by
  refine .of_free h ?_
  change s.state.isFree
  rw [hs]
  rfl

/-- A yes of the user with the keys to grant; where none is waited for it ends the joining. -/
theorem keepsTurn_accept (hf : FireKeepsTurn fire) (h : RequestsInTurn s.log)
    (hwaits : s.state = .awaitingUserAAccept → Between s.progress ∧ s.keyExchange = 1) :
    KeepsTurn (s.processEvent env fire .accept).progress := by
  by_cases hidle : s.state = .idle
  · exact keepsTurn_event hf (keepsTurn_idle h hidle) trivial
  by_cases hkey : s.state = .awaitingKeyUserAccept
  · refine keepsTurn_event hf (.of_free h ?_) trivial
    change s.state.isFree
    rw [hkey]
    rfl
  by_cases huser : s.state = .awaitingUserAccept
  · refine keepsTurn_event hf (.of_free h ?_) trivial
    change s.state.isFree
    rw [huser]
    rfl
  by_cases huserA : s.state = .awaitingUserAAccept
  · refine keepsTurn_event hf ⟨h, ?_⟩ trivial
    change Turn _ s.state
    rw [huserA]
    exact hwaits huserA
  · rw [processEvent_eq, findTransition_accept hkey huser huserA hidle]
    exact keepsTurn_inclusionFailedEvtPush (s := s.withState .idle) hf h rfl _

theorem keepsTurn_keyGrant (hf : FireKeepsTurn fire) (h : KeepsTurn s.progress) (accept keys csa : UInt8) :
    KeepsTurn (s.keyGrant env fire accept keys csa).progress := by
  have hnoted : RequestsInTurn (.keyGrant s.state accept keys csa :: s.log) := h.requests.cons rfl (by simp)
  unfold keyGrant
  split_ifs with haccept
  · refine keepsTurn_accept hf hnoted fun hwaits => ?_
    obtain ⟨hbetween, hone⟩ := turn_of_state h hwaits
    have hexchange : s.keyExchange = 1 := hone
    have htaken : takenKeys s.log = 0 := by
      have htaken : takenKeys s.log = s.keyGranted &&& (s.keyExchange - 1) := hbetween.taken
      rw [htaken, hexchange]
      exact UInt8.and_zero
    have htaken' : takenKeys (.keyGrant s.state accept keys csa :: s.log) = 0 := by
      rw [takenKeys_cons (by simp), htaken]
      exact UInt8.or_zero
    refine ⟨⟨?_, hbetween.exchange, ?_, ?_⟩, hexchange⟩
    · change keys = grantedKeys (.keyGrant s.state accept keys csa :: s.log)
      have hstate : s.state = .awaitingUserAAccept := hwaits
      rw [grantedKeys, if_neg (by simp), Entry.grants?, if_pos ⟨hstate, haccept⟩, Option.getD_some]
    · change takenKeys (.keyGrant s.state accept keys csa :: s.log) = keys &&& (s.keyExchange - 1)
      rw [htaken', hexchange]
      exact UInt8.and_zero.symm
    · change requestedKeys (.keyGrant s.state accept keys csa :: s.log) =
        keysOf (takenKeys (.keyGrant s.state accept keys csa :: s.log))
      have hrequested : requestedKeys s.log = keysOf (takenKeys s.log) := hbetween.requested
      rw [requestedKeys_cons (by simp) rfl, htaken', hrequested, htaken]
  · refine keepsTurn_event hf ?_ trivial
    refine h.note ⟨by simp, rfl, ?_, rfl, by simp⟩ fun _ => rfl
    rw [Entry.grants?, if_neg fun hboth => haccept hboth.2]

theorem keepsTurn_challengeResponse (hf : FireKeepsTurn fire) (h : KeepsTurn s.progress) (accept : UInt8)
    (response : Bytes) : KeepsTurn (s.challengeResponse env fire accept response).progress := by
  have hnoted : KeepsTurn (s.note (.challenge s.state accept)).progress :=
    h.note ⟨by simp, rfl, rfl, rfl, by simp⟩ fun _ => rfl
  unfold challengeResponse
  split_ifs
  · refine keepsTurn_event hf ?_ trivial
    exact hnoted
  · exact keepsTurn_event hf hnoted trivial

theorem keepsTurn_includingStart (hf : FireKeepsTurn fire) (h : KeepsTurn s.progress) (conn : Connection) :
    KeepsTurn (s.includingStart env fire conn).progress := by
  unfold includingStart
  split_ifs with hidle
  · refine keepsTurn_event hf ?_ trivial
    have hnoted : KeepsTurn (s.note .started).progress := h.note ⟨by simp, rfl, rfl, rfl, by simp⟩ fun _ => rfl
    exact hnoted.carry rfl rfl rfl rfl (.inl ⟨rfl, rfl⟩)
  · exact h

theorem begun_joined (log : List Entry) : Begun (.joined :: log) :=
  ⟨rfl, rfl⟩

theorem keepsTurn_joiningStartCall (hf : FireKeepsTurn fire) (h : KeepsTurn s.progress) (conn : Connection)
    (csa : UInt8) : KeepsTurn (s.joiningStartCall env fire conn csa).progress := by
  have hstart : ∀ t : Ctx, KeepsTurn t.progress → (t.state = .idle → Begun t.log) →
      KeepsTurn (t.processEvent env fire .joiningStart).progress :=
    fun t ht hbegun => keepsTurn_event hf ht hbegun
  unfold joiningStartCall
  dsimp only
  by_cases hidle : s.state = .idle
  · have hnoted : KeepsTurn (s.note .joined).progress := keepsTurn_idle (h.requests.cons rfl (by simp)) hidle
    rw [if_pos hidle]
    split_ifs
    all_goals
      refine hstart _ ?_ fun _ => ?_
      · exact hnoted.carry rfl rfl rfl rfl (.inl ⟨rfl, rfl⟩)
      · exact begun_joined s.log
  · rw [if_neg hidle]
    split_ifs
    all_goals
      refine hstart _ ?_ fun hidle' => ?_
      · exact h.carry rfl rfl rfl rfl (.inl ⟨rfl, rfl⟩)
      · exact absurd hidle' hidle

def FrameTells (s : Ctx) : Event → Prop
  | .kexSetRecv => s.buf 1 = kexSet
  | .netKeyReportRecv => s.buf 1 = networkKeyReport
  | .transferEndRecv => (0 - s.keyExchange) &&& s.keyGranted ≠ 0
  | .sendFinalTransferEnd => (0 - s.keyExchange) &&& s.keyGranted = 0
  | .noKeysGranted | .joiningStart => False
  | _ => True

theorem frameTells_frameEvent : s.FrameTells s.frameEvent := by
  unfold frameEvent
  dsimp only
  split
  · exact True.intro
  split
  · split <;> exact True.intro
  split
  · next hset =>
    split
    · exact True.intro
    · exact hset
  split
  · exact True.intro
  split
  · split <;> exact True.intro
  split
  · exact True.intro
  split
  · next hreport => exact hreport
  split
  · split <;> exact True.intro
  split
  · split
    · next hleft => exact hleft
    · next hnone => exact not_not.mp hnone
  · exact True.intro

theorem keepsTurn_received (h : KeepsTurn s.progress)
    (hother : ¬(s.state = .awaitingNetKeyReport ∧ frame.getD 1 0 = networkKeyReport)) :
    KeepsTurn { s.progress with log := .received s.state s.keyRequested s.keyExchange src frame :: s.log } := by
  generalize he : Entry.received s.state s.keyRequested s.keyExchange src frame = e
  have hbegins : e ≠ .joined := by rw [← he]; simp
  have hasks : e.asked? = none := by rw [← he]; rfl
  have htakes : e.takes = 0 := by
    rw [← he, Entry.takes, if_neg]
    exact fun hall => hother ⟨hall.1, hall.2.1⟩
  have hcompletes : ∀ peer keys, e ≠ .event (.joiningComplete peer keys) := by rw [← he]; simp
  by_cases hset : s.state = .awaitingKexSet
  · have hbegun : Begun s.log := turn_of_state h hset
    refine ⟨h.requests.cons hasks (fun peer keys hc => absurd hc (hcompletes peer keys)), ?_⟩
    change Turn _ s.state
    rw [hset]
    refine ⟨?_, ?_⟩
    · exact (requestedKeys_cons hbegins hasks).trans hbegun.requested
    · change takenKeys (e :: s.log) = 0
      rw [takenKeys_cons hbegins, hbegun.taken, htakes, UInt8.or_zero]
  · refine h.note ⟨hbegins, hasks, ?_, htakes, hcompletes⟩ fun hstate => ?_
    · rw [← he, Entry.grants?, if_neg fun hboth => hset hboth.1]
    · have hstate' : s.state = .awaitingNetKeyReport := hstate
      rw [← he, Entry.searchesFrom?, hstate']
      rfl

theorem keepsTurn_postEventInternal (hf : FireKeepsTurn fire) (h : KeepsTurn s.progress)
    {before : List Entry} (hbuf : s.buf = Mem.ofBytes frame)
    (hlog : s.log = .received s.state s.keyRequested s.keyExchange src frame :: before)
    (hother : ¬(s.state = .awaitingNetKeyReport ∧ frame.getD 1 0 = networkKeyReport)) :
    KeepsTurn (s.postEventInternal env fire).progress := by
  unfold postEventInternal
  dsimp only
  split_ifs with hskip hlength haccepted
  · exact h
  · exact keepsTurn_event hf h trivial
  · refine keepsTurn_event hf h ?_
    have hcommand : frame.getD 1 0 = s.buf 1 := (congrFun hbuf 1).symm
    have hkeys : frame.getD 5 0 = s.buf 5 := (congrFun hbuf 5).symm
    have htells := frameTells_frameEvent (s := s)
    have hfrom : s.state.searches → searchFrom s.log = some s.keyExchange := by
      intro hsearches
      rw [hlog, searchFrom_cons, Entry.searchesFrom?, if_pos hsearches]
    generalize s.frameEvent = event at htells
    cases event
    case kexSetRecv =>
      intro hstate
      have hset : s.buf 1 = kexSet := htells
      rw [hlog, grantedKeys, if_neg (by simp), Entry.grants?, if_pos ⟨hstate, hcommand.trans hset⟩,
        Option.getD_some, hkeys]
    case echoKexReportRecv =>
      intro hstate
      exact hfrom (by rw [hstate]; rfl)
    case transferEndRecv =>
      intro hstate
      exact ⟨hfrom (by rw [hstate]; rfl), htells⟩
    case sendFinalTransferEnd => exact fun _ => htells
    case netKeyReportRecv => exact fun hstate => hother ⟨hstate, hcommand.trans htells⟩
    case noKeysGranted => exact htells.elim
    case joiningStart => exact htells.elim
    all_goals exact True.intro
  · have hidle : s.state ≠ .idle := fun hs => hskip (.inr hs)
    exact keepsTurn_errorWasSent 2 h.requests hidle _

theorem frameEvent_report (h : s.buf 1 = networkKeyReport) : s.frameEvent = .netKeyReportRecv := by
  unfold frameEvent
  rw [h]
  rfl

theorem keepsTurn_reported (hf : FireKeepsTurn fire) {t : Ctx} (h : KeepsTurn t.progress)
    (ht : t.state = .awaitingNetKeyReport) (hreport : frame.getD 1 0 = networkKeyReport)
    (hbuf : s.buf = Mem.ofBytes frame) (hlength : s.length = frame.length)
    (hclass : s.peer.classId = src.classId)
    (hprogress : s.progress = { t.progress with log := .received t.state t.keyRequested t.keyExchange src frame :: t.log }) :
    KeepsTurn (s.postEventInternal env fire).progress := by
  have hstate : s.state = .awaitingNetKeyReport := (congrArg Progress.state hprogress).trans ht
  have hlog : s.log = .received t.state t.keyRequested t.keyExchange src frame :: t.log :=
    congrArg Progress.log hprogress
  have hexchange : s.keyExchange = t.keyExchange := congrArg Progress.keyExchange hprogress
  have hgranted : s.keyGranted = t.keyGranted := congrArg Progress.keyGranted hprogress
  have hidle : s.state ≠ .idle := by rw [hstate]; decide
  have hrequests : RequestsInTurn s.log := by
    rw [hlog]
    exact h.requests.cons rfl (by simp)
  have hcommand : s.buf 1 = networkKeyReport := (congrFun hbuf 1).trans hreport
  have hrule : frameRule env (networkKeyReport - kexGet).toNat =
    ⟨19, singleRuleSupport, tempKeySlot, tempKeySlot⟩ := rfl
  unfold postEventInternal
  dsimp only
  rw [hcommand, hrule]
  split_ifs with hskip hshort haccepted
  · exact absurd (hskip.resolve_left (by decide)) hidle
  · exact keepsTurn_error hf 2 hrequests hidle
  · have hsecure : src.classId = tempKeySlot := by
      simpa [encryptionAccepted, cryptRule, singleRuleSupport, echoSupport, dualRuleSupport, tempKeySlot,
        networkKeySlot, hclass, eq_comm] using haccepted
    have hlong : 19 ≤ frame.length := by
      rw [← hlength]
      exact Nat.not_lt.mp hshort
    rw [frameEvent_report hcommand, processEvent_eq, hstate]
    refine keepsTurn_sendNetKeyVerify (s := s.withState .keyExchanged) hf 1 rfl (turn_of_state h ht) hexchange hgranted
      hlog hrequests (by simp) rfl ?_ fun hkey => ?_
    · rw [Entry.grants?, if_neg]
      rw [ht]
      simp
    · have hkey' : frame.getD 2 0 = t.keyExchange := ((congrFun hbuf 2).symm.trans hkey).trans hexchange
      rw [Entry.takes, if_pos ⟨ht, hreport, hlong, hsecure, hkey'⟩]
      rfl
  · exact keepsTurn_errorWasSent 2 hrequests hidle _

theorem keepsTurn_postPeerEvent (hf : FireKeepsTurn fire) (h : KeepsTurn s.progress)
    (hbuf : s.buf = Mem.ofBytes frame) (hlength : s.length = frame.length) :
    KeepsTurn (s.postPeerEvent env fire src frame).progress := by
  unfold postPeerEvent
  split_ifs
  · let t := (s.note (.received s.state s.keyRequested s.keyExchange src frame)).withPeer
      { s.peer with classId := src.classId }
    by_cases hreport : s.state = .awaitingNetKeyReport ∧ frame.getD 1 0 = networkKeyReport
    · have hclass : t.peer.classId = src.classId := rfl
      have hprogress : t.progress = { s.progress with
          log := .received s.state s.keyRequested s.keyExchange src frame :: s.log } := rfl
      exact keepsTurn_reported hf h hreport.1 hreport.2 hbuf hlength hclass hprogress
    · have ht : KeepsTurn t.progress := keepsTurn_received h hreport
      exact keepsTurn_postEventInternal hf ht hbuf rfl hreport
  · exact h

theorem keepsTurn_postEvent (hf : FireKeepsTurn fire) (h : KeepsTurn s.progress) (src : Connection)
    (frame : Bytes) : KeepsTurn (s.postEvent env fire src frame).progress := by
  let t : Ctx := { s with buf := Mem.ofBytes frame, length := frame.length }
  have ht : KeepsTurn t.progress := h
  unfold postEvent
  dsimp only
  split_ifs
  · exact ht
  · refine keepsTurn_postPeerEvent (s := t.withPeer src) hf ?_ rfl rfl
    exact ht.carry rfl rfl rfl rfl (.inl ⟨rfl, rfl⟩)
  · exact keepsTurn_postPeerEvent (s := t) hf ht rfl rfl

theorem keepsTurn_sendDone (hf : FireKeepsTurn fire) (h : KeepsTurn s.progress) (status : Bool) :
    KeepsTurn (s.sendDone env fire status).progress := by
  unfold sendDone
  split_ifs
  · refine keepsTurn_event hf ?_ trivial
    exact h
  all_goals exact keepsTurn_event hf h trivial

theorem keepsTurn_notifyTimeout (hf : FireKeepsTurn fire) (h : KeepsTurn s.progress) :
    KeepsTurn (s.notifyTimeout env fire).progress := by
  unfold notifyTimeout
  split_ifs
  all_goals exact keepsTurn_event hf h trivial

theorem keepsTurn_call (hf : FireKeepsTurn fire) (h : KeepsTurn s.progress) (c : Call) :
    KeepsTurn (s.call env fire c).progress := by
  cases c with
  | init schemes curves keys =>
    simp only [call, init]
    split_ifs <;> exact h
  | includingStart conn => exact keepsTurn_includingStart hf h conn
  | joiningStart conn csa => exact keepsTurn_joiningStartCall hf h conn csa
  | keyGrant accept keys csa => exact keepsTurn_keyGrant hf h accept keys csa
  | challengeResponse accept response => exact keepsTurn_challengeResponse hf h accept response
  | neighborDiscoveryComplete => exact keepsTurn_event hf h trivial
  | abort =>
    have hnoted : KeepsTurn (s.note (.aborted s.state)).progress :=
      h.note ⟨by simp, rfl, rfl, rfl, by simp⟩ fun _ => rfl
    exact keepsTurn_event hf hnoted trivial
  | postEvent src frame => exact keepsTurn_postEvent hf h src frame
  | notifyTimeout => exact keepsTurn_notifyTimeout hf h
  | sendDone status => exact keepsTurn_sendDone hf h status
  | decryptionFailure src =>
    simp only [call, decryptionFailure]
    split_ifs
    · exact keepsTurn_event hf h trivial
    · exact h
  | restoreKeys => exact h.carry rfl rfl rfl rfl (.inl ⟨rfl, rfl⟩)
  | commandsSupportedGet classes => exact keepsTurn_prepare h (by decide) _ _

end Calls

section Runs

variable (env : Env) (depth : Nat) (keystore : UInt8 → Option Bytes) (calls : List Call)

theorem keepsTurn_foldl {f : Ctx → Call → Ctx} (hf : ∀ s c, KeepsTurn s.progress → KeepsTurn (f s c).progress)
    (calls : List Call) {s : Ctx} (h : KeepsTurn s.progress) : KeepsTurn (calls.foldl f s).progress := by
  induction calls generalizing s with
  | nil => exact h
  | cons c calls ih => exact ih (hf s c h)

theorem keepsTurn_fire : FireKeepsTurn (fire env depth) := by
  let R : List Call → Ctx → Ctx → Prop := fun _ s t => KeepsTurn s.progress → KeepsTurn t.progress
  have hR : ∀ calls s, R calls s (fire env depth calls s) := by
    refine Machine.reenterWith_rule (fun _ _ h => h) ?_ depth
    intro callback hcallback calls s h
    have hstep : ∀ (t : Ctx) c, KeepsTurn t.progress → KeepsTurn (t.call env callback c).progress :=
      fun t c ht => keepsTurn_call (fun calls t => hcallback calls t) ht c
    exact keepsTurn_foldl hstep calls h
  exact hR

theorem keepsTurn_start : KeepsTurn (Ctx.start keystore).progress :=
  .of_free trivial rfl

theorem keepsTurn_run : KeepsTurn (Ctx.run env depth (Ctx.start keystore) calls).progress :=
  keepsTurn_foldl (fun _ c ht => keepsTurn_call (keepsTurn_fire env depth) ht c) calls (keepsTurn_start keystore)

end Runs

end Ctx

/-- Whatever frame comes next, if it makes `s2_send_net_key_get` run and a key was granted, the loop ends with
the lowest key that is left. -/
def SearchesOn (s : Ctx) : Prop :=
  ∀ frame : Bytes, (findTransition s.state { s with buf := Mem.ofBytes frame }.frameEvent).action = .sendNetKeyGet →
    s.keyGranted ≠ 0 → ∃ key, SearchLoop s.keyGranted s.keyExchange key ∧ LowestLeft s.keyGranted (takenKeys s.log) key

/-- The loop is going to end, and every time it ran it ended; the keys were asked for in their turn. -/
structure SearchesInTurn (s : Ctx) : Prop where
  next : SearchesOn s
  requests : RequestsInTurn s.log

theorem lowestLeft_of_between {o : Progress} (h : Between o) (hleft : (0 - o.keyExchange) &&& o.keyGranted ≠ 0) :
    ∃ key, SearchLoop o.keyGranted o.keyExchange key ∧ LowestLeft o.keyGranted (takenKeys o.log) key := by
  obtain ⟨hbit, hoffered, hpassed⟩ := nextGranted_spec h.exchange hleft
  refine ⟨_, searchLoop_nextGranted _ 8 _ hoffered, single_of_mem _ hbit, hoffered, ?_, ?_⟩
  · rw [h.taken, ← hpassed]
    exact and_below hbit
  · rw [h.taken, hpassed, UInt8.and_not_self]

theorem searchesOn_of_keepsTurn {s : Ctx} (h : KeepsTurn s.progress) : SearchesOn s := by
  intro frame haction hgranted
  have htells := Ctx.frameTells_frameEvent (s := { s with buf := Mem.ofBytes frame })
  generalize Ctx.frameEvent { s with buf := Mem.ofBytes frame } = event at haction htells
  obtain ⟨-, hstate, hevent⟩ := findTransition_spec s.state event
  have hsearches := Ctx.rowSearches_findTransition s.state event
  generalize findTransition s.state event = row at *
  obtain ⟨state, event', action, new⟩ := row
  obtain rfl : action = .sendNetKeyGet := haction
  simp only [Ctx.rowSearches, decide_eq_true_eq] at hsearches
  rcases hsearches with ⟨rfl, -⟩ | ⟨rfl, rfl⟩
  · have hs : s.state = .echoKexSetSending := by simpa [eq_comm] using hstate
    obtain ⟨hbetween, hexchange⟩ := Ctx.turn_of_state h hs
    refine lowestLeft_of_between hbetween ?_
    rw [hexchange, Ctx.lowest_left]
    exact hgranted
  · have hs : s.state = .keyExchanged := by simpa [eq_comm] using hstate
    obtain rfl : Event.transferEndRecv = event := by simpa using hevent
    exact lowestLeft_of_between (Ctx.turn_of_state h hs).1 htells

/-- In every run the search ends with the lowest key that is left, and a joining that is completed has asked for
every granted key once, in ascending order. -/
theorem searchesInTurn_run (env : Env) (depth : Nat) (keystore : UInt8 → Option Bytes) (calls : List Call) :
    SearchesInTurn (Ctx.run env depth (Ctx.start keystore) calls) :=
  have hrun := Ctx.keepsTurn_run env depth keystore calls
  ⟨searchesOn_of_keepsTurn hrun, hrun.requests⟩

end ZipGateway.Inclusion

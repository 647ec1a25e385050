import ZipGateway.Inclusion.KeySearch

/-!
# Every granted key is asked for once

The invariant says, state by state, how `key_granted` and `key_exchange` stand to the keys that were granted,
taken and asked for, and what the buffer of the next frame holds.
-/

namespace ZipGateway.Inclusion

structure Begun (log : List Entry) : Prop where
  requested : requestedKeys log = []
  taken : takenKeys log = 0

structure Between (o : Progress) : Prop where
  granted : o.keyGranted = grantedKeys o.log
  exchange : o.keyExchange ∈ exchanges
  taken : takenKeys o.log = o.keyGranted &&& (o.keyExchange - 1)
  requested : requestedKeys o.log = keysOf (takenKeys o.log)

/-- The key of `key_exchange` was asked for, and the frame is in the buffer unless it was overwritten. -/
structure Asking (o : Progress) : Prop where
  granted : o.keyGranted = grantedKeys o.log
  exchange : o.keyExchange ∈ Byte.bits
  offered : o.keyExchange &&& o.keyGranted ≠ 0
  taken : takenKeys o.log = o.keyGranted &&& (o.keyExchange - 1)
  requested : requestedKeys o.log = keysOf (takenKeys o.log) ++ [o.keyExchange]
  buffer : o.command = networkKeyGet → o.key = o.keyExchange
  settled : searchFrom o.log = none

def Turn (o : Progress) : State → Prop
  | .awaitingKexGet | .awaitingKexSet => Begun o.log
  | .awaitingPubKeyA | .awaitingUserAAccept | .echoKexSetSending => Between o ∧ o.keyExchange = 1
  | .awaitingNetKeyReport => Asking o
  | .keyExchanged => Between o ∧ o.command ≠ networkKeyGet
  | .sendingFinalTransferEnd => Finished o.log ∧ o.command ≠ networkKeyGet
  | .awaitingNetKeyGet | .awaitingNetKeyVerify | .awaitingTransferEnd => o.command ≠ networkKeyGet
  | _ => True

structure KeepsTurn (o : Progress) : Prop where
  requests : RequestsInTurn o.log
  turn : Turn o o.state

def State.isFree : State → Bool
  | .idle | .awaitingKexReport | .awaitingKeyUserAccept | .awaitingPubKeyB | .awaitingUserAccept
  | .pendingEchoKexReport | .awaitingEchoKexSet | .awaitingEchoKexReport | .errorSent => true
  | _ => false

theorem KeepsTurn.of_free {o : Progress} (h : RequestsInTurn o.log) (hstate : o.state.isFree) : KeepsTurn o := by
  refine ⟨h, ?_⟩
  unfold Turn
  cases hs : o.state <;> rw [hs] at hstate <;> trivial

def State.sendsAgain : State → Bool
  | .awaitingNetKeyGet | .awaitingNetKeyVerify | .awaitingTransferEnd => true
  | _ => false

theorem KeepsTurn.of_including {o : Progress} (h : RequestsInTurn o.log) (hstate : o.state.sendsAgain)
    (hcommand : o.command ≠ networkKeyGet) : KeepsTurn o := by
  refine ⟨h, ?_⟩
  unfold Turn
  cases hs : o.state
  case awaitingNetKeyGet => exact hcommand
  case awaitingNetKeyVerify => exact hcommand
  case awaitingTransferEnd => exact hcommand
  all_goals
    rw [hs] at hstate
    cases hstate

section Notes

variable {o : Progress} {e : Entry}

theorem Begun.aside (h : Begun o.log) (he : e.Aside) : Begun (e :: o.log) where
  requested := by rw [requestedKeys_cons he.begins he.asks, h.requested]
  taken := by rw [takenKeys_cons he.begins, h.taken, he.takes, UInt8.or_zero]

theorem Between.aside (h : Between o) (he : e.Aside) : Between { o with log := e :: o.log } := by
  have htaken : takenKeys (e :: o.log) = takenKeys o.log := by
    rw [takenKeys_cons he.begins, he.takes, UInt8.or_zero]
  refine ⟨?_, h.exchange, ?_, ?_⟩
  · exact h.granted.trans (grantedKeys_cons he.begins he.grants).symm
  · exact htaken.trans h.taken
  · change requestedKeys (e :: o.log) = keysOf (takenKeys (e :: o.log))
    rw [htaken, requestedKeys_cons he.begins he.asks, h.requested]

theorem Asking.aside (h : Asking o) (he : e.Aside) (hsettled : e.searchesFrom? = none) :
    Asking { o with log := e :: o.log } := by
  have htaken : takenKeys (e :: o.log) = takenKeys o.log := by
    rw [takenKeys_cons he.begins, he.takes, UInt8.or_zero]
  refine ⟨?_, h.exchange, h.offered, ?_, ?_, h.buffer, hsettled⟩
  · exact h.granted.trans (grantedKeys_cons he.begins he.grants).symm
  · exact htaken.trans h.taken
  · change requestedKeys (e :: o.log) = keysOf (takenKeys (e :: o.log)) ++ [o.keyExchange]
    rw [htaken, requestedKeys_cons he.begins he.asks, h.requested]

theorem Between.finished (h : Between o) (hnone : (0 - o.keyExchange) &&& o.keyGranted = 0) : Finished o.log := by
  have htaken : takenKeys o.log = grantedKeys o.log := by
    rw [h.taken, none_left h.exchange hnone, h.granted]
  exact ⟨by rw [h.requested, htaken], htaken⟩

theorem Asking.take {o' : Progress} (h : Asking o) (hbegins : e ≠ .joined) (hasks : e.asked? = none)
    (hgrants : e.grants? = none) (htakes : e.takes = o.keyExchange) (hgranted : o'.keyGranted = o.keyGranted)
    (hexchange : o'.keyExchange = o.keyExchange <<< 1) (hlog : o'.log = e :: o.log) : Between o' := by
  have htaken : takenKeys (e :: o.log) = takenKeys o.log ||| o.keyExchange := by
    rw [takenKeys_cons hbegins, htakes]
  have hbelow : takenKeys o.log &&& (o.keyExchange - 1) = takenKeys o.log := by
    rw [h.taken, UInt8.and_assoc, UInt8.and_self]
  refine ⟨?_, ?_, ?_, ?_⟩
  · rw [hgranted, hlog, grantedKeys_cons hbegins hgrants, h.granted]
  · rw [hexchange]
    exact shift_mem _ h.exchange
  · rw [hlog, htaken, hgranted, hexchange, h.taken]
    exact below_or h.exchange h.offered
  · rw [hlog, htaken, keysOf_or _ h.exchange _ hbelow, requestedKeys_cons hbegins hasks, h.requested]

theorem Finished.aside {log : List Entry} (h : Finished log) (he : e.Aside) : Finished (e :: log) where
  requested := by
    rw [requestedKeys_cons he.begins he.asks, grantedKeys_cons he.begins he.grants, h.requested]
  taken := by
    rw [takenKeys_cons he.begins, he.takes, UInt8.or_zero, grantedKeys_cons he.begins he.grants, h.taken]

theorem KeepsTurn.note (h : KeepsTurn o) (he : e.Aside)
    (hsettled : o.state = .awaitingNetKeyReport → e.searchesFrom? = none) :
    KeepsTurn { o with log := e :: o.log } := by
  refine ⟨h.requests.aside he, ?_⟩
  have hturn := h.turn
  unfold Turn at *
  dsimp only
  split at hturn
  · exact hturn.aside he
  · exact hturn.aside he
  · exact ⟨hturn.1.aside he, hturn.2⟩
  · exact ⟨hturn.1.aside he, hturn.2⟩
  · exact ⟨hturn.1.aside he, hturn.2⟩
  · next hs => exact hturn.aside he (hsettled hs)
  · exact ⟨hturn.1.aside he, hturn.2⟩
  · exact ⟨hturn.1.aside he, hturn.2⟩
  · exact hturn
  · exact hturn
  · exact hturn
  · trivial

theorem KeepsTurn.carry {o' : Progress} (h : KeepsTurn o) (hstate : o'.state = o.state)
    (hgranted : o'.keyGranted = o.keyGranted) (hexchange : o'.keyExchange = o.keyExchange)
    (hlog : o'.log = o.log)
    (hbuffer : o'.command = o.command ∧ o'.key = o.key ∨ o'.command ≠ networkKeyGet) : KeepsTurn o' := by
  have hcommand : o.command ≠ networkKeyGet → o'.command ≠ networkKeyGet := by
    rcases hbuffer with ⟨hsame, -⟩ | hother
    · exact fun hne => hsame ▸ hne
    · exact fun _ => hother
  have hbetween : Between o → Between o' := by
    rintro ⟨h₁, h₂, h₃, h₄⟩
    rw [← hgranted, ← hlog] at h₁ h₃
    rw [← hexchange] at h₂ h₃
    rw [← hlog] at h₄
    exact ⟨h₁, h₂, h₃, h₄⟩
  refine ⟨hlog ▸ h.requests, ?_⟩
  have hturn := h.turn
  unfold Turn at *
  rw [hstate]
  split at hturn
  · exact hlog ▸ hturn
  · exact hlog ▸ hturn
  · exact ⟨hbetween hturn.1, hexchange.trans hturn.2⟩
  · exact ⟨hbetween hturn.1, hexchange.trans hturn.2⟩
  · exact ⟨hbetween hturn.1, hexchange.trans hturn.2⟩
  · obtain ⟨h₁, h₂, h₃, h₄, h₅, hbuf, h₇⟩ := hturn
    rw [← hgranted, ← hlog] at h₁ h₄
    rw [← hexchange] at h₂ h₄ h₅
    rw [← hexchange, ← hgranted] at h₃
    rw [← hlog] at h₅ h₇
    refine ⟨h₁, h₂, h₃, h₄, h₅, fun hget => ?_, h₇⟩
    rcases hbuffer with ⟨hsame, hkey⟩ | hother
    · rw [hkey, hexchange]
      exact hbuf (hsame ▸ hget)
    · exact absurd hget hother
  · exact ⟨hbetween hturn.1, hcommand hturn.2⟩
  · exact ⟨hlog ▸ hturn.1, hcommand hturn.2⟩
  · exact hcommand hturn
  · exact hcommand hturn
  · exact hcommand hturn
  · trivial

end Notes

namespace Ctx

section Sending

variable {env : Env} {fire : List Call → Ctx → Ctx} {s : Ctx}

def FireKeepsTurn (fire : List Call → Ctx → Ctx) : Prop :=
  ∀ calls s, KeepsTurn s.progress → KeepsTurn (fire calls s).progress

theorem asked_prepared {con : Connection} {result : SendResult} {key : UInt8}
    (h : (Entry.sentData con s.prepared result).asked? = some key) :
    s.inclusionBuf 1 = networkKeyGet ∧ s.inclusionBuf 2 = key := by
  unfold Entry.asked? at h
  dsimp only at h
  split at h
  · next hcommand =>
    have hlength : 2 < s.inclusionBufLength := by
      have hlt := (List.getElem?_eq_some_iff.mp h).1
      rwa [prepared, Mem.length_slice] at hlt
    rw [prepared, Mem.getElem?_slice (by omega)] at hcommand h
    exact ⟨by simpa using hcommand, by simpa using h⟩
  · cases h

theorem keepsTurn_sent (h : KeepsTurn s.progress)
    (hbuffer : s.state ≠ .awaitingNetKeyReport → s.inclusionBuf 1 ≠ networkKeyGet) (result : SendResult) :
    KeepsTurn { s.progress with log := .sentData s.peer s.prepared result :: s.log } := by
  generalize he : Entry.sentData s.peer s.prepared result = e
  have hgrants : e.grants? = none := by rw [← he]; rfl
  have htakes : e.takes = 0 := by rw [← he]; rfl
  have hsettled : e.searchesFrom? = none := by rw [← he]; rfl
  have hbegins : e ≠ .joined := by rw [← he]; simp
  have hcompletes : ∀ peer keys, e ≠ .event (.joiningComplete peer keys) := by rw [← he]; simp
  by_cases hasks : e.asked? = none
  · exact h.note ⟨hbegins, hasks, hgrants, htakes, hcompletes⟩ fun _ => hsettled
  obtain ⟨key, hkey⟩ := Option.ne_none_iff_exists'.mp hasks
  obtain ⟨hcommand, hkey'⟩ : s.inclusionBuf 1 = networkKeyGet ∧ s.inclusionBuf 2 = key :=
    asked_prepared (he ▸ hkey)
  have hstate : s.state = .awaitingNetKeyReport := by
    by_contra hne
    exact hbuffer hne hcommand
  have hasking : Asking s.progress := by
    have hturn : Turn s.progress s.state := h.turn
    rw [hstate] at hturn
    exact hturn
  obtain rfl : key = s.keyExchange := hkey'.symm.trans (hasking.buffer hcommand)
  have hlast : (requestedKeys s.log).getLast? = some s.keyExchange := by
    have hrequested : requestedKeys s.log = _ := hasking.requested
    rw [hrequested, List.getLast?_concat]
    rfl
  have hleft : s.keyExchange &&& takenKeys s.log = 0 := by
    have htaken : takenKeys s.log = _ := hasking.taken
    rw [htaken]
    exact and_below hasking.exchange
  have hsame : requestedKeys (e :: s.log) = requestedKeys s.log := by
    have hnone : searchFrom s.log = none := hasking.settled
    rw [requestedKeys, if_neg hbegins, hkey, hnone]
  refine ⟨⟨fun key hkey' => ?_, fun peer keys hcomplete => absurd hcomplete (hcompletes peer keys), ?_, h.requests⟩, ?_⟩
  · obtain rfl : s.keyExchange = key := Option.some.inj (hkey.symm.trans hkey')
    have hnone : searchFrom s.log = none := hasking.settled
    simp only [hnone]
    exact ⟨hlast, hleft⟩
  · rw [hsame]
    exact h.requests.pairwise
  · change Turn _ s.state
    rw [hstate]
    have htaken : takenKeys (e :: s.log) = takenKeys s.log := by
      rw [takenKeys_cons hbegins, htakes, UInt8.or_zero]
    refine ⟨?_, hasking.exchange, hasking.offered, ?_, ?_, hasking.buffer, hsettled⟩
    · exact hasking.granted.trans (grantedKeys_cons hbegins hgrants).symm
    · exact htaken.trans hasking.taken
    · change requestedKeys (e :: s.log) = keysOf (takenKeys (e :: s.log)) ++ [s.keyExchange]
      rw [hsame, htaken]
      exact hasking.requested

theorem keepsTurn_inclusionSendFrame (h : KeepsTurn s.progress) : KeepsTurn (s.inclusionSendFrame env).progress := by
  rw [progress_inclusionSendFrame]
  refine h.note ⟨?_, rfl, rfl, rfl, ?_⟩ fun _ => rfl
  · simp
  · simp

theorem keepsTurn_prepare (h : KeepsTurn s.progress) {command : UInt8} (hcommand : command ≠ networkKeyGet)
    (cls : UInt8) (rest : Bytes) : KeepsTurn (s.prepare (cls :: command :: rest)).progress := by
  rw [progress_prepare]
  exact h.carry rfl rfl rfl rfl (.inr hcommand)

theorem keepsTurn_s2SendData (hf : FireKeepsTurn fire)
    (h : ∀ result, KeepsTurn { s.progress with log := .sentData s.peer s.prepared result :: s.log }) :
    KeepsTurn (s.s2SendData env fire).2.progress := by
  unfold s2SendData
  cases env.sendData s.nData with
  | accepted => exact h .accepted
  | refused => exact h .refused
  | failed =>
    let t : Ctx := { s with nData := s.nData + 1, log := .sentData s.peer s.prepared .failed :: s.log }
    have ht : KeepsTurn t.progress := h .failed
    exact hf _ _ ht

theorem keepsTurn_inclusionSendData (hf : FireKeepsTurn fire)
    (h : ∀ result, KeepsTurn { s.progress with log := .sentData s.peer s.prepared result :: s.log }) :
    KeepsTurn (s.inclusionSendData env fire).progress := by
  have hsent : KeepsTurn (s.s2SendData env fire).2.progress := keepsTurn_s2SendData hf h
  unfold inclusionSendData
  split
  · next heq => rw [heq] at hsent; exact hsent
  · next heq => rw [heq] at hsent; exact hsent

theorem keepsTurn_evtHandler (hf : FireKeepsTurn fire) (h : KeepsTurn s.progress) {up : Up}
    (hup : ∀ peer keys, up ≠ .joiningComplete peer keys) : KeepsTurn (s.evtHandler env fire up).progress := by
  let t : Ctx := { s with nEvent := s.nEvent + 1, log := .event up :: s.log }
  have ht : KeepsTurn t.progress := by
    refine h.note ⟨?_, rfl, rfl, rfl, fun peer keys hcomplete => ?_⟩ fun _ => rfl
    · simp
    · injection hcomplete with hcomplete
      exact hup peer keys hcomplete
  exact hf _ _ ht

theorem keepsTurn_inclusionFailedEvtPush (hf : FireKeepsTurn fire) (h : RequestsInTurn s.log)
    (hs : s.state = .idle) (failType : UInt8) :
    KeepsTurn (s.inclusionFailedEvtPush env fire failType).progress := by
  have hidle : KeepsTurn s.restoreKeys.progress := by
    refine .of_free h ?_
    change s.state.isFree
    rw [hs]
    rfl
  refine keepsTurn_evtHandler hf hidle fun peer keys hcomplete => ?_
  cases hcomplete

theorem requests_inclusionFailedFrameSend (h : RequestsInTurn s.log) (error : UInt8) :
    RequestsInTurn (s.inclusionFailedFrameSend env fire error nonSecure).log := by
  let t : Ctx := ((s.withFailCode error).prepare [commandClassSecurity2, kexFail, error]).withRetries maxRetryCount
  have hlog : (t.inclusionSendFrame env).log = .sentFrame t.peer t.prepared (env.sendFrame t.nFrame) :: s.log :=
    congrArg Progress.log (progress_inclusionSendFrame t)
  change RequestsInTurn (t.inclusionSendFrame env).log
  rw [hlog]
  exact h.cons rfl (by simp)

variable (env fire) in
theorem keepsTurn_sendError (h : RequestsInTurn s.log) (error : UInt8) :
    KeepsTurn ((s.withState .errorSent).inclusionFailedFrameSend env fire error nonSecure).progress := by
  refine .of_free (requests_inclusionFailedFrameSend (s := s.withState .errorSent) h error) ?_
  exact congrArg State.isFree (state_inclusionFailedFrameSend _)

theorem keepsTurn_errorWasSent (n : Nat) (h : RequestsInTurn s.log) (hs : s.state ≠ .idle) (error : UInt8) :
    KeepsTurn ((s.inclusionFailedFrameSend env fire error nonSecure).process env fire (n + 1)
      .errorWasSent).progress := by
  rw [process_errorWasSent n (by rwa [state_inclusionFailedFrameSend])]
  exact .of_free (requests_inclusionFailedFrameSend h error) rfl

theorem keepsTurn_error (hf : FireKeepsTurn fire) (n : Nat) (h : RequestsInTurn s.log) (hs : s.state ≠ .idle) :
    KeepsTurn (s.process env fire (n + 1) .error).progress := by
  rw [process_error n hs]
  have hidle : (s.withState .idle).state = .idle := rfl
  exact keepsTurn_inclusionFailedEvtPush (s := s.withState .idle) hf h hidle _

end Sending

section Joining

variable {env : Env} {fire : List Call → Ctx → Ctx} {s : Ctx}

theorem keepsTurn_sendFinalTransferEnd (hf : FireKeepsTurn fire) (n : Nat)
    (hs : s.state = .sendingFinalTransferEnd) (h : RequestsInTurn s.log) (hfinished : Finished s.log) :
    KeepsTurn (s.sendFinalTransferEnd env fire (process env fire (n + 1))).progress := by
  have hne : s.state ≠ .idle := by rw [hs]; decide
  unfold sendFinalTransferEnd
  split_ifs
  · exact keepsTurn_error hf n h hne
  · let t := (s.prepare [commandClassSecurity2, transferEnd, keyReqComplete]).encryptFor tempKeySlot 0
    have ht : KeepsTurn (t.withRetries maxRetryCount).progress := by
      refine ⟨h, ?_⟩
      change Turn _ s.state
      rw [hs]
      refine ⟨hfinished, ?_⟩
      change transferEnd ≠ networkKeyGet
      decide
    refine keepsTurn_inclusionSendData hf fun result => ?_
    refine keepsTurn_sent ht (fun _ => ?_) result
    change transferEnd ≠ networkKeyGet
    decide

theorem keepsTurn_requestNetKey (hf : FireKeepsTurn fire) (n : Nat) (hs : s.state = .awaitingNetKeyReport)
    (h : RequestsInTurn s.log) (hbetween : Between s.progress) (hfrom : searchFrom s.log = some s.keyExchange)
    (hleft : s.keyGranted ≠ 0 → (0 - s.keyExchange) &&& s.keyGranted ≠ 0) :
    KeepsTurn (s.requestNetKey env fire (process env fire (n + 2))).progress := by
  have hgranted : s.keyGranted = grantedKeys s.log := hbetween.granted
  have htaken : takenKeys s.log = s.keyGranted &&& (s.keyExchange - 1) := hbetween.taken
  have hrequested : requestedKeys s.log = keysOf (takenKeys s.log) := hbetween.requested
  unfold requestNetKey
  split_ifs with hzero
  · rw [process_noKeysGranted n hs]
    refine keepsTurn_sendFinalTransferEnd hf n rfl h ⟨?_, ?_⟩
    · change requestedKeys s.log = keysOf (grantedKeys s.log)
      rw [hrequested, htaken, ← hgranted, hzero, UInt8.zero_and]
    · change takenKeys s.log = grantedKeys s.log
      rw [htaken, ← hgranted, hzero, UInt8.zero_and]
  obtain ⟨hbit, hoffered, hpassed⟩ := nextGranted_spec hbetween.exchange (hleft hzero)
  have hends := searchLoop_nextGranted s.keyGranted 8 s.keyExchange hoffered
  change nextGranted s.keyGranted 8 s.keyExchange ∈ Byte.bits at hbit
  change nextGranted s.keyGranted 8 s.keyExchange &&& s.keyGranted ≠ 0 at hoffered
  change s.keyGranted &&& (nextGranted s.keyGranted 8 s.keyExchange - 1) = s.keyGranted &&& (s.keyExchange - 1)
    at hpassed
  generalize nextGranted s.keyGranted 8 s.keyExchange = key at hbit hoffered hpassed hends ⊢
  have htaken' : takenKeys s.log = s.keyGranted &&& (key - 1) := htaken.trans hpassed.symm
  refine keepsTurn_inclusionSendData hf fun result => ?_
  let t := ((((s.withExchange key).prepare [commandClassSecurity2, networkKeyGet, key]).encryptFor tempKeySlot
    txoptionVerifyDelivery).withRetries maxRetryCount)
  have hprepared : t.prepared = [commandClassSecurity2, networkKeyGet, key] :=
    prepared_prepare (s := s.withExchange key) _
  change KeepsTurn { t.progress with log := .sentData t.peer t.prepared result :: s.log }
  have hasks : (Entry.sentData t.peer t.prepared result).asked? = some key := by
    rw [hprepared]
    rfl
  generalize he : Entry.sentData t.peer t.prepared result = e at hasks
  have hbegins : e ≠ .joined := by rw [← he]; simp
  have hgrants : e.grants? = none := by rw [← he]; rfl
  have htakes : takenKeys (e :: s.log) = takenKeys s.log := by
    rw [takenKeys_cons hbegins, ← he]
    exact UInt8.or_zero
  have hkeys : requestedKeys (e :: s.log) = keysOf (takenKeys s.log) ++ [key] := by
    rw [requestedKeys, if_neg hbegins, hasks, hfrom, hrequested]
  have hbelow : takenKeys s.log &&& (key - 1) = takenKeys s.log := by
    rw [htaken', UInt8.and_assoc, UInt8.and_self]
  refine ⟨⟨fun key' hkey' => ?_, fun peer keys hcomplete => ?_, ?_, h⟩, ?_⟩
  · obtain rfl : key = key' := Option.some.inj (hasks.symm.trans hkey')
    rw [hfrom]
    refine ⟨hgranted ▸ hends, ⟨single_of_mem key hbit, hgranted ▸ hoffered, ?_, ?_⟩⟩
    · rw [htaken']
      exact and_below hbit
    · rw [← hgranted, ← htaken', UInt8.and_not_self]
  · rw [← he] at hcomplete
    cases hcomplete
  · rw [hkeys, ← keysOf_or key hbit _ hbelow]
    exact pairwise_keysOf _
  · change Turn _ s.state
    rw [hs]
    refine ⟨?_, hbit, hoffered, ?_, ?_, fun _ => ?_, ?_⟩
    · exact hgranted.trans (grantedKeys_cons hbegins hgrants).symm
    · exact htakes.trans htaken'
    · change requestedKeys (e :: s.log) = keysOf (takenKeys (e :: s.log)) ++ [key]
      rw [hkeys, htakes]
    · rfl
    · change searchFrom (e :: s.log) = none
      rw [← he]
      rfl

theorem keepsTurn_sendNetKeyGet (hf : FireKeepsTurn fire) (n : Nat) (hs : s.state = .awaitingNetKeyReport)
    (h : RequestsInTurn s.log) (hbetween : Between s.progress) (hfrom : searchFrom s.log = some s.keyExchange)
    (hleft : s.keyGranted ≠ 0 → (0 - s.keyExchange) &&& s.keyGranted ≠ 0) :
    KeepsTurn (s.sendNetKeyGet env fire (process env fire (n + 2))).progress := by
  have hne : s.state ≠ .idle := by rw [hs]; decide
  unfold sendNetKeyGet validateEchoKexReport
  split_ifs
  · exact keepsTurn_requestNetKey hf n hs h hbetween hfrom hleft
  · exact keepsTurn_errorWasSent (n + 1) h hne _
  · exact keepsTurn_error hf (n + 1) h hne
  · exact keepsTurn_requestNetKey hf n hs h hbetween hfrom hleft

theorem keepsTurn_sendNetKeyVerify (hf : FireKeepsTurn fire) (n : Nat) (hs : s.state = .keyExchanged)
    {o : Progress} (hasking : Asking o) (hexchange : s.keyExchange = o.keyExchange)
    (hgranted : s.keyGranted = o.keyGranted) {e : Entry} (hlog : s.log = e :: o.log) (h : RequestsInTurn s.log)
    (hbegins : e ≠ .joined) (hasks : e.asked? = none) (hgrants : e.grants? = none)
    (htakes : s.buf 2 = s.keyExchange → e.takes = o.keyExchange) :
    KeepsTurn (s.sendNetKeyVerify env fire (process env fire (n + 1))).progress := by
  have hne : s.state ≠ .idle := by rw [hs]; decide
  unfold sendNetKeyVerify
  split_ifs with hother
  · exact keepsTurn_errorWasSent n h hne _
  have hu : (s.keystoreWrite (s.buf 2) (s.buf.slice 3 networkKeySize)).progress = s.progress :=
    progress_keystoreWrite s _ _
  dsimp only
  generalize s.keystoreWrite (s.buf 2) (s.buf.slice 3 networkKeySize) = u at hu
  have hstate : u.state = .keyExchanged := (congrArg Progress.state hu).trans hs
  have hulog : u.log = e :: o.log := (congrArg Progress.log hu).trans hlog
  let t := (((((u.withExchange (u.keyExchange <<< 1)).networkKeyUpdate networkKeySlot
    (.network (s.buf.slice 3 networkKeySize))).prepare [commandClassSecurity2, networkKeyVerify]).encryptFor
      networkKeySlot 0).withRetries maxRetryCount)
  have ht : KeepsTurn t.progress := by
    refine ⟨?_, ?_⟩
    · change RequestsInTurn u.log
      rwa [hulog, ← hlog]
    · change Turn _ u.state
      rw [hstate]
      refine ⟨hasking.take hbegins hasks hgrants (htakes (not_not.mp hother)) ?_ ?_ hulog, ?_⟩
      · exact (congrArg Progress.keyGranted hu).trans hgranted
      · have hue : u.keyExchange = o.keyExchange := (congrArg Progress.keyExchange hu).trans hexchange
        change u.keyExchange <<< 1 = _
        rw [hue]
      · change networkKeyVerify ≠ networkKeyGet
        decide
  refine keepsTurn_inclusionSendData (s := t) hf fun result => keepsTurn_sent ht (fun _ => ?_) result
  change networkKeyVerify ≠ networkKeyGet
  decide

theorem keepsTurn_sendKexReport (hf : FireKeepsTurn fire) (h : KeepsTurn s.progress) :
    KeepsTurn (s.sendKexReport env fire).progress := by
  unfold sendKexReport
  apply keepsTurn_inclusionSendFrame
  rw [progress_withRetries]
  refine keepsTurn_prepare ?_ (by decide) _ _
  rw [progress_withCsaSupport]
  refine keepsTurn_evtHandler hf ?_ (by simp)
  exact h

theorem keepsTurn_answerKexSet (hs : s.state = .awaitingPubKeyA) (h : RequestsInTurn s.log) (hbegun : Begun s.log)
    (hgranted : s.keyGranted = grantedKeys s.log) : KeepsTurn (s.answerKexSet env).progress := by
  have hbetween : ∀ o : Progress, o.state = s.state → o.keyGranted = s.keyGranted → o.keyExchange = 1 →
      o.log = s.log → KeepsTurn o := by
    intro o hstate hgranted' hexchange hlog
    refine ⟨hlog ▸ h, ?_⟩
    rw [hstate, hs]
    refine ⟨⟨?_, ?_, ?_, ?_⟩, hexchange⟩
    · rw [hgranted', hlog, hgranted]
    · rw [hexchange]
      decide
    · rw [hlog, hbegun.taken, hexchange]
      exact UInt8.and_zero.symm
    · rw [hlog, hbegun.taken, hbegun.requested]
      decide
  unfold answerKexSet
  apply keepsTurn_inclusionSendFrame
  rw [progress_withRetries]
  refine keepsTurn_prepare ?_ (by decide) _ _
  split_ifs
  · exact hbetween _ rfl rfl rfl rfl
  · exact hbetween _ rfl rfl rfl rfl

theorem keepsTurn_sendPubKeyB (n : Nat) (hs : s.state = .awaitingPubKeyA) (h : RequestsInTurn s.log)
    (hbegun : Begun s.log) (hgranted : s.buf 5 = grantedKeys s.log) :
    KeepsTurn (s.sendPubKeyB env fire (process env fire (n + 1))).progress := by
  have hne : s.state ≠ .idle := by rw [hs]; decide
  have hfail : ∀ t : Ctx, t.log = s.log → t.state = s.state → ∀ error,
      KeepsTurn (t.failJoining env fire (process env fire (n + 1)) error).progress := by
    intro t hlog hstate error
    exact keepsTurn_errorWasSent n (hlog ▸ h) (hstate ▸ hne) error
  unfold sendPubKeyB
  dsimp only
  split_ifs
  · refine hfail _ ?_ ?_ _ <;> rfl
  · exact keepsTurn_answerKexSet (s := ((s.withScheme (s.buf 3)).withCurve (s.buf 4)).withGranted (s.buf 5)) hs h
      hbegun hgranted
  · refine hfail _ ?_ ?_ _ <;> rfl
  · refine hfail _ ?_ ?_ _ <;> rfl
  · refine hfail _ ?_ ?_ _ <;> rfl

theorem keepsTurn_pubKeyARecv (hf : FireKeepsTurn fire) (h : KeepsTurn s.progress) :
    KeepsTurn (s.pubKeyARecv env fire).progress := by
  unfold pubKeyARecv
  refine keepsTurn_evtHandler hf ?_ (by simp)
  exact h

theorem keepsTurn_sendEchoKexSet (hf : FireKeepsTurn fire) (h : KeepsTurn s.progress) :
    KeepsTurn (s.sendEchoKexSet env fire).progress := by
  unfold sendEchoKexSet
  let t := (s.withRetries (s.retryCounter - 1)).prepare
    [commandClassSecurity2, kexSet, s.kexSetByte2 ||| echoOn, s.schemeSupport, s.curveSupport, s.keyGranted]
  have ht : KeepsTurn t.progress := keepsTurn_prepare (s := s.withRetries (s.retryCounter - 1)) h (by decide) _ _
  refine keepsTurn_s2SendData (s := t.encryptFor tempKeySlot txoptionVerifyDelivery) hf fun result => ?_
  refine keepsTurn_sent (s := t.encryptFor tempKeySlot txoptionVerifyDelivery) ht (fun _ => ?_) result
  change kexSet ≠ networkKeyGet
  decide

theorem keepsTurn_joiningComplete (hf : FireKeepsTurn fire) (h : RequestsInTurn s.log) (hfinished : Finished s.log) :
    KeepsTurn ((s.withState .idle).joiningComplete env fire).progress := by
  let t : Ctx := { (s.withState .idle).restoreKeys with
    nEvent := s.nEvent + 1, log := .event (.joiningComplete s.peer s.keyGranted) :: s.log }
  have ht : KeepsTurn t.progress := .of_free (h.cons rfl fun _ _ _ => hfinished) rfl
  exact hf _ _ ht

theorem keepsTurn_networkKeyUpdate (slot : UInt8) (key : SlotKey) (h : KeepsTurn s.progress) :
    KeepsTurn (s.networkKeyUpdate slot key).progress :=
  h.carry rfl rfl rfl rfl (.inl ⟨rfl, rfl⟩)

theorem keepsTurn_doEcdhCalcB (hf : FireKeepsTurn fire) (h : KeepsTurn s.progress) :
    KeepsTurn (s.doEcdhCalcB env fire).progress := by
  unfold doEcdhCalcB
  refine keepsTurn_sendEchoKexSet hf ?_
  rw [progress_withRetries]
  refine keepsTurn_networkKeyUpdate _ _ ?_
  rwa [progress_withPublicKey]

end Joining

section Including

variable {env : Env} {fire : List Call → Ctx → Ctx} {s : Ctx}

theorem keepsTurn_including (hf : FireKeepsTurn fire) (h : RequestsInTurn s.log) (hs : s.state.sendsAgain)
    (hcommand : s.inclusionBuf 1 ≠ networkKeyGet) : KeepsTurn (s.inclusionSendData env fire).progress :=
  keepsTurn_inclusionSendData hf fun result =>
    keepsTurn_sent (.of_including h hs hcommand) (fun _ => hcommand) result

theorem keepsTurn_sendKexGet (h : KeepsTurn s.progress) : KeepsTurn (s.sendKexGet env).progress := by
  unfold sendKexGet
  apply keepsTurn_inclusionSendFrame
  rw [progress_withRetries]
  exact keepsTurn_prepare h (by decide) _ _

theorem keepsTurn_kexRepRecv (hf : FireKeepsTurn fire) (n : Nat) (hs : s.state = .awaitingKeyUserAccept)
    (h : RequestsInTurn s.log) : KeepsTurn (s.kexRepRecv env fire (process env fire (n + 1))).progress := by
  have hne : s.state ≠ .idle := by rw [hs]; decide
  unfold kexRepRecv
  rcases validateReportedSchemes_cases env fire s with hscheme | ⟨scheme, hscheme⟩
  · rw [hscheme]
    dsimp only
    rcases validateReportedCurves_cases env fire (s.withScheme scheme1Support) with hcurve | ⟨curve, hcurve⟩
    · rw [hcurve]
      unfold validateReportedKeys
      dsimp only
      split_ifs
      · refine keepsTurn_evtHandler hf (KeepsTurn.of_free ?_ ?_) ?_
        · exact h
        · change s.state.isFree
          rw [hs]
          rfl
        · simp
      · refine keepsTurn_errorWasSent n ?_ ?_ _
        · exact h
        · exact hne
    · rw [hcurve]
      refine keepsTurn_errorWasSent n ?_ ?_ _
      · exact h
      · exact hne
  · rw [hscheme]
    refine keepsTurn_errorWasSent n ?_ ?_ _
    · exact h
    · exact hne

theorem keepsTurn_sendKexSet (h : KeepsTurn s.progress) : KeepsTurn (s.sendKexSet env).progress := by
  unfold sendKexSet
  apply keepsTurn_inclusionSendFrame
  rw [progress_withRetries]
  exact keepsTurn_prepare h (by decide) _ _

theorem keepsTurn_sendPubKeyA (hf : FireKeepsTurn fire) (h : KeepsTurn s.progress) :
    KeepsTurn (s.sendPubKeyA env fire).progress := by
  unfold sendPubKeyA
  apply keepsTurn_inclusionSendFrame
  rw [progress_withRetries]
  refine keepsTurn_prepare ?_ (by decide) _ _
  refine keepsTurn_evtHandler hf ?_ (by simp)
  exact h

theorem keepsTurn_sendEchoKexReport (hf : FireKeepsTurn fire) (n : Nat) (hs : s.state = .awaitingNetKeyGet)
    (h : RequestsInTurn s.log) : KeepsTurn (s.sendEchoKexReport env fire (process env fire (n + 1))).progress := by
  have hne : s.state ≠ .idle := by rw [hs]; decide
  unfold sendEchoKexReport validateEchoKexSet
  dsimp only
  split_ifs
  · let t := (((s.withExchange 0x00).prepare [commandClassSecurity2, kexReport, s.csaSupport ||| echoOn,
      s.schemeSupport, s.curveSupport, s.kexReportKeys]).encryptFor tempKeySlot txoptionVerifyDelivery).withRetries
        maxRetryCount
    exact keepsTurn_including (s := t) hf h (by rw [show t.state = _ from hs]; rfl) (by change kexReport ≠ _; decide)
  · exact keepsTurn_errorWasSent n h hne _

theorem keepsTurn_loadReportedS0Key (h : KeepsTurn s.progress) : KeepsTurn s.loadReportedS0Key.progress := by
  unfold loadReportedS0Key
  split_ifs
  · exact h.carry rfl rfl rfl rfl (.inl ⟨rfl, rfl⟩)
  · exact h

theorem keepsTurn_sendNetKeyReport (hf : FireKeepsTurn fire) (n : Nat) (hs : s.state = .awaitingNetKeyVerify)
    (h : RequestsInTurn s.log) : KeepsTurn (s.sendNetKeyReport env fire (process env fire (n + 1))).progress := by
  have hne : s.state ≠ .idle := by rw [hs]; decide
  unfold sendNetKeyReport validateRequestedKey
  dsimp only
  split_ifs
  · let t := (s.withRequested (s.buf 2)).reportRequestedKey
    have ht : t.progress = { s.progress with
        keyRequested := s.buf 2, keyExchange := s.keyExchange ||| s.buf 2, command := networkKeyReport,
        key := s.buf 2 } := progress_prepareNetKeyReport (s.buf 2)
    have hstate : t.state.sendsAgain := by
      rw [show t.state = _ from (congrArg Progress.state ht).trans hs]
      rfl
    have hlog : RequestsInTurn t.log := by
      rw [show t.log = s.log from congrArg Progress.log ht]
      exact h
    have hcommand : t.inclusionBuf 1 ≠ networkKeyGet := by
      rw [show t.inclusionBuf 1 = networkKeyReport from congrArg Progress.command ht]
      decide
    exact keepsTurn_loadReportedS0Key (keepsTurn_including hf hlog hstate hcommand)
  · refine keepsTurn_errorWasSent n ?_ ?_ _
    · exact h
    · exact hne

theorem keepsTurn_sendTransferEnd (hf : FireKeepsTurn fire) (hs : s.state.sendsAgain) (h : RequestsInTurn s.log) :
    KeepsTurn (s.sendTransferEnd env fire).progress := by
  unfold sendTransferEnd
  let t := (((s.networkKeyUpdate tempKeySlot (.temporary (s.publicKey.slice 0 networkKeySize))).prepare
    [commandClassSecurity2, transferEnd, keyVerified]).encryptFor tempKeySlot 0).withRetries maxRetryCount
  exact keepsTurn_including (s := t) hf h hs (by change transferEnd ≠ _; decide)

theorem keepsTurn_inclusionComplete (hf : FireKeepsTurn fire) (hs : s.state = .idle) (h : RequestsInTurn s.log) :
    KeepsTurn (s.inclusionComplete env fire).progress := by
  unfold inclusionComplete
  split_ifs
  · refine keepsTurn_evtHandler hf (KeepsTurn.of_free ?_ ?_) ?_
    · exact h
    · change s.state.isFree
      rw [hs]
      rfl
    · simp
  · exact keepsTurn_inclusionFailedEvtPush hf (requests_inclusionFailedFrameSend h _)
      ((state_inclusionFailedFrameSend _).trans hs) _

theorem keepsTurn_checkNoKeys (hf : FireKeepsTurn fire) (hs : s.state = .idle) (h : RequestsInTurn s.log) :
    KeepsTurn (s.checkNoKeys env fire).progress := by
  unfold checkNoKeys
  split_ifs
  · exact keepsTurn_inclusionFailedEvtPush hf h hs _
  · exact keepsTurn_inclusionComplete hf hs h

end Including

end Ctx

end ZipGateway.Inclusion

import ZipGateway.S2.Accounting

/-!
# Encrypting only in step

A singlecast may be encrypted with a generator that was made of the entropy of both sides, or with
the two halves of it at hand. The send machine decides by the flags of a nonce report, the span by
its length, and a frame that has the flags without the entropy is enough to tell them apart.
-/

namespace ZipGateway.S2

variable (env : Env)

def Policy.inStep : Policy where
  origin := fun _ => True
  span := fun state => state.usable

theorem sane_inStep : Sane Policy.inStep :=
  ⟨trivial, trivial, trivial, fun _ h => h⟩

/-- A nonce report that makes the machine send carries entropy, unless the span is in step without
it; and no multicast of the peer takes the place of its reply while the span is out of step. -/
def CarriesEntropy (s : S2) : Event → Prop
  | .receive con buf len =>
    (buf 1 = security2NonceReport → ReportAccepted env s con buf len → len ≥ 20 ∧ buf 3 &&& nonceReportSos ≠ 0 ∨
        SpanState.usable (slotState s.spanTable s.peer)) ∧
    (buf 1 = security2MessageEncapsulation → con.isMulticast →
      s.fsm = .verifyingDelivery → con.rNode = s.peer.rNode → SpanState.usable (slotState s.spanTable s.peer))
  | _ => True

theorem flags_ne_zero_of_reportAccepted {s : S2} {con : Connection} {buf : Mem} {len : Nat}
    (h : ReportAccepted env s con buf len) : (s.registerNonce env buf len).1 ≠ 0 := by
  obtain ⟨-, ⟨-, hsos⟩ | ⟨-, hflags, -⟩⟩ := h
  · intro hzero
    rw [hzero] at hsos
    exact hsos (by decide)
  · exact hflags

theorem fsm_of_decryptMsg {s : S2} {con : Connection} {buf : Mem} {len : Nat}
    (h : (s.decryptMsg env con buf len).s.fsm = .verifyingDelivery) :
    s.fsm = .verifyingDelivery := by
  obtain hledger | ⟨-, hledger⟩ := sameLedger_decryptMsg env s con buf len
  · rw [← fsm_ledger, hledger] at h
    exact h
  · rw [← fsm_ledger, hledger] at h
    cases h

theorem eventAllowed_of_carriesEntropy {s : S2} {e : Event} (he : s.CarriesEntropy env e) :
    EventAllowed env Policy.inStep s e := by
  cases e with
  | call c => trivial
  | timeout => trivial
  | sendFrameDone status time => trivial
  | receive con buf len =>
    obtain ⟨hreport, hmulticast⟩ := he
    refine ⟨fun hcommand => ⟨fun _ _ _ _ => trivial, fun haccepted => ?_⟩, fun hcommand hreply => ?_⟩
    · change SpanState.usable (slotState (s.registerNonce env buf len).2.spanTable s.peer)
      rw [slotState_registerNonce env s (flags_ne_zero_of_reportAccepted env haccepted)]
      split
      · rfl
      · rename_i hshort
        exact (hreport hcommand haccepted).resolve_left hshort
    · obtain ⟨hrc, hfsm, hpeer⟩ := hreply
      simp only [isPeernode, Bool.and_eq_true, beq_iff_eq] at hpeer
      change SpanState.usable (slotState (s.decryptMsg env con buf len).s.spanTable
        (s.decryptMsg env con buf len).s.peer)
      by_cases hcon : con.isMulticast = true
      · obtain ⟨htable, hsame, hnode⟩ := decryptMsg_frame env hcon hrc
        rw [htable, hsame]
        refine hmulticast hcommand hcon (fsm_of_decryptMsg env hfsm) ?_
        rw [← hnode, hpeer.2, hsame]
      · obtain ⟨i, hstep⟩ := inStep_decryptMsg env (by simpa using hcon) hrc
        rw [slotState_congr hpeer.1.symm hpeer.2.symm, hstep.slotState_eq]
        rfl

/-- In a run whose nonce reports carry the entropy their flags announce, no singlecast is encrypted
with a span entry that is out of step. -/
theorem encrypted_in_step (depth : Nat) (home : UInt32) (sg : UInt8 → SecGroup)
    (loadedKeys : UInt8) (spanTable : SpanRef → Span) (events : List Event)
    (hevents : Machine.Admissible (step env depth) (CarriesEntropy env) (start home sg loadedKeys spanTable) events) :
    ∀ state, Out.encryptAndSend state ∈ (Machine.run (step env depth) (start home sg loadedKeys spanTable) events).out →
      state = .negotiated ∨ state = .sosRemoteNonce := by
  have hallowed := hevents.mono fun t e he => eventAllowed_of_carriesEntropy env he
  have hencrypted := (reached_run sane_inStep hallowed).invariant
    (fun _ _ => Account.encryptedAllowed_entry) (fun _ h => by cases h)
  intro state hstate
  have husable : SpanState.usable state :=
    hencrypted state (List.mem_filterMap.mpr ⟨_, hstate, rfl⟩)
  cases state <;> simp_all [SpanState.usable]

/-- A send for which the nonce of the peer is asked, and the answer to it: a nonce report with the
SOS flag and, from `len` on, nothing. -/
def nonceExchange (len : Nat) : List Event :=
  [ .call (.sendData (sampleCon 0) [0x20, 0x02]), .sendFrameDone .ok 10,
    .receive (sampleCon 0) (.ofBytes [0x9F, 0x02, 0x07, 0x01]) len ]

/-- The report of four bytes is taken for an answer, and the payload is encrypted with an entry that
never saw any entropy. -/
theorem nonceExchange_short : ¬∀ state, Out.encryptAndSend state ∈
        (Machine.run (step sampleEnv 0) (start 0 (init 0).sg 1 (init 0).spanTable) (nonceExchange 4)).out →
      state = .negotiated ∨ state = .sosRemoteNonce := by
  intro hall
  have hmem : Out.encryptAndSend .noSeq ∈ (Machine.run (step sampleEnv 0) (start 0 (init 0).sg 1 (init 0).spanTable)
        (nonceExchange 4)).out := by
    decide
  simpa using hall _ hmem

theorem nonceExchange_full : Out.encryptAndSend .sosRemoteNonce ∈
      (Machine.run (step sampleEnv 0) (start 0 (init 0).sg 1 (init 0).spanTable) (nonceExchange 20)).out ∧
    ∀ state, Out.encryptAndSend state ∈ (Machine.run (step sampleEnv 0) (start 0 (init 0).sg 1 (init 0).spanTable)
          (nonceExchange 20)).out →
      state = .negotiated ∨ state = .sosRemoteNonce := by
  refine ⟨by decide, ?_⟩
  apply encrypted_in_step
  refine ⟨trivial, trivial, ⟨fun _ _ => .inl ⟨by decide, by decide⟩, fun hcommand => ?_⟩, trivial⟩
  revert hcommand
  decide

end ZipGateway.S2

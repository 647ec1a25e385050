import ZipGateway.TransportService.Bounds

/-!
# The replies to segment requests

A segment request may ask for an offset behind the end of the datagram. `reply_frag_req` takes what is left of
the datagram there modulo 65536, and copies that many bytes from behind its end into `t2_txBuf`.
-/

namespace ZipGateway

namespace TransportService

/-- What is copied is inside the datagram, of `n` bytes, and the frame inside `t2_txBuf`. -/
structure CopyFits (s : TransportService) (n : Nat) : Prop where
  length : s.scb.datagramLen < s.scb.missingOffset + s.fragmentMaxPayload → s.scb.missingOffset ≤ s.scb.datagramLen
  inside : s.scb.missingOffset + s.takeMissingFrag.scb.datalenToSend ≤ n
  frame : 5 + s.takeMissingFrag.scb.datalenToSend + 2 ≤ fragmentMaxPayloadDefault + 8 - 1

/-- The datagram of the call of `ZW_TransportService_SendData` that was accepted last, and its length. -/
def handedOver (env : TsEnv) : TransportService → Mem × Nat → List TsEvent → Mem × Nat
  | _, datagram, [] => datagram
  | s, datagram, .sendData p pData dataLength :: events =>
    handedOver env (step env s (.sendData p pData dataLength))
      (if s.isBusy then datagram else (pData, dataLength.toNat)) events
  | s, datagram, e :: events => handedOver env (step env s e) datagram events

section Copies

variable (env : TsEnv) {s t : TransportService}

theorem copyFits_iff (hsane : s.gauge.Sane) :
    s.CopyFits s.scb.datagramLen ↔ s.scb.missingOffset ≤ s.scb.datagramLen := by
  have hpayload : s.fragmentMaxPayload ≤ 47 := hsane.payload
  have hdatalen : s.takeMissingFrag.scb.datalenToSend =
      if s.scb.datagramLen < s.scb.missingOffset + s.fragmentMaxPayload then
        (s.scb.datagramLen + 65536 - s.scb.missingOffset) % 65536
      else s.fragmentMaxPayload := rfl
  constructor
  · intro hfits
    have hinside := hfits.inside
    omega
  · intro hle
    have hshort : s.takeMissingFrag.scb.datalenToSend ≤ s.fragmentMaxPayload ∧
        s.scb.missingOffset + s.takeMissingFrag.scb.datalenToSend ≤ s.scb.datagramLen := by
      rw [hdatalen]
      split <;> omega
    refine ⟨fun _ => hle, hshort.2, ?_⟩
    change 5 + s.takeMissingFrag.scb.datalenToSend + 2 ≤ 47 + 8 - 1
    omega

theorem gauge_replyFragReqCopies (ht : t ∈ s.replyFragReqCopies) : t.gauge = s.gauge := by
  unfold replyFragReqCopies at ht
  split at ht
  · cases ht
  · rw [List.mem_singleton.mp ht]

theorem gauge_tsSenddataCbCopies (ht : t ∈ s.tsSenddataCbCopies) : t.gauge = s.gauge := by
  unfold tsSenddataCbCopies at ht
  split at ht
  · exact (gauge_replyFragReqCopies ht).trans rfl
  · cases ht

theorem gauge_receiveCopies {pCmd : Mem} (ht : t ∈ s.receiveCopies pCmd) :
    t.gauge = { s.gauge with missingOffset := t.scb.missingOffset } ∧
      (cmdType pCmd = commandSegmentRequest → t.scb.missingOffset = segmentOffset pCmd) := by
  unfold receiveCopies at ht
  split at ht
  · cases ht
  split at ht
  · unfold receiveSegmentRequestCopies at ht
    split at ht
    · cases ht
    · dsimp only at ht
      split at ht
      · cases ht
      · have hgauge := gauge_replyFragReqCopies ht
        rw [gauge_t2SmPostEvent] at hgauge
        have hoffset : t.scb.missingOffset = segmentOffset pCmd := congrArg Gauge.missingOffset hgauge
        have hposted : (s.t2SmPostEvent .fragReqOrCompl).gauge = s.gauge := gauge_t2SmPostEvent s _
        refine ⟨?_, fun _ => hoffset⟩
        rw [hgauge, hoffset, ← hposted]
        rfl
  rename_i hrequest
  split at ht
  · unfold receiveSegmentWaitCopies at ht
    split at ht
    · cases ht
    · have hgauge : t.gauge = s.gauge := (gauge_tsSenddataCbCopies ht).trans (gauge_t2SmPostEvent s .recvFragWait)
      refine ⟨?_, fun hcmd => absurd hcmd hrequest⟩
      have hoffset : t.scb.missingOffset = s.scb.missingOffset := congrArg Gauge.missingOffset hgauge
      rw [hgauge, hoffset]
      rfl
  · cases ht

theorem sane_copies (h : s.gauge.Sane) {e : TsEvent} (ht : t ∈ copies env s e) :
    (t.gauge.Sane ∧ t.gauge.sender = s.gauge.sender) ∧
      ∀ p pCmd cmdLength, e = .frame p pCmd cmdLength → cmdType pCmd = commandSegmentRequest →
        t.scb.missingOffset = segmentOffset pCmd := by
  cases e with
  | sendData p pData dataLength => cases ht
  | expired timer => cases ht
  | transmitDone cb status =>
    refine ⟨?_, fun _ _ _ hframe => TsEvent.noConfusion hframe⟩
    simp only [copies] at ht
    split at ht
    · have hgauge : t.gauge = s.gauge := (gauge_tsSenddataCbCopies ht).trans rfl
      rw [hgauge]
      exact ⟨h, rfl⟩
    · cases ht
  | frame p pCmd cmdLength =>
    simp only [copies, applicationCommandHandlerCopies] at ht
    generalize hbroken : tieBreak env ((s.log (.received p pCmd cmdLength.toNat)).ctimerSet .reset) p = broken at ht
    have hgauge : broken.gauge = s.gauge := by
      rw [← hbroken]
      simp
    split at ht
    · cases ht
    unfold filterFrameCopies at ht
    split at ht
    · cases ht
    split at ht
    · cases ht
    have hpost : ((broken.setFragWaitP p).postRecv).gauge = s.gauge := by
      rw [gauge_postRecv, gauge_setFragWaitP, hgauge]
    generalize (broken.setFragWaitP p).postRecv = ready at hpost ht
    have hsane : ready.initializeOnce.gauge.Sane := sane_initializeOnce (hpost ▸ h)
    have hsender : ready.initializeOnce.gauge.sender = s.gauge.sender := by rw [sender_initializeOnce, hpost]
    obtain ⟨hcopied, hoffset⟩ := gauge_receiveCopies ht
    rw [gauge_setRcbP] at hcopied
    obtain ⟨hsane', hsender'⟩ := hsane.of_offset _ hcopied
    refine ⟨⟨hsane', hsender'.trans hsender⟩, fun p' pCmd' cmdLength' heq hcmd => ?_⟩
    cases heq
    exact hoffset hcmd

theorem datagram_sendFirstFrag (s : TransportService) :
    (sendFirstFrag env s).scb.datagram = s.scb.datagram ∧ (sendFirstFrag env s).scb.datagramLen = s.scb.datagramLen :=
  ⟨congrArg Gauge.datagram (gauge_sendFirstFrag env s), congrArg Gauge.datagramLen (gauge_sendFirstFrag env s)⟩

theorem datagram_step (s : TransportService) {e : TsEvent}
    (hsend : ∀ p pData dataLength, e = .sendData p pData dataLength → s.isBusy = true) :
    (step env s e).scb.datagram = s.scb.datagram ∧ (step env s e).scb.datagramLen = s.scb.datagramLen := by
  cases hrestart : s.restarts e with
  | false =>
    have hsender := sender_step env s hsend hrestart
    exact ⟨congrArg (fun sender => sender.2.1) hsender, congrArg (fun sender => sender.2.2.1) hsender⟩
  | true =>
    cases e with
    | sendData | frame | transmitDone => cases hrestart
    | expired timer =>
      cases timer with
      | fc | rx | reset | btwn2Frags => cases hrestart
      | waitRestart =>
        have hset : s.timers .waitRestart = true := hrestart
        simp only [step]
        rw [if_pos hset]
        exact datagram_sendFirstFrag env (s.ctimerStop .waitRestart)

theorem datagram_sendData (s : TransportService) (p : TsParam) (pData : Mem) (dataLength : UInt16) :
    ((step env s (.sendData p pData dataLength)).scb.datagram,
      (step env s (.sendData p pData dataLength)).scb.datagramLen) =
        if s.isBusy then (s.scb.datagram, s.scb.datagramLen) else (pData, dataLength.toNat) := by
  cases hbusy : s.isBusy with
  | true =>
    obtain ⟨hdatagram, hlen⟩ := datagram_step env s (e := .sendData p pData dataLength) fun _ _ _ _ => hbusy
    rw [hdatagram, hlen]
    rfl
  | false =>
    have hidle : (({ s with nCalls := s.nCalls + 1 }).ctimerSet .reset).isBusy = false := hbusy
    rw [isBusy] at hidle
    simp only [step, sendData]
    rw [hidle, if_neg Bool.false_ne_true]
    generalize hready : (acceptSendData _ s.nCalls p pData dataLength).postStartSend = ready
    have hgauge : ready.gauge = { s.gauge with datagram := pData, datagramLen := dataLength.toNat } := by
      rw [← hready, gauge_postStartSend]
      rfl
    obtain ⟨hdatagram, hlen⟩ := datagram_sendFirstFrag env ready
    rw [hdatagram, hlen]
    exact congrArg (fun g : Gauge => (g.datagram, g.datagramLen)) hgauge

theorem datagram_run (s : TransportService) (events : List TsEvent) :
    ((Machine.run (step env) s events).scb.datagram, (Machine.run (step env) s events).scb.datagramLen) =
      handedOver env s (s.scb.datagram, s.scb.datagramLen) events := by
  induction events generalizing s with
  | nil => rfl
  | cons e events ih =>
    rw [Machine.run_cons, ih]
    cases e with
    | sendData p pData dataLength => rw [datagram_sendData, handedOver]
    | frame p pCmd cmdLength =>
      obtain ⟨hdatagram, hlen⟩ := datagram_step env s (e := .frame p pCmd cmdLength) (fun _ _ _ hsend => TsEvent.noConfusion hsend)
      rw [hdatagram, hlen]
      rfl
    | transmitDone cb status =>
      obtain ⟨hdatagram, hlen⟩ := datagram_step env s (e := .transmitDone cb status) (fun _ _ _ hsend => TsEvent.noConfusion hsend)
      rw [hdatagram, hlen]
      rfl
    | expired timer =>
      obtain ⟨hdatagram, hlen⟩ := datagram_step env s (e := .expired timer) (fun _ _ _ hsend => TsEvent.noConfusion hsend)
      rw [hdatagram, hlen]
      rfl

end Copies

/-- The replies to segment requests, in every run: the datagram is the one that was handed over last, the offset
the one of the frame, and the copy is inside exactly when the offset is not behind the end of the datagram. -/
theorem copies_fit_iff (env : TsEnv) (events : List TsEvent) (e : TsEvent) (t : TransportService)
    (ht : t ∈ copies env (Machine.run (step env) init events) e) :
    (t.scb.datagram, t.scb.datagramLen) = handedOver env init (fun _ => 0, 0) events ∧
      (∀ p pCmd cmdLength, e = .frame p pCmd cmdLength → cmdType pCmd = commandSegmentRequest →
        t.scb.missingOffset = segmentOffset pCmd) ∧
      (t.CopyFits (handedOver env init (fun _ => 0, 0) events).2 ↔
        t.scb.missingOffset ≤ (handedOver env init (fun _ => 0, 0) events).2) := by
  have hstep : ∀ (s : TransportService) (e : TsEvent), s.gauge.Sane → (step env s e).gauge.Sane :=
    fun _ e h => sane_step env h e
  have hsane := Machine.run_invariant hstep sane_init events
  obtain ⟨⟨hsane', hsender⟩, hoffset⟩ := sane_copies env hsane ht
  have hdatagram : (t.scb.datagram, t.scb.datagramLen) = handedOver env init (fun _ => 0, 0) events := by
    have hrun := datagram_run env init events
    have hsame : (t.scb.datagram, t.scb.datagramLen) =
        ((Machine.run (step env) init events).scb.datagram, (Machine.run (step env) init events).scb.datagramLen) :=
      congrArg (fun sender => (sender.2.1, sender.2.2.1)) hsender
    exact hsame.trans hrun
  have hlen : t.scb.datagramLen = (handedOver env init (fun _ => 0, 0) events).2 := congrArg Prod.snd hdatagram
  rw [← hlen]
  exact ⟨hdatagram, hoffset, copyFits_iff hsane'⟩

def sampleSent : List TsEvent :=
  [.sendData { snode := 1, dnode := 5, txFlags := 0, rxFlags := 0 } (Mem.ofBytes (List.replicate 10 7)) 10]

def sampleRequest (offset : Nat) : TsEvent :=
  .frame { snode := 5, dnode := 1, txFlags := 0, rxFlags := receiveStatusTypeSingle }
    (Mem.ofBytes (fragReqFrame 4 offset)) 4

theorem not_copies_fit : ¬∀ (env : TsEnv) (events : List TsEvent) (e : TsEvent),
    ∀ t ∈ copies env (Machine.run (step env) init events) e,
      t.CopyFits (handedOver env init (fun _ => 0, 0) events).2 := by
  intro hall
  have hcopies : (copies sampleTsEnv (Machine.run (step sampleTsEnv) init sampleSent) (sampleRequest 2047)).map
      (fun t => t.scb.missingOffset) = [2047] := by decide
  obtain ⟨t, ht, hoffset⟩ := List.map_eq_singleton_iff.mp hcopies
  have hfits := hall sampleTsEnv sampleSent (sampleRequest 2047) t (ht ▸ List.mem_singleton_self t)
  have hlen : (handedOver sampleTsEnv init (fun _ => 0, 0) sampleSent).2 = 10 := by decide
  have hinside := hfits.inside
  omega

theorem copies_fit_inside : ∃ t ∈ copies sampleTsEnv (Machine.run (step sampleTsEnv) init sampleSent)
    (sampleRequest 5), t.CopyFits 10 := by
  have hcopies : (copies sampleTsEnv (Machine.run (step sampleTsEnv) init sampleSent) (sampleRequest 5)).map
      (fun t => t.scb.missingOffset) = [5] := by decide
  obtain ⟨t, ht, hoffset⟩ := List.map_eq_singleton_iff.mp hcopies
  have hmem : t ∈ copies sampleTsEnv (Machine.run (step sampleTsEnv) init sampleSent) (sampleRequest 5) :=
    ht ▸ List.mem_singleton_self t
  have hlen : (handedOver sampleTsEnv init (fun _ => 0, 0) sampleSent).2 = 10 := by decide
  obtain ⟨-, -, hiff⟩ := copies_fit_iff sampleTsEnv sampleSent (sampleRequest 5) t hmem
  rw [hlen] at hiff
  exact ⟨t, hmem, hiff.mpr (by omega)⟩

end TransportService

end ZipGateway

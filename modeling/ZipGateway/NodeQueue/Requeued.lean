import ZipGateway.NodeQueue.Attempts

/-!
# The mark of packets that were queued again

The mark is the lowest bit of the packet's own first byte. That byte belongs to the traffic class,
so a packet may arrive with the bit set; nothing is said about such packets here, nor about those
that came back after their lifetime had ended. For all others the mark says what it should: it is
set by the queue, when a packet is queued again for another reason than that a FLIRS node has to
wait, and it stays. A marked packet is not held up by the mailbox again, and a first attempt that
was not acknowledged happens once.
-/

namespace ZipGateway.NodeQueue

/-- The packet arrived without the mark, and each result of it came while it was the head of its
queue. -/
def Orderly (p : Packet) : Prop :=
  p.arrival.marked = false ∧ ∀ r ∈ p.requeues, r.atHead = true

structure WellMarked (q : Queue) (p : Packet) : Prop where
  nonempty : p.buf ≠ []
  /-- In the queue for first attempts packets are new. -/
  new : q = .firstAttempt → p.requeues = []
  /-- In the long queue a packet has the mark, except in the circumstances in which it gets none. -/
  long : q = .long → isPacketRequeued p.buf = true ∨ (p.requeues = [] ∧
      (p.arrival.flirs = true ∨ p.arrival.empty = true ∨ p.arrival.waiting = true)) ∨
    (p.requeues ≠ [] ∧ ∀ r ∈ p.requeues, r.flirs = true)
  /-- A packet for a sleeping node does not get into the long queue when it arrives. -/
  awake : q = .long → p.requeues = [] → p.arrival.mailbox = false
  /-- Nor does it later, unless it tells the node to go to sleep. -/
  wunmi : ∀ r ∈ p.requeues, r.mailbox = true → r.wunmi = true
  mark : isPacketRequeued p.buf = true ↔ ∃ r ∈ p.requeues, r.marked = true
  marked : ∀ r ∈ p.requeues, r.marked = true ↔ r.status ≠ transmitCompleteRequeueQueued ∨ r.flirs = false
  cause : ∀ r ∈ p.requeues, r.status = transmitCompleteNoAck ∨ r.status = transmitCompleteRequeueQueued
  /-- Only the first time can be for a missing acknowledgement, and the mailbox cannot be the reason
  once the packet has the mark. -/
  once : p.requeues.Pairwise fun later earlier =>
    later.status = transmitCompleteRequeueQueued ∧ (later.mailboxBusy = true → earlier.marked = false)

def Placed (q : Queue) (p : Packet) : Prop :=
  Orderly p → WellMarked q p

/-- Every queued packet is marked as it should be, and `ClassicZIPNode_input` was told of every
packet whether the queue had marked it. -/
structure Marked (s : State) : Prop where
  queued : ∀ q, ∀ p ∈ s.queue q, Placed q p
  handed : ∀ p alreadyRequeued, .handed p alreadyRequeued ∈ s.log → Orderly p →
    (alreadyRequeued = true ↔ ∃ r ∈ p.requeues, r.marked = true)

section Packets

variable {w : World} {s : State} {q : Queue} {status : UInt8} {head reported : Packet} {mailboxBusy : Bool}

theorem or_one_and_one (b : UInt8) : (b ||| 1) &&& 1 = 1 := by
  apply UInt8.toBitVec_inj.mp
  simp only [UInt8.toBitVec_and, UInt8.toBitVec_or]
  ext i hi
  simp only [BitVec.getElem_and, BitVec.getElem_or, Bool.and_eq_right_iff_imp, Bool.or_eq_true]
  exact fun hone => Or.inr hone

theorem isPacketRequeued_setPacketRequeued {buf : Bytes} (h : buf ≠ []) :
    isPacketRequeued (setPacketRequeued buf) = true := by
  cases buf with
  | nil => exact absurd rfl h
  | cons b buf => simp [isPacketRequeued, setPacketRequeued, or_one_and_one]

theorem arrivalOf_long {node : NodeId} {buf : Bytes} (h : (arrivalOf w s node buf).queue = .long) :
    (arrivalOf w s node buf).mailbox = false ∧
      ((arrivalOf w s node buf).flirs = true ∨ (arrivalOf w s node buf).empty = true ∨
        (arrivalOf w s node buf).waiting = true) := by
  simp only [arrivalOf] at h ⊢
  split at h
  · rename_i huse
    simp only [Bool.and_eq_true, Bool.or_eq_true, Bool.not_eq_true'] at huse
    obtain ⟨hmailbox, (hwaiting | hflirs) | hempty⟩ := huse
    · exact ⟨hmailbox, Or.inr (Or.inr hwaiting)⟩
    · exact ⟨hmailbox, Or.inl hflirs⟩
    · exact ⟨hmailbox, Or.inr (Or.inl (by simpa using hempty))⟩
  · exact absurd h (by simp)

theorem placed_arrivedPacket (node : NodeId) (ip : IpPacket) :
    Placed (arrivalOf w s node ip.bytes).queue (arrivedPacket w s node ip) := by
  intro horderly
  have hmark : isPacketRequeued ip.bytes = false := horderly.1
  refine ⟨?_, fun _ => rfl, fun hlong => Or.inr (Or.inl ⟨rfl, (arrivalOf_long hlong).2⟩),
    fun hlong _ => (arrivalOf_long hlong).1, by simp [arrivedPacket], ?_, by simp [arrivedPacket],
    by simp [arrivedPacket], List.Pairwise.nil⟩
  · have hlonger := ip.longer
    intro hnil
    rw [show ip.bytes = [] from hnil] at hlonger
    exact absurd hlonger (Nat.not_lt_zero _)
  · simp [arrivedPacket, hmark]

theorem givesMark_iff : givesMark w head status = true ↔
    status ≠ transmitCompleteRequeueQueued ∨ isFlirs (modeOf w head.buf) = false := by
  simp [givesMark]

theorem isPacketRequeued_requeuedPacket (w : World) (head : Packet) (status : UInt8)
    (mailboxBusy mark : Bool) (h : reported.buf ≠ []) :
    isPacketRequeued (requeuedPacket w head reported status mailboxBusy mark reported.buf).buf = true ↔
      mark = true ∨ isPacketRequeued reported.buf = true := by
  cases mark with
  | true => simp [requeuedPacket, isPacketRequeued_setPacketRequeued h]
  | false => simp [requeuedPacket]

theorem placed_requeuedPacket (h : Placed q reported) (hcalls : CallsForRequeue q status reported.buf)
    (hstays : queueMoveToMailbox w (modeOf w head.buf) reported.buf = false)
    (hbusy : mailboxBusy = true → isPacketRequeued reported.buf = false) :
    Placed .long (requeuedPacket w head reported status mailboxBusy (givesMark w head status) reported.buf) := by
  intro horderly
  have hhead : head = reported := by
    have hat := horderly.2 _ List.mem_cons_self
    simpa [requeuedPacket] using hat
  have hbefore : Orderly reported :=
    ⟨horderly.1, fun r hr => horderly.2 r (List.mem_cons_of_mem _ hr)⟩
  obtain ⟨hnonempty, hnew, -, -, hwunmi, hmark, hmarked, hcause, honce⟩ := h hbefore
  subst hhead
  have hmark' := isPacketRequeued_requeuedPacket w head status mailboxBusy (givesMark w head status) hnonempty
  have hstatus : status = transmitCompleteNoAck ∨ status = transmitCompleteRequeueQueued := by
    rcases hcalls with hqueued | ⟨-, hnoack, -⟩
    · exact Or.inr hqueued
    · exact Or.inl hnoack
  refine ⟨?_, by simp, ?_, ?_, ?_, ?_, ?_, ?_, ?_⟩
  · simp only [requeuedPacket]
    split
    · exact setPacketRequeued_ne_nil hnonempty
    · exact hnonempty
  · intro _
    rw [hmark', or_iff_not_imp_left]
    intro hnone
    obtain ⟨hgives, hold⟩ := not_or.mp hnone
    rw [hmark] at hold
    refine Or.inr ⟨by simp [requeuedPacket], ?_⟩
    intro r hr
    rcases List.mem_cons.mp hr with rfl | hr
    · by_contra hflirs
      exact hgives (givesMark_iff.mpr (Or.inr (Bool.eq_false_of_not_eq_true hflirs)))
    · by_contra hflirs
      exact hold ⟨r, hr, (hmarked r hr).mpr (Or.inr (Bool.eq_false_of_not_eq_true hflirs))⟩
  · intro _ hnil
    exact absurd hnil (by simp [requeuedPacket])
  · intro r hr
    rcases List.mem_cons.mp hr with rfl | hr
    · intro hmailbox
      have hmailbox' : isMailboxNode w (modeOf w head.buf) = true := hmailbox
      simpa [queueMoveToMailbox, hmailbox'] using hstays
    · exact hwunmi r hr
  · rw [hmark', hmark]
    constructor
    · rintro (hnow | ⟨r, hr, hr'⟩)
      · exact ⟨_, List.mem_cons_self, hnow⟩
      · exact ⟨r, List.mem_cons_of_mem _ hr, hr'⟩
    · rintro ⟨r, hr, hr'⟩
      rcases List.mem_cons.mp hr with rfl | hr
      · exact Or.inl hr'
      · exact Or.inr ⟨r, hr, hr'⟩
  · intro r hr
    rcases List.mem_cons.mp hr with rfl | hr
    · exact givesMark_iff
    · exact hmarked r hr
  · intro r hr
    rcases List.mem_cons.mp hr with rfl | hr
    · exact hstatus
    · exact hcause r hr
  · refine List.Pairwise.cons ?_ honce
    intro r hr
    constructor
    · rcases hcalls with hqueued | ⟨hfirst, -, -⟩
      · exact hqueued
      · rw [hnew hfirst] at hr
        exact absurd hr (by simp)
    · intro hbusy'
      have hunmarked : ¬ isPacketRequeued head.buf = true := by
        rw [hbusy hbusy']
        exact Bool.false_ne_true
      rw [hmark] at hunmarked
      exact Bool.eq_false_of_not_eq_true fun hr' => hunmarked ⟨r, hr, hr'⟩

end Packets

section Steps

variable {w : World} {s : State} {q : Queue} {status : UInt8} {p : Packet}

structure Flagged (s : State) : Prop extends Marked s where
  sending : ∀ p, s.sending = some p → ∀ q, s.queueState.queue? = some q → Placed q p

theorem flagged_init : Flagged init where
  queued := by
    intro q p hp
    cases q <;> simp [init, State.queue] at hp
  handed := by simp [init]
  sending := by simp [init]

theorem Flagged.settle {t : State} (h : Flagged s) (hqueued : ∀ q, ∀ p ∈ t.queue q, Placed q p)
    (hlog : ∀ p alreadyRequeued, .handed p alreadyRequeued ∈ t.log → .handed p alreadyRequeued ∈ s.log)
    (hsending : t.sending = none) : Flagged t := by
  refine ⟨⟨hqueued, fun p alreadyRequeued hp => h.handed p alreadyRequeued (hlog p _ hp)⟩, ?_⟩
  intro p hp
  rw [hsending] at hp
  exact absurd hp (by simp)

theorem flagged_mbNodeTransmissionOkEvent (h : Flagged s) (head : Packet) :
    Flagged (mbNodeTransmissionOkEvent w s head status) := by
  unfold mbNodeTransmissionOkEvent
  split
  · refine ⟨⟨?_, ?_⟩, h.sending⟩
    · rw [queue_record]
      exact h.queued
    · intro p alreadyRequeued hp
      exact h.handed p alreadyRequeued (by simpa [State.record] using hp)
  · exact h

theorem flagged_settled {head : Packet} {mailboxBusy : Bool} {sentBuffer : Bytes} {t : State}
    (h : Flagged s) (hplaced : Placed q p)
    (hsent : CallsForRequeue q status sentBuffer → sentBuffer = p.buf)
    (hbusy : mailboxBusy = true → isPacketRequeued p.buf = false)
    (ht : Settled w s q head p mailboxBusy status sentBuffer t) :
    Flagged { t with sending := none } := by
  have hkeep : ∀ q', ∀ p' ∈ (uipPacketqueuePop s q).queue q', Placed q' p' :=
    fun q' p' hp' => h.queued q' p' (mem_of_mem_pop hp')
  cases ht with
  | kept hstatus =>
    refine h.settle h.queued ?_ rfl
    intro p' alreadyRequeued hp'
    simpa [State.record] using hp'
  | mailbox hstatus hcalls =>
    refine h.settle ?_ ?_ rfl
    · rw [queue_sending_none, queue_popHead, pop_record, queue_record]
      exact hkeep
    · intro p' alreadyRequeued hp'
      simpa [State.record] using hp'
  | requeued hstatus hcalls hstays =>
    obtain rfl := hsent hcalls
    have hnew : Placed .long (requeuedPacket w head p status _ _ p.buf) :=
      placed_requeuedPacket hplaced hcalls hstays hbusy
    refine h.settle ?_ ?_ rfl
    · intro q' p' hp'
      rw [queue_sending_none, queue_popHead] at hp'
      have hmem := mem_of_mem_pop hp'
      cases q' with
      | firstAttempt => exact h.queued .firstAttempt p' hmem
      | long =>
        rw [queue_setQueue] at hmem
        rcases List.mem_append.mp hmem with hmem | hmem
        · exact h.queued .long p' hmem
        · rw [List.mem_singleton.mp hmem]
          exact hnew
    · intro p' alreadyRequeued hp'
      simpa using hp'
  | lost hstatus hcalls hstays hfree =>
    refine h.settle ?_ ?_ rfl
    · rw [queue_sending_none, queue_popHead]
      exact hkeep
    · intro p' alreadyRequeued hp'
      simpa using hp'
  | finished hstatus hcalls =>
    refine h.settle ?_ ?_ rfl
    · rw [queue_sending_none, queue_popHead, pop_record, queue_record]
      exact hkeep
    · intro p' alreadyRequeued hp'
      simpa [State.record] using hp'

theorem flagged_queueSendDone {mailboxBusy : Bool} {sentBuffer : Bytes} (h : Flagged s) (hsending : s.sending = some p)
    (hsent : ∀ q, CallsForRequeue q status sentBuffer → sentBuffer = p.buf)
    (hbusy : mailboxBusy = true → isPacketRequeued p.buf = false) :
    Flagged { queueSendDone w s p mailboxBusy status sentBuffer with sending := none } := by
  cases hq : s.queueState.queue? with
  | none =>
    simp only [queueSendDone, hq]
    exact h.settle h.queued (fun _ _ hp' => hp') rfl
  | some q =>
    have hplaced := h.sending p hsending q hq
    cases hqueue : s.queue q with
    | nil =>
      simp only [queueSendDone, hq, hqueue, List.head?_nil]
      refine h.settle h.queued ?_ rfl
      intro p' alreadyRequeued hp'
      simpa [State.record] using hp'
    | cons head rest =>
      exact flagged_settled (flagged_mbNodeTransmissionOkEvent h head) hplaced (hsent q) hbusy
        (queueSendDone_settled hq hqueue)

theorem flagged_nodeInputQueued (h : Flagged s) (node : NodeId) (decrypted : Bool)
    (ip : IpPacket) : Flagged (nodeInputQueued w s node decrypted ip) := by
  have hfingerprint : (addFingerprintUipBuf s ip.bytes).queue = s.queue := by
    funext q
    cases q <;> rfl
  have htaken := nodeInputQueued_taken (w := w) (s := s) node decrypted ip
  generalize nodeInputQueued w s node decrypted ip = t at htaken
  cases htaken with
  | unchanged => exact h
  | refused => exact ⟨⟨by rw [hfingerprint]; exact h.queued, h.handed⟩, h.sending⟩
  | queued =>
    have hnew := placed_arrivedPacket (w := w) (s := s) node ip
    generalize arrivedPacket w s node ip = p at hnew ⊢
    generalize (arrivalOf w s node ip.bytes).queue = q at hnew ⊢
    refine ⟨⟨?_, ?_⟩, ?_⟩
    · intro q' p' hp'
      rw [queue_enqueue] at hp'
      by_cases hq : q' = q
      · subst hq
        rw [queue_setQueue, hfingerprint] at hp'
        rcases List.mem_append.mp hp' with hp' | hp'
        · exact h.queued q' p' hp'
        · rw [List.mem_singleton.mp hp']
          exact hnew
      · rw [queue_setQueue_of_ne _ hq, hfingerprint] at hp'
        exact h.queued q' p' hp'
    · intro p' alreadyRequeued hp'
      rw [log_enqueue] at hp'
      exact h.handed p' alreadyRequeued (by simpa [addFingerprintUipBuf] using hp')
    · simpa [enqueue, State.record, addFingerprintUipBuf] using h.sending

theorem flagged_handOver {rest : List Packet} (h : Flagged s) (hhead : s.queue q = p :: rest) :
    Flagged (handOver s q p) := by
  have hplaced : Placed q p := h.queued q p (by rw [hhead]; exact List.mem_cons_self)
  refine ⟨⟨?_, ?_⟩, ?_⟩
  · rw [queue_handOver]
    exact h.queued
  · intro p' alreadyRequeued hp' horderly
    rcases List.mem_cons.mp hp' with hsame | hp'
    · obtain ⟨rfl, rfl⟩ := Action.handed.inj hsame
      exact (hplaced horderly).mark
    · exact h.handed p' alreadyRequeued hp' horderly
  · intro p' hsending q' hq'
    obtain rfl : p = p' := Option.some.inj hsending
    have hsame : q.sending.queue? = some q' := hq'
    rw [queue?_sending] at hsame
    exact Option.some.inj hsame ▸ hplaced

theorem flagged_processNodeQueues {mailboxBusy : Bool} {answer : Answer} (h : Flagged s) :
    Flagged (processNodeQueues w s mailboxBusy answer) := by
  have hprocessed := processNodeQueues_processed w s mailboxBusy answer
  generalize processNodeQueues w s mailboxBusy answer = t at hprocessed
  cases hprocessed with
  | nothing => exact h
  | @dropped q p rest hnext hhead hbuf =>
    have hqueue : State.queue { s with queueState := .idle, sendNack := q == .long } = s.queue := by
      funext q'
      cases q' <;> rfl
    refine ⟨⟨?_, ?_⟩, ?_⟩
    · intro q' p' hp'
      have hmem := mem_of_mem_pop hp'
      rw [hqueue] at hmem
      exact h.queued q' p' hmem
    · simpa [uipPacketqueuePop] using h.handed
    · simp [uipPacketqueuePop, QueueState.queue?]
  | pending hnext hhead => exact flagged_handOver h hhead
  | completed hnext hhead hbusy hresult =>
    exact flagged_queueSendDone (flagged_handOver h hhead) rfl (fun _ _ => rfl) hbusy
  | refused hnext hhead =>
    refine flagged_queueSendDone (flagged_handOver h hhead) rfl ?_ (by simp)
    rintro q (hfail | ⟨-, hfail, -⟩) <;> exact absurd hfail (by decide)

theorem flagged_packetTimedout (h : Flagged s) (q : Queue) (i : Nat) : Flagged (packetTimedout s q i) := by
  unfold packetTimedout
  cases hi : (s.queue q)[i]? with
  | none => exact h
  | some p =>
    refine ⟨⟨?_, ?_⟩, ?_⟩
    · intro q' p' hp'
      rw [queue_record] at hp'
      by_cases hq : q' = q
      · subst hq
        rw [queue_setQueue] at hp'
        exact h.queued q' p' (List.mem_of_mem_eraseIdx hp')
      · rw [queue_setQueue_of_ne _ hq] at hp'
        exact h.queued q' p' hp'
    · intro p' alreadyRequeued hp'
      exact h.handed p' alreadyRequeued (by simpa [State.record] using hp')
    · simpa [State.record] using h.sending

theorem flagged_step (input : World × Event) (h : Flagged s) : Flagged (step s input) := by
  obtain ⟨w, event⟩ := input
  cases event with
  | input node decrypted ip => exact flagged_nodeInputQueued h node decrypted ip
  | queueUpdated mailboxBusy answer => exact flagged_processNodeQueues h
  | sendDone status =>
    simp only [step]
    cases hsending : s.sending with
    | none => exact h
    | some p => exact flagged_queueSendDone h hsending (fun _ _ => rfl) (by simp)
  | timedout q i => exact flagged_packetTimedout h q i

end Steps

/-- In every state the node queue can get into, all packets are marked as they should be. -/
theorem packets_marked (inputs : List (World × Event)) : Marked (Machine.run step init inputs) :=
  (Machine.run_invariant (fun _ input h => flagged_step input h) flagged_init inputs).toMarked

def busyNetwork : List (World × Event) :=
  [sampleInput 5 1, sampleInput 12 2] ++
    List.replicate 4 (sampleWorld, .queueUpdated false (.completed transmitCompleteRequeueQueued))

/-- Both are queued again and again, and the one for the FLIRS node never gets the mark. -/
theorem busyNetwork_requeued : ¬ ∀ p ∈ (Machine.run step init busyNetwork).long, p.arrival.marked = false →
      (isPacketRequeued p.buf = true ↔ p.requeues ≠ []) ∧ p.requeues.length ≤ 1 := by
  decide +kernel

end ZipGateway.NodeQueue

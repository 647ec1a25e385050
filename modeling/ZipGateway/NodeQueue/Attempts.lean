import ZipGateway.NodeQueue.Queues

/-!
# What the functions of the node queue can do

A result leaves the head where it is, gives it to the mailbox,
moves it to the end of the long queue, is the last word about it, or loses it for want of a free
packet; an input adds a packet at the end of one queue or none at all.
-/

namespace ZipGateway.NodeQueue

variable {w : World} {s : State} {q : Queue} {status : UInt8} {head reported : Packet}
  {rest : List Packet} {mailboxBusy : Bool} {sentBuffer : Bytes}

section Fields

@[simp]
theorem queue?_sending (q : Queue) : q.sending.queue? = some q := by
  cases q <;> rfl

@[simp]
theorem queue_record (a : Action) : (s.record a).queue = s.queue := by
  funext q
  cases q <;> rfl

@[simp]
theorem queue_setQueue (packets : List Packet) : (s.setQueue q packets).queue q = packets := by
  cases q <;> rfl

theorem queue_setQueue_of_ne {q' : Queue} (packets : List Packet) (h : q' ≠ q) :
    (s.setQueue q packets).queue q' = s.queue q' := by
  cases q <;> cases q' <;> first | rfl | exact absurd rfl h

@[simp]
theorem log_setQueue (packets : List Packet) : (s.setQueue q packets).log = s.log := by
  cases q <;> rfl

@[simp]
theorem queueState_setQueue (packets : List Packet) : (s.setQueue q packets).queueState = s.queueState := by
  cases q <;> rfl

@[simp]
theorem sending_setQueue (packets : List Packet) : (s.setQueue q packets).sending = s.sending := by
  cases q <;> rfl

@[simp]
theorem sendNack_setQueue (packets : List Packet) : (s.setQueue q packets).sendNack = s.sendNack := by
  cases q <;> rfl

@[simp]
theorem nextFrame_setQueue (packets : List Packet) : (s.setQueue q packets).nextFrame = s.nextFrame := by
  cases q <;> rfl

theorem pop_record (a : Action) : uipPacketqueuePop (s.record a) q = (uipPacketqueuePop s q).record a := by
  cases q <;> rfl

@[simp]
theorem queue_sending_none : State.queue { s with sending := none } = s.queue := by
  funext q
  cases q <;> rfl

theorem mem_of_mem_pop {q' : Queue} {p : Packet} (hp : p ∈ (uipPacketqueuePop s q).queue q') : p ∈ s.queue q' := by
  by_cases hq : q' = q
  · subst hq
    rw [uipPacketqueuePop, queue_setQueue] at hp
    exact List.mem_of_mem_tail hp
  · rw [uipPacketqueuePop, queue_setQueue_of_ne _ hq] at hp
    exact hp

theorem setPacketRequeued_ne_nil {buf : Bytes} (h : buf ≠ []) : setPacketRequeued buf ≠ [] := by
  cases buf with
  | nil => exact absurd rfl h
  | cons b buf => simp [setPacketRequeued]

theorem queue_mbNodeTransmissionOkEvent (head : Packet) :
    (mbNodeTransmissionOkEvent w s head status).queue = s.queue := by
  unfold mbNodeTransmissionOkEvent
  split
  · exact queue_record _
  · rfl

end Fields

section Results

def CallsForRequeue (q : Queue) (status : UInt8) (sentBuffer : Bytes) : Prop :=
  status = transmitCompleteRequeueQueued ∨ (q = .firstAttempt ∧ status = transmitCompleteNoAck ∧ sentBuffer ≠ [])

instance (q : Queue) (status : UInt8) (sentBuffer : Bytes) : Decidable (CallsForRequeue q status sentBuffer) :=
  inferInstanceAs (Decidable (_ ∨ _))

def givesMark (w : World) (head : Packet) (status : UInt8) : Bool :=
  status != transmitCompleteRequeueQueued || !isFlirs (modeOf w head.buf)

def popHead (s : State) (q : Queue) (head reported : Packet) (status : UInt8) : State :=
  { uipPacketqueuePop s q with queueState := .idle }.record
    (.reported reported.frame status (some head.frame))

@[simp]
theorem queue_popHead : (popHead s q head reported status).queue = (uipPacketqueuePop s q).queue := by
  funext q'
  cases q' <;> rfl

@[simp]
theorem log_popHead : (popHead s q head reported status).log =
    .reported reported.frame status (some head.frame) :: s.log := by
  cases q <;> rfl

@[simp]
theorem nextFrame_popHead : (popHead s q head reported status).nextFrame = s.nextFrame := by
  cases q <;> rfl

inductive Settled (w : World) (s : State) (q : Queue) (head reported : Packet) (mailboxBusy : Bool)
    (status : UInt8) (sentBuffer : Bytes) : State → Prop where
  | kept (hstatus : status = transmitCompleteRequeue) :
      Settled w s q head reported mailboxBusy status sentBuffer
        ({ s with queueState := .idle }.record (.reported reported.frame status none))
  | mailbox (hstatus : status ≠ transmitCompleteRequeue)
      (hcalls : CallsForRequeue q status sentBuffer) :
      Settled w s q head reported mailboxBusy status sentBuffer
        (popHead (s.record (.mailbox reported.frame sentBuffer)) q head reported status)
  | requeued (hstatus : status ≠ transmitCompleteRequeue)
      (hcalls : CallsForRequeue q status sentBuffer)
      (hstays : queueMoveToMailbox w (modeOf w head.buf) sentBuffer = false) :
      Settled w s q head reported mailboxBusy status sentBuffer
        (popHead (s.setQueue .long (s.long ++ [requeuedPacket w head reported status mailboxBusy
          (givesMark w head status) sentBuffer])) q head reported status)
  | lost (hstatus : status ≠ transmitCompleteRequeue)
      (hcalls : CallsForRequeue q status sentBuffer)
      (hstays : queueMoveToMailbox w (modeOf w head.buf) sentBuffer = false) (hfree : ¬ Free w s) :
      Settled w s q head reported mailboxBusy status sentBuffer (popHead s q head reported status)
  | finished (hstatus : status ≠ transmitCompleteRequeue)
      (hcalls : ¬ CallsForRequeue q status sentBuffer) :
      Settled w s q head reported mailboxBusy status sentBuffer
        (popHead (s.record (.finished reported.frame status s.sendNack)) q head reported status)

theorem settled_requeue (hstatus : status ≠ transmitCompleteRequeue) (hcalls : CallsForRequeue q status sentBuffer) :
    Settled w s q head reported mailboxBusy status sentBuffer
      (popHead (requeue w s head reported status mailboxBusy (givesMark w head status) sentBuffer) q
        head reported status) := by
  unfold requeue
  by_cases hmail : queueMoveToMailbox w (modeOf w head.buf) sentBuffer = true
  · rw [if_pos hmail]
    exact .mailbox hstatus hcalls
  · have hstays : queueMoveToMailbox w (modeOf w head.buf) sentBuffer = false := by
      simpa using hmail
    rw [if_neg hmail]
    by_cases hfree : Free w s
    · simp only [uipPacketqueueAlloc, if_pos hfree, Option.getD_some]
      exact .requeued hstatus hcalls hstays
    · simp only [uipPacketqueueAlloc, if_neg hfree, Option.getD_none]
      exact .lost hstatus hcalls hstays hfree

theorem queueSendDone_settled (hq : s.queueState.queue? = some q) (hhead : s.queue q = head :: rest) :
    Settled w (mbNodeTransmissionOkEvent w s head status) q head reported mailboxBusy status
      sentBuffer (queueSendDone w s reported mailboxBusy status sentBuffer) := by
  simp only [queueSendDone, hq, hhead, List.head?_cons]
  by_cases hrequeue : status = transmitCompleteRequeue
  · rw [if_pos hrequeue]
    exact .kept hrequeue
  rw [if_neg hrequeue]
  by_cases hqueued : status = transmitCompleteRequeueQueued
  · have hmark : givesMark w head status = !isFlirs (modeOf w head.buf) := by
      simp [givesMark, hqueued]
    rw [if_pos hqueued, ← hmark]
    exact settled_requeue hrequeue (Or.inl hqueued)
  rw [if_neg hqueued]
  by_cases hfirst : q = .firstAttempt ∧ status = transmitCompleteNoAck ∧ sentBuffer ≠ []
  · have hmark : givesMark w head status = true := by
      simp [givesMark, hqueued]
    rw [if_pos hfirst, ← hmark]
    exact settled_requeue hrequeue (Or.inr hfirst)
  · rw [if_neg hfirst]
    refine .finished hrequeue ?_
    rintro (h | h)
    · exact hqueued h
    · exact hfirst h

end Results

section Processing

def resultAtOnce (p : Packet) (mailboxBusy : Bool) (answer : Answer) : Option UInt8 :=
  if mailboxBusy && !isPacketRequeued p.buf then some transmitCompleteRequeueQueued
  else
    match answer with
    | .completed status => some status
    | _ => none

def handOver (s : State) (q : Queue) (p : Packet) : State :=
  { s with
    queueState := q.sending
    sendNack := q == Queue.long
    sending := some p }.record (.handed p (isPacketRequeued p.buf))

theorem queue_handOver (p : Packet) : (handOver s q p).queue = s.queue := by
  funext q'
  cases q' <;> rfl

inductive Processed (w : World) (s : State) (mailboxBusy : Bool) (answer : Answer) :
    State → Prop where
  | nothing : Processed w s mailboxBusy answer s
  | dropped {q p rest} (hnext : nextQueue s = some q) (hhead : s.queue q = p :: rest)
      (hbuf : p.buf = []) :
      Processed w s mailboxBusy answer (uipPacketqueuePop { s with queueState := .idle, sendNack := q == .long } q)
  | pending {q p rest} (hnext : nextQueue s = some q) (hhead : s.queue q = p :: rest) :
      Processed w s mailboxBusy answer (handOver s q p)
  | completed {q p rest status} {busy : Bool} (hnext : nextQueue s = some q)
      (hhead : s.queue q = p :: rest) (hbusy : busy = true → isPacketRequeued p.buf = false)
      (hresult : resultAtOnce p mailboxBusy answer = some status) :
      Processed w s mailboxBusy answer { queueSendDone w (handOver s q p) p busy status p.buf with sending := none }
  | refused {q p rest} (hnext : nextQueue s = some q) (hhead : s.queue q = p :: rest) :
      Processed w s mailboxBusy answer
        { queueSendDone w (handOver s q p) p false transmitCompleteFail [] with sending := none }

theorem processNodeQueues_processed (w : World) (s : State) (mailboxBusy : Bool) (answer : Answer) :
    Processed w s mailboxBusy answer (processNodeQueues w s mailboxBusy answer) := by
  unfold processNodeQueues
  cases hnext : nextQueue s with
  | none => exact .nothing
  | some q =>
    simp only
    cases hhead : s.queue q with
    | nil => exact .nothing
    | cons p rest =>
      simp only [List.head?_cons]
      by_cases hbuf : p.buf.length ≠ 0
      · rw [if_pos hbuf]
        unfold classicZIPNodeInput
        by_cases hbusy : (mailboxBusy && !isPacketRequeued p.buf) = true
        · have hmark : isPacketRequeued p.buf = false := by simp_all
          simp only [if_pos hbusy]
          exact .completed hnext hhead (fun _ => hmark) (if_pos hbusy)
        · simp only [if_neg hbusy]
          cases answer with
          | refused => exact .refused hnext hhead
          | pending => exact .pending hnext hhead
          | completed status =>
            exact .completed hnext hhead (by simp) (if_neg hbusy)
      · rw [if_neg hbuf]
        exact .dropped hnext hhead (List.length_eq_zero_iff.mp (not_not.mp hbuf))

end Processing

section Inputs

def enqueue (s : State) (q : Queue) (p : Packet) : State :=
  { s.setQueue q (s.queue q ++ [p]) with nextFrame := s.nextFrame + 1 }.record (.queued p.frame)

theorem queue_enqueue (p : Packet) : (enqueue s q p).queue = (s.setQueue q (s.queue q ++ [p])).queue := by
  funext q'
  cases q' <;> rfl

theorem log_enqueue (p : Packet) : (enqueue s q p).log = .queued p.frame :: s.log := by
  cases q <;> rfl

inductive Taken (w : World) (s : State) (node : NodeId) (ip : IpPacket) : State → Prop where
  | unchanged : Taken w s node ip s
  | refused : Taken w s node ip (addFingerprintUipBuf s ip.bytes)
  | queued :
      Taken w s node ip (enqueue (addFingerprintUipBuf s ip.bytes) (arrivalOf w s node ip.bytes).queue
          (arrivedPacket w s node ip))

theorem nodeInputQueued_taken (node : NodeId) (decrypted : Bool) (ip : IpPacket) :
    Taken w s node ip (nodeInputQueued w s node decrypted ip) := by
  unfold nodeInputQueued
  by_cases hbypass : bypasses w decrypted ip.bytes = true
  · rw [if_pos hbypass]
    exact .unchanged
  rw [if_neg hbypass]
  by_cases hdup : checkFingerprintUipBuf s ip.bytes = true
  · rw [if_pos hdup]
    exact .unchanged
  rw [if_neg hdup]
  by_cases hfree : Free w (addFingerprintUipBuf s ip.bytes)
  · simp only [uipPacketqueueAlloc, if_pos hfree, nextFrame_setQueue]
    exact .queued
  · simp only [uipPacketqueueAlloc, if_neg hfree]
    exact .refused

end Inputs

end ZipGateway.NodeQueue

import Mathlib.Data.List.Perm.Subperm
import Mathlib.Data.List.Sort
import ZipGateway.NodeQueue.Duplicates
import ZipGateway.NodeQueue.NoLoss

/-!
# The order of the packets for one node

`node_queue.h` asks that frames are not reordered: when a transmission is aborted, the others for that
destination have to wait. The queue does not see to this. It moves the frame to the end of the long
queue, and the next frame for the same node may be the head of the queue for first attempts. The order
is kept where a packet that has to wait is the only one for its node, and where no packet gets ahead of
one that waits in the long queue.
-/

namespace ZipGateway.NodeQueue

open Function (update update_of_ne)

structure Course where
  state : State
  dest : Nat → NodeId

namespace Course

def init : Course where
  state := NodeQueue.init
  dest _ := 0

/-- A packet gets the number `nextFrame` if it is accepted. -/
def step (c : Course) (input : World × Event) : Course where
  state := NodeQueue.step c.state input
  dest :=
    match input with
    | (_, .input node _ _) => update c.dest c.state.nextFrame node
    | _ => c.dest

def run (c : Course) (inputs : List (World × Event)) : Course :=
  Machine.run step c inputs

end Course

def deliveredFrame : Action → Option Nat
  | .reported frame status _ => if status = transmitCompleteOk then some frame else none
  | _ => none

def delivered (log : List Action) : List Nat :=
  log.filterMap deliveredFrame

namespace Course

def acceptedFor (c : Course) (node : NodeId) : List Nat :=
  (arrived c.state.log).reverse.filter fun frame => c.dest frame = node

def deliveredTo (c : Course) (node : NodeId) : List Nat :=
  (delivered c.state.log).reverse.filter fun frame => c.dest frame = node

def InOrder (c : Course) : Prop :=
  ∀ node, (c.deliveredTo node).Sublist (c.acceptedFor node)

section Condition

def Alone (c : Course) (p : Packet) : Prop :=
  ∀ frame ∈ held c.state, c.dest frame = c.dest p.frame → frame = p.frame

def Yields (c : Course) (w : World) (p : Packet) (status : UInt8) : Prop :=
  ∀ q ∈ c.state.queueState.queue?, ∀ head ∈ (c.state.queue q).head?, CallsForRequeue q status p.buf →
    queueMoveToMailbox w (modeOf w head.buf) p.buf = false → c.Alone p

/-- A packet that is moved to the end of the long queue is the only one for its node, and a packet gets
into the queue for first attempts only if none for its node waits in the long queue. -/
def Calm (c : Course) : World × Event → Prop
  | (w, .input node decrypted ip) =>
    outcome w c.state decrypted ip = .queued → (arrivalOf w c.state node ip.bytes).queue = .firstAttempt →
        ∀ p ∈ c.state.long, c.dest p.frame ≠ node
  | (w, .queueUpdated mailboxBusy answer) =>
    ∀ q ∈ nextQueue c.state, ∀ p ∈ (c.state.queue q).head?,
      ∀ status ∈ resultAtOnce p mailboxBusy answer, MovesToLong w q p status → c.Alone p
  | (w, .sendDone status) => ∀ p ∈ c.state.sending, c.Yields w p status
  | (_, .timedout _ _) => True

instance (c : Course) (p : Packet) : Decidable (c.Alone p) :=
  inferInstanceAs (Decidable (∀ frame ∈ held c.state, _))

instance (c : Course) (w : World) (p : Packet) (status : UInt8) : Decidable (c.Yields w p status) :=
  inferInstanceAs (Decidable (∀ q ∈ c.state.queueState.queue?, _))

instance (c : Course) : ∀ input : World × Event, Decidable (c.Calm input)
  | (_, .input _ _ _) => inferInstanceAs (Decidable (_ → _))
  | (_, .queueUpdated _ _) => inferInstanceAs (Decidable (∀ q ∈ nextQueue c.state, _))
  | (_, .sendDone _) => inferInstanceAs (Decidable (∀ p ∈ c.state.sending, _))
  | (_, .timedout _ _) => isTrue trivial

end Condition

def Before (dest : Nat → NodeId) (a b : Nat) : Prop :=
  dest a = dest b → a < b

structure Lined (dest : Nat → NodeId) (s : State) : Prop where
  line : ((delivered s.log).reverse ++ held s).Pairwise (Before dest)
  numbered : (arrived s.log).reverse = List.range s.nextFrame
  deliveredLt : ∀ frame ∈ delivered s.log, frame < s.nextFrame
  heldLt : ∀ frame ∈ held s, frame < s.nextFrame

structure Transmitting (dest : Nat → NodeId) (s : State) (p : Packet) : Prop where
  lt : p.frame < s.nextFrame
  later : ∀ frame ∈ delivered s.log, Before dest frame p.frame
  first : ∀ frame ∈ held s, frame ≠ p.frame → Before dest p.frame frame
  place : ∃ q, s.queueState = q.sending ∧
    (p.frame ∉ held s ∨ ∃ head rest, s.queue q = head :: rest ∧ head.frame = p.frame)

structure Ordered (dest : Nat → NodeId) (s : State) : Prop extends Lined dest s where
  idle : s.sending = none → s.queueState = .idle
  sending : ∀ p, s.sending = some p → Transmitting dest s p

theorem ordered_init : Ordered (fun _ => 0) NodeQueue.init where
  line := List.Pairwise.nil
  numbered := rfl
  deliveredLt _ hframe := absurd hframe List.not_mem_nil
  heldLt _ hframe := absurd hframe List.not_mem_nil
  idle _ := rfl
  sending _ hp := by cases hp

end Course

section Lines

open Course

variable {dest : Nat → NodeId} {w : World} {s t : State} {q : Queue} {p head : Packet} {rest : List Packet}
  {status : UInt8}

theorem nodup_of_before {l : List Nat} (h : l.Pairwise (Before dest)) : l.Nodup := by
  refine h.imp fun hbefore heq => ?_
  subst heq
  exact Nat.lt_irrefl _ (hbefore rfl)

theorem Course.Lined.held_line (h : Lined dest s) : (held s).Pairwise (Before dest) :=
  (List.pairwise_append.mp h.line).2.1

theorem Course.Lined.congr (h : Lined dest s) (hdelivered : delivered t.log = delivered s.log)
    (harrived : arrived t.log = arrived s.log) (hheld : held t = held s)
    (hnext : t.nextFrame = s.nextFrame) : Lined dest t where
  line := by
    rw [hdelivered, hheld]
    exact h.line
  numbered := by
    rw [harrived, hnext]
    exact h.numbered
  deliveredLt := by
    rw [hdelivered, hnext]
    exact h.deliveredLt
  heldLt := by
    rw [hheld, hnext]
    exact h.heldLt

theorem Course.Lined.leave (h : Lined dest s) (hdelivered : delivered t.log = delivered s.log)
    (harrived : arrived t.log = arrived s.log) (hheld : (held t).Sublist (held s))
    (hnext : t.nextFrame = s.nextFrame) : Lined dest t where
  line := by
    rw [hdelivered]
    exact h.line.sublist (hheld.append_left _)
  numbered := by
    rw [harrived, hnext]
    exact h.numbered
  deliveredLt := by
    rw [hdelivered, hnext]
    exact h.deliveredLt
  heldLt := by
    rw [hnext]
    exact fun frame hframe => h.heldLt frame (hheld.subset hframe)

theorem Course.Lined.deliver (h : Lined dest s) (hp : Transmitting dest s p)
    (hdelivered : delivered t.log = p.frame :: delivered s.log) (harrived : arrived t.log = arrived s.log)
    (hheld : (held t).Sublist (held s)) (hgone : p.frame ∉ held t) (hnext : t.nextFrame = s.nextFrame) :
    Lined dest t where
  line := by
    have hline := h.line.sublist (hheld.append_left (delivered s.log).reverse)
    obtain ⟨hold, hqueued, hacross⟩ := List.pairwise_append.mp hline
    have hfirst : ∀ frame ∈ held t, Before dest p.frame frame := fun frame hframe =>
      hp.first frame (hheld.subset hframe) fun heq => hgone (heq ▸ hframe)
    rw [hdelivered, List.reverse_cons, List.append_assoc, List.singleton_append, List.pairwise_append,
      List.pairwise_cons]
    refine ⟨hold, ⟨hfirst, hqueued⟩, fun frame hframe frame' hframe' => ?_⟩
    rcases List.mem_cons.mp hframe' with rfl | hframe'
    · exact hp.later frame (List.mem_reverse.mp hframe)
    · exact hacross frame hframe frame' hframe'
  numbered := by
    rw [harrived, hnext]
    exact h.numbered
  deliveredLt := by
    rw [hdelivered, hnext]
    exact List.forall_mem_cons.mpr ⟨hp.lt, h.deliveredLt⟩
  heldLt := by
    rw [hnext]
    exact fun frame hframe => h.heldLt frame (hheld.subset hframe)

theorem Course.Lined.yield {l : List Nat} (h : Lined dest s) (hp : Transmitting dest s p)
    (halone : ∀ frame ∈ held s, dest frame = dest p.frame → frame = p.frame)
    (hdelivered : delivered t.log = delivered s.log) (harrived : arrived t.log = arrived s.log)
    (hl : l.Sublist (held s)) (hgone : p.frame ∉ l) (hheld : held t = l ++ [p.frame])
    (hnext : t.nextFrame = s.nextFrame) : Lined dest t where
  line := by
    have hline := h.line.sublist (hl.append_left (delivered s.log).reverse)
    rw [hdelivered, hheld, ← List.append_assoc, List.pairwise_append]
    refine ⟨hline, List.pairwise_singleton _ _, fun frame hframe frame' hframe' => ?_⟩
    rw [List.mem_singleton.mp hframe']
    rcases List.mem_append.mp hframe with hframe | hframe
    · exact hp.later frame (List.mem_reverse.mp hframe)
    · intro hdest
      exact absurd (halone frame (hl.subset hframe) hdest ▸ hframe) hgone
  numbered := by
    rw [harrived, hnext]
    exact h.numbered
  deliveredLt := by
    rw [hdelivered, hnext]
    exact h.deliveredLt
  heldLt := by
    rw [hheld, hnext]
    intro frame hframe
    rcases List.mem_append.mp hframe with hframe | hframe
    · exact h.heldLt frame (hl.subset hframe)
    · rw [List.mem_singleton.mp hframe]
      exact hp.lt

theorem held_pop_sublist : (held (uipPacketqueuePop s q)).Sublist (held s) := by
  cases q with
  | firstAttempt => exact ((List.tail_sublist _).append_right _).map _
  | long => exact ((List.tail_sublist _).append_left _).map _

theorem Course.Transmitting.gone (hp : Transmitting dest s p) (h : Lined dest s)
    (hq : s.queueState.queue? = some q) : p.frame ∉ held (uipPacketqueuePop s q) := by
  obtain ⟨q', hstate, hout | ⟨head, rest, hhead, hframe⟩⟩ := hp.place
  · exact fun hmem => hout (held_pop_sublist.subset hmem)
  · have hsame : q' = q := by
      rw [hstate, queue?_sending] at hq
      exact Option.some.inj hq
    subst hsame
    have hnodup : (head.frame :: held (uipPacketqueuePop s q')).Nodup :=
      (held_pop hhead).nodup_iff.mpr (nodup_of_before h.held_line)
    rw [← hframe]
    exact (List.nodup_cons.mp hnodup).1

theorem Course.Lined.record {a : Action} (h : Lined dest s) (hdelivered : deliveredFrame a = none)
    (harrived : arrivedFrame a = none) : Lined dest (s.record a) :=
  h.congr (by simp [State.record, delivered, hdelivered]) (by simp [State.record, arrived, harrived])
    (held_eq_of_queue (queue_record a)) rfl

theorem Course.Transmitting.congr (hp : Transmitting dest s p) (hdelivered : delivered t.log = delivered s.log)
    (hqueue : t.queue = s.queue) (hstate : t.queueState = s.queueState)
    (hnext : t.nextFrame = s.nextFrame) : Transmitting dest t p := by
  have hheld : held t = held s := held_eq_of_queue hqueue
  refine ⟨hnext ▸ hp.lt, hdelivered ▸ hp.later, hheld ▸ hp.first, ?_⟩
  rw [hstate, hqueue, hheld]
  exact hp.place

theorem delivered_popHead (q : Queue) (head reported : Packet) (status : UInt8) (a : List Action)
    (ha : delivered a = []) (hlog : t.log = a ++ s.log) :
    delivered (popHead t q head reported status).log =
      if status = transmitCompleteOk then reported.frame :: delivered s.log else delivered s.log := by
  rw [log_popHead, hlog]
  have hrest : (a ++ s.log).filterMap deliveredFrame = delivered s.log := by
    rw [List.filterMap_append]
    exact (congrArg (· ++ _) ha).trans (List.nil_append _)
  unfold delivered
  rw [List.filterMap_cons, hrest]
  by_cases hok : status = transmitCompleteOk
  · simp only [deliveredFrame, if_pos hok]
    rfl
  · simp only [deliveredFrame, if_neg hok]
    rfl

theorem arrived_popHead (q : Queue) (head reported : Packet) (status : UInt8) (a : List Action)
    (ha : arrived a = []) (hlog : t.log = a ++ s.log) :
    arrived (popHead t q head reported status).log = arrived s.log := by
  rw [log_popHead, hlog]
  unfold arrived
  rw [List.filterMap_cons, List.filterMap_append]
  exact (congrArg (· ++ _) ha).trans (List.nil_append _)

theorem held_popHead (reported : Packet) : held (popHead s q head reported status) = held (uipPacketqueuePop s q) :=
  held_eq_of_queue queue_popHead

theorem Course.Lined.settle (h : Lined dest s) (hp : Transmitting dest s p)
    (hq : s.queueState.queue? = some q) (a : List Action) (hdelivered : delivered a = [])
    (harrived : arrived a = []) (hlog : t.log = a ++ s.log) (hqueue : t.queue = s.queue)
    (hnext : t.nextFrame = s.nextFrame) : Lined dest (popHead t q head p status) := by
  have hheld : held (popHead t q head p status) = held (uipPacketqueuePop s q) := by
    rw [held_popHead]
    refine held_eq_of_queue ?_
    funext q'
    by_cases hsame : q' = q
    · subst hsame
      rw [uipPacketqueuePop, queue_setQueue, uipPacketqueuePop, queue_setQueue, hqueue]
    · rw [uipPacketqueuePop, queue_setQueue_of_ne _ hsame, uipPacketqueuePop, queue_setQueue_of_ne _ hsame, hqueue]
  have hlog' := delivered_popHead q head p status a hdelivered hlog
  have harrived' := arrived_popHead q head p status a harrived hlog
  have hnext' : (popHead t q head p status).nextFrame = s.nextFrame := by
    rw [nextFrame_popHead, hnext]
  have hsub : (held (popHead t q head p status)).Sublist (held s) := hheld ▸ held_pop_sublist
  by_cases hok : status = transmitCompleteOk
  · rw [if_pos hok] at hlog'
    exact h.deliver hp hlog' harrived' hsub (hheld ▸ hp.gone h hq) hnext'
  · rw [if_neg hok] at hlog'
    exact h.leave hlog' harrived' hsub hnext'

theorem held_pop_append (p' : Packet) (hhead : s.queue q = head :: rest) :
    held (uipPacketqueuePop (s.setQueue .long (s.long ++ [p'])) q) = held (uipPacketqueuePop s q) ++ [p'.frame] := by
  cases q with
  | firstAttempt => simp [held, uipPacketqueuePop, State.setQueue, State.queue]
  | long =>
    have hlong : s.long = head :: rest := hhead
    simp [held, uipPacketqueuePop, State.setQueue, State.queue, hlong]

/-- The result of the packet in transmission; at the end of the long queue it is alone for its node. -/
theorem lined_queueSendDone (w : World) (mailboxBusy : Bool) (status : UInt8) (sentBuffer : Bytes)
    (h : Lined dest s) (hp : Transmitting dest s p)
    (hyields : ∀ q ∈ s.queueState.queue?, ∀ head ∈ (s.queue q).head?, CallsForRequeue q status sentBuffer →
      queueMoveToMailbox w (modeOf w head.buf) sentBuffer = false →
        ∀ frame ∈ held s, dest frame = dest p.frame → frame = p.frame) :
    Lined dest { queueSendDone w s p mailboxBusy status sentBuffer with sending := none } ∧
      (queueSendDone w s p mailboxBusy status sentBuffer).queueState = .idle := by
  obtain ⟨q, hstate, -⟩ := hp.place
  have hq : s.queueState.queue? = some q := by
    rw [hstate, queue?_sending]
  suffices hdone : Lined dest (queueSendDone w s p mailboxBusy status sentBuffer) ∧
      (queueSendDone w s p mailboxBusy status sentBuffer).queueState = .idle from
    ⟨hdone.1.congr rfl rfl (held_eq_of_queue queue_sending_none) rfl, hdone.2⟩
  cases hhead : s.queue q with
  | nil =>
    unfold queueSendDone
    simp only [hq, hhead, List.head?_nil]
    refine ⟨?_, rfl⟩
    have hout : p.frame ∉ held s := by
      obtain ⟨q', hstate', hout | ⟨head, rest, hhead', -⟩⟩ := hp.place
      · exact hout
      · have hsame : q' = q := by
          rw [hstate', queue?_sending] at hq
          exact Option.some.inj hq
        subst hsame
        rw [hhead] at hhead'
        cases hhead'
    by_cases hok : status = transmitCompleteOk
    · refine h.deliver hp ?_ rfl (List.Sublist.refl _) hout rfl
      simp [State.record, delivered, deliveredFrame, hok]
    · refine h.congr ?_ rfl rfl rfl
      simp [State.record, delivered, deliveredFrame, hok]
  | cons head rest =>
    have hsettled : Settled w (mbNodeTransmissionOkEvent w s head status) q head p mailboxBusy status
        sentBuffer (queueSendDone w s p mailboxBusy status sentBuffer) :=
      queueSendDone_settled hq hhead
    generalize hu : mbNodeTransmissionOkEvent w s head status = u at hsettled
    have hkept : Lined dest u ∧ Transmitting dest u p ∧ u.queue = s.queue ∧ u.queueState = s.queueState := by
      rw [← hu]
      unfold mbNodeTransmissionOkEvent
      split
      · exact ⟨h.record rfl rfl, hp.congr rfl (queue_record _) rfl rfl, queue_record _, rfl⟩
      · exact ⟨h, hp, rfl, rfl⟩
    obtain ⟨hu, hpu, hqueue, hstate'⟩ := hkept
    have hqu : u.queueState.queue? = some q := hstate'.symm ▸ hq
    generalize queueSendDone w s p mailboxBusy status sentBuffer = t at hsettled
    cases hsettled with
    | kept hstatus =>
      have hnot : status ≠ transmitCompleteOk := by
        rw [hstatus]
        decide
      refine ⟨hu.congr ?_ rfl rfl rfl, rfl⟩
      simp [State.record, delivered, deliveredFrame, hnot]
    | mailbox =>
      exact ⟨hu.settle hpu hqu [_] rfl rfl rfl (queue_record _) rfl, rfl⟩
    | requeued hstatus hcalls hstays =>
      have hheadu : u.queue q = head :: rest := by rw [hqueue, hhead]
      have halone : ∀ frame ∈ held u, dest frame = dest p.frame → frame = p.frame := by
        rw [held_eq_of_queue hqueue]
        exact hyields q hq head (by rw [hhead]; rfl) hcalls hstays
      have hnot : status ≠ transmitCompleteOk := by
        rcases hcalls with hqueued | ⟨-, hnoack, -⟩
        · rw [hqueued]
          decide
        · rw [hnoack]
          decide
      refine ⟨hu.yield hpu halone ?_ ?_ held_pop_sublist (hpu.gone hu hqu) ?_ ?_, rfl⟩
      · rw [delivered_popHead (s := u) q head p status [] rfl (by simp), if_neg hnot]
      · exact arrived_popHead (s := u) q head p status [] rfl (by simp)
      · rw [held_popHead, held_pop_append _ hheadu]
        rfl
      · rw [nextFrame_popHead, nextFrame_setQueue]
    | lost => exact ⟨hu.settle hpu hqu [] rfl rfl rfl rfl rfl, rfl⟩
    | finished => exact ⟨hu.settle hpu hqu [_] rfl rfl rfl (queue_record _) rfl, rfl⟩

theorem Course.Ordered.settled (hlined : Lined dest t) (hidle : t.queueState = .idle)
    (hsending : t.sending = none) : Ordered dest t where
  toLined := hlined
  idle _ := hidle
  sending := by
    intro p hp
    rw [hsending] at hp
    cases hp

theorem Course.Lined.handOver (h : Lined dest s) (p : Packet) : Lined dest (handOver s q p) :=
  h.congr rfl rfl (held_eq_of_queue (queue_handOver p)) rfl

theorem held_eq_cons (hnext : nextQueue s = some q) (hhead : s.queue q = p :: rest) :
    held s = p.frame :: held (uipPacketqueuePop s q) := by
  cases q with
  | firstAttempt =>
    have hfirst : s.firstAttempt = p :: rest := hhead
    simp [held, uipPacketqueuePop, State.setQueue, State.queue, hfirst]
  | long =>
    have hlong : s.long = p :: rest := hhead
    have hfirst : s.firstAttempt = [] := by
      unfold nextQueue at hnext
      split_ifs at hnext with hbusy hsome
      · cases hnext
      · exact List.length_eq_zero_iff.mp (not_not.mp hsome)
    simp [held, uipPacketqueuePop, State.setQueue, State.queue, hlong, hfirst]

theorem Course.Lined.transmitting_handOver (h : Lined dest s) (hnext : nextQueue s = some q)
    (hhead : s.queue q = p :: rest) : Transmitting dest (NodeQueue.handOver s q p) p := by
  have hheld := held_eq_cons hnext hhead
  have hmem : p.frame ∈ held s := by
    rw [hheld]
    exact List.mem_cons_self
  refine ⟨h.heldLt _ hmem, ?_, ?_, q, rfl, Or.inr ⟨p, rest, ?_, rfl⟩⟩
  · intro frame hframe
    exact (List.pairwise_append.mp h.line).2.2 frame (List.mem_reverse.mpr hframe) p.frame hmem
  · have hline := h.held_line
    rw [hheld, List.pairwise_cons] at hline
    rw [held_eq_of_queue (queue_handOver p), hheld]
    intro frame hframe hne
    exact hline.1 frame ((List.mem_cons.mp hframe).resolve_left hne)
  · rw [queue_handOver, hhead]

theorem nextQueue_idle (hnext : nextQueue s = some q) : s.queueState = .idle := by
  unfold nextQueue at hnext
  split_ifs at hnext with hbusy
  all_goals exact not_not.mp hbusy

theorem ordered_processNodeQueues {mailboxBusy : Bool} {answer : Answer} (h : Ordered dest s)
    (hcalm : ∀ q ∈ nextQueue s, ∀ p ∈ (s.queue q).head?, ∀ status ∈ resultAtOnce p mailboxBusy answer,
      MovesToLong w q p status → ∀ frame ∈ held s, dest frame = dest p.frame → frame = p.frame) :
    Ordered dest (processNodeQueues w s mailboxBusy answer) := by
  have hprocessed := processNodeQueues_processed w s mailboxBusy answer
  generalize processNodeQueues w s mailboxBusy answer = t at hprocessed
  cases hprocessed with
  | nothing => exact h
  | @dropped q p rest hnext hhead hbuf =>
    have hidle := nextQueue_idle hnext
    have hnone : s.sending = none := by
      by_contra hsome
      obtain ⟨p', hp'⟩ := Option.ne_none_iff_exists'.mp hsome
      obtain ⟨q', hstate, -⟩ := (h.sending p' hp').place
      rw [hidle] at hstate
      cases q' <;> cases hstate
    refine Ordered.settled (h.toLined.leave ?_ ?_ ?_ ?_) ?_ ?_
    · simp [uipPacketqueuePop]
    · simp [uipPacketqueuePop]
    · exact held_pop_sublist (s := { s with queueState := .idle, sendNack := q == .long })
    · simp [uipPacketqueuePop]
    · simp [uipPacketqueuePop]
    · simpa [uipPacketqueuePop] using hnone
  | @pending q p rest hnext hhead =>
    refine ⟨h.toLined.handOver p, (fun hnone => by cases hnone), fun p' hp' => ?_⟩
    obtain rfl : p = p' := Option.some.inj hp'
    exact h.toLined.transmitting_handOver hnext hhead
  | @completed q p rest status busy hnext hhead hbusy hresult =>
    have hp := h.toLined.transmitting_handOver hnext hhead
    obtain ⟨hlined, hidle⟩ := lined_queueSendDone w busy status p.buf (h.toLined.handOver p) hp (by
        intro q' hq' head hhead' hcalls hstays
        obtain rfl : q = q' := by
          rw [handOver, State.record, queue?_sending] at hq'
          exact Option.some.inj hq'
        rw [queue_handOver, hhead] at hhead'
        obtain rfl : p = head := Option.some.inj hhead'
        rw [held_eq_of_queue (queue_handOver p)]
        exact hcalm q hnext p (by rw [hhead]; rfl) status hresult ⟨hcalls, hstays⟩)
    exact Ordered.settled hlined hidle rfl
  | @refused q p rest hnext hhead =>
    have hp := h.toLined.transmitting_handOver hnext hhead
    obtain ⟨hlined, hidle⟩ := lined_queueSendDone w false transmitCompleteFail [] (h.toLined.handOver p) hp (by
        rintro q' - head - (hqueued | ⟨-, hnoack, -⟩)
        · exact absurd hqueued (by decide)
        · exact absurd hnoack (by decide))
    exact Ordered.settled hlined hidle rfl

end Lines

section Steps

open Course

variable {c : Course} {w : World} {s : State}

theorem before_update {dest : Nat → NodeId} {n a b : Nat} {node : NodeId} (ha : a < n) (hb : b < n) :
    Before (update dest n node) a b ↔ Before dest a b := by
  unfold Before
  rw [update_of_ne (Nat.ne_of_lt ha), update_of_ne (Nat.ne_of_lt hb)]

theorem Course.Ordered.update {dest : Nat → NodeId} (h : Ordered dest s) (node : NodeId) :
    Ordered (update dest s.nextFrame node) s where
  line := by
    refine h.line.imp_of_mem fun {a b} ha hb hab => (before_update ?_ ?_).mpr hab
    · exact (List.mem_append.mp ha).elim (fun ha => h.deliveredLt a (List.mem_reverse.mp ha)) (h.heldLt a)
    · exact (List.mem_append.mp hb).elim (fun hb => h.deliveredLt b (List.mem_reverse.mp hb)) (h.heldLt b)
  numbered := h.numbered
  deliveredLt := h.deliveredLt
  heldLt := h.heldLt
  idle := h.idle
  sending p hp := by
    have hsent := h.sending p hp
    refine ⟨hsent.lt, fun frame hframe => ?_, fun frame hframe hne => ?_, hsent.place⟩
    · exact (before_update (h.deliveredLt frame hframe) hsent.lt).mpr (hsent.later frame hframe)
    · exact (before_update hsent.lt (h.heldLt frame hframe)).mpr (hsent.first frame hframe hne)

theorem Course.Transmitting.enqueue {dest : Nat → NodeId} {q : Queue} {p p' : Packet}
    (hp : Transmitting dest s p) (hframe : p'.frame = s.nextFrame) :
    Transmitting dest (enqueue s q p') p := by
  have hheld : ∀ frame ∈ held (NodeQueue.enqueue s q p'), frame ∈ held s ∨ frame = s.nextFrame := by
    intro frame hmem
    rw [held_eq_of_queue (queue_enqueue p')] at hmem
    rcases List.mem_cons.mp ((held_append p').subset hmem) with rfl | hmem
    · exact Or.inr hframe
    · exact Or.inl hmem
  refine ⟨Nat.lt_succ_of_lt hp.lt, ?_, fun frame hmem hne _ => ?_, ?_⟩
  · rw [log_enqueue]
    exact hp.later
  · rcases hheld frame hmem with hold | rfl
    · exact hp.first frame hold hne ‹_›
    · exact hp.lt
  · obtain ⟨q', hstate, hplace⟩ := hp.place
    refine ⟨q', by simpa [NodeQueue.enqueue, State.record] using hstate, ?_⟩
    rcases hplace with hout | ⟨head, rest, hhead, heq⟩
    · refine Or.inl fun hmem => ?_
      rcases hheld _ hmem with hold | hnew
      · exact hout hold
      · exact absurd hp.lt (hnew ▸ Nat.lt_irrefl _)
    · refine Or.inr ⟨head, ?_⟩
      rw [queue_enqueue]
      by_cases hsame : q' = q
      · subst hsame
        exact ⟨rest ++ [p'], by rw [queue_setQueue, hhead]; rfl, heq⟩
      · exact ⟨rest, by rw [queue_setQueue_of_ne _ hsame, hhead], heq⟩

theorem Course.Lined.enqueue {dest : Nat → NodeId} {q : Queue} {p : Packet} (h : Lined dest s)
    (hframe : p.frame = s.nextFrame)
    (hlong : q = .firstAttempt → ∀ p' ∈ s.long, dest p'.frame ≠ dest p.frame) :
    Lined dest (enqueue s q p) where
  line := by
    have hdelivered : delivered (NodeQueue.enqueue s q p).log = delivered s.log := by
      rw [log_enqueue]
      rfl
    have hlast : ∀ frame, frame < s.nextFrame → Before dest frame p.frame := fun frame hlt _ => hframe ▸ hlt
    obtain ⟨hold, hqueued, hacross⟩ := List.pairwise_append.mp h.line
    have hnew : (held (NodeQueue.enqueue s q p)).Pairwise (Before dest) := by
      rw [held_eq_of_queue (queue_enqueue p)]
      cases q with
      | long =>
        have happend : held (s.setQueue .long (s.queue .long ++ [p])) = held s ++ [p.frame] := by
          simp [held, State.setQueue, State.queue]
        rw [happend, List.pairwise_append]
        refine ⟨hqueued, List.pairwise_singleton _ _, fun frame hmem frame' hmem' => ?_⟩
        rw [List.mem_singleton.mp hmem']
        exact hlast frame (h.heldLt frame hmem)
      | firstAttempt =>
        have hmid : held (s.setQueue .firstAttempt (s.queue .firstAttempt ++ [p])) =
            s.firstAttempt.map Packet.frame ++ p.frame :: s.long.map Packet.frame := by
          simp [held, State.setQueue, State.queue]
        rw [held, List.map_append, List.pairwise_append] at hqueued
        obtain ⟨hfirst, hrest, hboth⟩ := hqueued
        have hlt : ∀ frame ∈ s.firstAttempt.map Packet.frame, frame < s.nextFrame := fun frame hmem =>
          h.heldLt frame (by rw [held, List.map_append]; exact List.mem_append_left _ hmem)
        rw [hmid, List.pairwise_append, List.pairwise_cons]
        refine ⟨hfirst, ⟨fun frame hmem hdest => ?_, hrest⟩, fun frame hmem frame' hmem' => ?_⟩
        · obtain ⟨p', hp', rfl⟩ := List.mem_map.mp hmem
          exact absurd hdest.symm (hlong rfl p' hp')
        · rcases List.mem_cons.mp hmem' with rfl | hmem'
          · exact hlast frame (hlt frame hmem)
          · exact hboth frame hmem frame' hmem'
    rw [hdelivered, List.pairwise_append]
    refine ⟨hold, hnew, fun frame hmem frame' hmem' => ?_⟩
    rw [held_eq_of_queue (queue_enqueue p)] at hmem'
    rcases List.mem_cons.mp ((held_append p).subset hmem') with rfl | hmem'
    · exact hlast frame (h.deliveredLt frame (List.mem_reverse.mp hmem))
    · exact hacross frame hmem frame' hmem'
  numbered := by
    rw [log_enqueue]
    have harrived : arrived (.queued p.frame :: s.log) = p.frame :: arrived s.log := rfl
    rw [harrived, List.reverse_cons, h.numbered, hframe]
    exact List.range_succ.symm
  deliveredLt := by
    rw [log_enqueue]
    exact fun frame hmem => Nat.lt_succ_of_lt (h.deliveredLt frame hmem)
  heldLt := by
    intro frame hmem
    rw [held_eq_of_queue (queue_enqueue p)] at hmem
    rcases List.mem_cons.mp ((held_append p).subset hmem) with rfl | hmem
    · exact Nat.lt_succ_of_le (Nat.le_of_eq hframe)
    · exact Nat.lt_succ_of_lt (h.heldLt frame hmem)

theorem sending_enqueue {q : Queue} {p : Packet} : (enqueue s q p).sending = s.sending ∧
    (enqueue s q p).queueState = s.queueState := by
  cases q <;> exact ⟨rfl, rfl⟩

theorem ordered_nodeInputQueued {dest : Nat → NodeId} (h : Ordered dest s) (node : NodeId)
    (decrypted : Bool) (ip : IpPacket)
    (hcalm : outcome w s decrypted ip = .queued → (arrivalOf w s node ip.bytes).queue = .firstAttempt →
      ∀ p ∈ s.long, dest p.frame ≠ node) :
    Ordered (update dest s.nextFrame node) (nodeInputQueued w s node decrypted ip) := by
  have hnew := h.update node
  have hremembered : Ordered (update dest s.nextFrame node) (addFingerprintUipBuf s ip.bytes) :=
    ⟨hnew.toLined.congr rfl rfl rfl rfl, hnew.idle,
      fun p hp => (hnew.sending p hp).congr rfl (by funext q; cases q <;> rfl) rfl rfl⟩
  rw [nodeInputQueued_eq]
  cases houtcome : outcome w s decrypted ip with
  | diverted | duplicate => exact hnew
  | refused => exact hremembered
  | queued =>
    refine ⟨hremembered.toLined.enqueue rfl fun hq p' hp' => ?_, ?_, ?_⟩
    · have hlt : p'.frame < s.nextFrame :=
        h.heldLt _ (List.mem_map_of_mem (List.mem_append_right _ hp'))
      change update dest s.nextFrame node p'.frame ≠ update dest s.nextFrame node s.nextFrame
      rw [Function.update_self, update_of_ne (Nat.ne_of_lt hlt)]
      exact hcalm houtcome hq p' hp'
    · rw [sending_enqueue.1, sending_enqueue.2]
      exact hremembered.idle
    · rw [sending_enqueue.1]
      exact fun p hp => (hremembered.sending p hp).enqueue rfl

theorem ordered_packetTimedout {dest : Nat → NodeId} (h : Ordered dest s) (q : Queue) (i : Nat) :
    Ordered dest (packetTimedout s q i) := by
  unfold packetTimedout
  cases hi : (s.queue q)[i]? with
  | none => exact h
  | some p' =>
    dsimp only
    generalize ht : (s.setQueue q ((s.queue q).eraseIdx i)).record (.expired p'.frame) = t
    have hqueue : t.queue = (s.setQueue q ((s.queue q).eraseIdx i)).queue := by
      rw [← ht]
      exact queue_record _
    have hheld : (held t).Sublist (held s) := by
      rw [held_eq_of_queue hqueue]
      cases q with
      | firstAttempt => exact ((List.eraseIdx_sublist _ _).append_right _).map _
      | long => exact ((List.eraseIdx_sublist _ _).append_left _).map _
    have hlog : t.log = .expired p'.frame :: s.log := by
      rw [← ht, State.record, log_setQueue]
    have hfields : t.nextFrame = s.nextFrame ∧ t.queueState = s.queueState ∧ t.sending = s.sending := by
      rw [← ht]
      cases q <;> exact ⟨rfl, rfl, rfl⟩
    have hdelivered : delivered t.log = delivered s.log := by
      rw [hlog]
      rfl
    refine ⟨h.toLined.leave hdelivered (by rw [hlog]; rfl) hheld hfields.1, ?_, ?_⟩
    · rw [hfields.2.1, hfields.2.2]
      exact h.idle
    · rw [hfields.2.2]
      intro p hp
      have hsent := h.sending p hp
      refine ⟨hfields.1 ▸ hsent.lt, hdelivered ▸ hsent.later,
        fun frame hmem => hsent.first frame (hheld.subset hmem), ?_⟩
      obtain ⟨q', hstate, hplace⟩ := hsent.place
      refine ⟨q', hfields.2.1.trans hstate, ?_⟩
      by_cases hout : p.frame ∈ held t
      · obtain ⟨head, rest, hhead, heq⟩ := hplace.resolve_left (not_not.mpr (hheld.subset hout))
        -- The packet is still queued, so it is not the one whose time is over.
        refine Or.inr ?_
        by_cases hsame : q' = q
        · subst hsame
          rw [hqueue, queue_setQueue, hhead]
          cases i with
          | succ i => exact ⟨head, rest.eraseIdx i, rfl, heq⟩
          | zero =>
            have hgone : held t = held (uipPacketqueuePop s q') := by
              rw [held_eq_of_queue hqueue, hhead, uipPacketqueuePop, hhead]
              rfl
            have hnodup : (head.frame :: held (uipPacketqueuePop s q')).Nodup :=
              (held_pop hhead).nodup_iff.mpr (nodup_of_before h.held_line)
            rw [hgone, ← heq] at hout
            exact absurd hout (List.nodup_cons.mp hnodup).1
        · rw [hqueue, queue_setQueue_of_ne _ hsame]
          exact ⟨head, rest, hhead, heq⟩
      · exact Or.inl hout

theorem ordered_step {c : Course} {input : World × Event} (hcalm : c.Calm input)
    (h : Ordered c.dest c.state) : Ordered (c.step input).dest (c.step input).state := by
  obtain ⟨w, event⟩ := input
  cases event with
  | input node decrypted ip => exact ordered_nodeInputQueued h node decrypted ip hcalm
  | queueUpdated mailboxBusy answer => exact ordered_processNodeQueues h hcalm
  | timedout q i => exact ordered_packetTimedout h q i
  | sendDone status =>
    change Ordered c.dest (NodeQueue.step c.state (w, .sendDone status))
    unfold NodeQueue.step
    cases hsending : c.state.sending with
    | none => exact h
    | some p =>
      obtain ⟨hlined, hidle⟩ :=
        lined_queueSendDone w false status p.buf h.toLined (h.sending p hsending) (hcalm p hsending)
      exact Ordered.settled hlined hidle rfl

end Steps

namespace Course

theorem Ordered.inOrder {c : Course} (h : Ordered c.dest c.state) : c.InOrder := by
  intro node
  have hdelivered : (c.deliveredTo node).Pairwise (· < ·) := by
    have hline := (List.pairwise_append.mp h.line).1.filter fun frame => decide (c.dest frame = node)
    refine hline.imp_of_mem fun {a b} ha hb hab => hab ?_
    rw [of_decide_eq_true (List.mem_filter.mp ha).2, of_decide_eq_true (List.mem_filter.mp hb).2]
  have haccepted : (c.acceptedFor node).Pairwise (· < ·) := by
    unfold acceptedFor
    rw [h.numbered]
    exact List.pairwise_lt_range.filter _
  have hsubset : c.deliveredTo node ⊆ c.acceptedFor node := by
    intro frame hframe
    obtain ⟨hmem, hdest⟩ := List.mem_filter.mp hframe
    refine List.mem_filter.mpr ⟨?_, hdest⟩
    rw [h.numbered]
    exact List.mem_range.mpr (h.deliveredLt frame (List.mem_reverse.mp hmem))
  have hnodup : (c.deliveredTo node).Nodup := hdelivered.imp fun hlt => Nat.ne_of_lt hlt
  exact List.sublist_of_subperm_of_pairwise (List.subperm_of_subset hnodup hsubset) hdelivered haccepted

end Course

/-- Whatever arrives and whatever becomes of it: if a packet that has to wait is always alone for its
node, and no packet gets ahead of one that waits, then the packets for a node are delivered in order. -/
theorem delivered_in_order (inputs : List (World × Event))
    (hcalm : Machine.Admissible Course.step Course.Calm Course.init inputs) :
    (Course.init.run inputs).InOrder := by
  have hstep : ∀ (c : Course) (input : World × Event), c.Calm input → Course.Ordered c.dest c.state →
      Course.Ordered (c.step input).dest (c.step input).state := fun _ _ hcalm h => ordered_step hcalm h
  exact (Machine.run_invariant_of_admissible hstep hcalm Course.ordered_init).inOrder

/-- A packet for node 5 that is not acknowledged joins one for node 6 in the long queue, and the next for node
5 waits behind them. -/
def sampleCalmRun : List (World × Event) :=
  [sampleInput 6 1, sampleInput 5 2, (sampleWorld, .queueUpdated false .pending),
    (sampleWorld, .sendDone transmitCompleteNoAck), sampleInput 5 3,
    (sampleWorld, .queueUpdated false .pending), (sampleWorld, .sendDone transmitCompleteOk),
    (sampleWorld, .queueUpdated false .pending), (sampleWorld, .sendDone transmitCompleteOk),
    (sampleWorld, .queueUpdated false .pending), (sampleWorld, .sendDone transmitCompleteOk)]

theorem sampleCalmRun_inOrder :
    (Course.init.run sampleCalmRun).deliveredTo 5 = [1, 2] ∧ (Course.init.run sampleCalmRun).InOrder :=
  ⟨by decide +kernel, delivered_in_order sampleCalmRun (by decide +kernel)⟩

def overtakingRun : List (World × Event) :=
  [sampleInput 6 1, sampleInput 5 2, sampleInput 5 3, (sampleWorld, .queueUpdated false .pending),
    (sampleWorld, .sendDone transmitCompleteNoAck), (sampleWorld, .queueUpdated false .pending),
    (sampleWorld, .sendDone transmitCompleteOk), (sampleWorld, .queueUpdated false .pending),
    (sampleWorld, .sendDone transmitCompleteOk), (sampleWorld, .queueUpdated false .pending),
    (sampleWorld, .sendDone transmitCompleteOk)]

theorem overtakingRun_not_inOrder : ¬(Course.init.run overtakingRun).InOrder := by
  intro h
  have hdelivered : (Course.init.run overtakingRun).deliveredTo 5 = [2, 1] := by decide +kernel
  have haccepted : (Course.init.run overtakingRun).acceptedFor 5 = [1, 2] := by decide +kernel
  have hsublist := h 5
  rw [hdelivered, haccepted] at hsublist
  exact absurd hsublist (by decide)

end ZipGateway.NodeQueue

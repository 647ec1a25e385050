import Mathlib.Data.List.Perm.Basic
import ZipGateway.NodeQueue.Attempts

/-!
# No packet gets lost

As long as the timer of the packet in transmission does not fire, and a packet is free whenever one
has to be moved, the result the queue hears of is that of the head it takes out. Then every packet
that was ever queued is in one of the queues, in the hands of the mailbox, finished or expired, and
in exactly one of these places.
-/

namespace ZipGateway.NodeQueue

def arrivedFrame : Action → Option Nat
  | .queued frame => some frame
  | _ => none

def departedFrame : Action → Option Nat
  | .mailbox frame _ => some frame
  | .finished frame _ _ => some frame
  | .expired frame => some frame
  | _ => none

def arrived (log : List Action) : List Nat :=
  log.filterMap arrivedFrame

def departed (log : List Action) : List Nat :=
  log.filterMap departedFrame

def held (s : State) : List Nat :=
  (s.firstAttempt ++ s.long).map Packet.frame

/-- What an entry of the log says is as it should be: a result takes the packet it is about out of
its queue, unless that stays, and the last word about a packet is not a call for another attempt,
nor a failure that its sender does not hear of. -/
def Regular : Action → Prop
  | .reported frame status popped =>
    popped = if status = transmitCompleteRequeue then none else some frame
  | .finished _ status sendNack =>
    status ≠ transmitCompleteRequeue ∧ status ≠ transmitCompleteRequeueQueued ∧
      (status = transmitCompleteNoAck → sendNack = true)
  | _ => True

structure NoLoss (s : State) : Prop where
  regular : ∀ a ∈ s.log, Regular a
  distinct : (arrived s.log).Nodup
  conserved : (held s ++ departed s.log).Perm (arrived s.log)

section Condition

def MovesToLong (w : World) (q : Queue) (p : Packet) (status : UInt8) : Prop :=
  CallsForRequeue q status p.buf ∧ queueMoveToMailbox w (modeOf w p.buf) p.buf = false

def Room (w : World) (s : State) (q : Queue) (status : UInt8) : Prop :=
  ∀ p ∈ (s.queue q).head?, MovesToLong w q p status → Free w s

instance (w : World) (q : Queue) (p : Packet) (status : UInt8) : Decidable (MovesToLong w q p status) :=
  inferInstanceAs (Decidable (_ ∧ _))

instance (w : World) (s : State) (q : Queue) (status : UInt8) : Decidable (Room w s q status) :=
  inferInstanceAs (Decidable (∀ p ∈ (s.queue q).head?, _))

/-- The timer of the packet in transmission does not fire, and there is room for a packet that has
to be moved. -/
def Spared (s : State) : World × Event → Prop
  | (_, .input _ _ _) => True
  | (w, .queueUpdated mailboxBusy answer) =>
    ∀ q ∈ nextQueue s, ∀ p ∈ (s.queue q).head?, ∀ status ∈ resultAtOnce p mailboxBusy answer, Room w s q status
  | (w, .sendDone status) => ∀ q ∈ s.queueState.queue?, Room w s q status
  | (_, .timedout q i) => s.queueState.queue? = some q → i ≠ 0

instance (s : State) : ∀ input : World × Event, Decidable (Spared s input)
  | (_, .input _ _ _) => isTrue trivial
  | (_, .queueUpdated _ _) => inferInstanceAs (Decidable (∀ q ∈ nextQueue s, _))
  | (_, .sendDone _) => inferInstanceAs (Decidable (∀ q ∈ s.queueState.queue?, _))
  | (_, .timedout _ _) => inferInstanceAs (Decidable (_ → _))

end Condition

variable {mailboxBusy : Bool} {rest : List Packet} {t : State}

section Held

variable {s : State} {q : Queue}

theorem held_eq_of_queue (h : t.queue = s.queue) : held t = held s := by
  have hfirst : t.firstAttempt = s.firstAttempt := congrFun h .firstAttempt
  have hlong : t.long = s.long := congrFun h .long
  rw [held, held, hfirst, hlong]

theorem held_erase {front back : List Packet} {p : Packet} (h : s.queue q = front ++ p :: back) :
    (p.frame :: held (s.setQueue q (front ++ back))).Perm (held s) := by
  have hmid : ∀ front back : List Packet,
      (p.frame :: (front ++ back).map Packet.frame).Perm ((front ++ p :: back).map Packet.frame) := by
    intro front back
    have hperm : (front ++ p :: back).Perm (p :: (front ++ back)) := List.perm_middle
    simpa using (hperm.map Packet.frame).symm
  cases q with
  | firstAttempt =>
    have hfirst : s.firstAttempt = front ++ p :: back := h
    have h := hmid front (back ++ s.long)
    simpa [held, State.setQueue, hfirst] using h
  | long =>
    have hlong : s.long = front ++ p :: back := h
    have h := hmid (s.firstAttempt ++ front) back
    simpa [held, State.setQueue, hlong] using h

theorem held_append (p : Packet) : (held (s.setQueue q (s.queue q ++ [p]))).Perm (p.frame :: held s) := by
  have herase := held_erase (queue_setQueue (s := s) (q := q) (s.queue q ++ [p]))
  have hback : held ((s.setQueue q (s.queue q ++ [p])).setQueue q (s.queue q ++ [])) = held s := by
    cases q <;> simp [held, State.setQueue, State.queue]
  rw [hback] at herase
  exact herase.symm

theorem held_pop {p : Packet} (h : s.queue q = p :: rest) :
    (p.frame :: held (uipPacketqueuePop s q)).Perm (held s) := by
  have := @held_erase s q [] rest p h
  simpa [uipPacketqueuePop, h] using this

end Held

structure Tracked (s : State) : Prop where
  fresh : ∀ frame ∈ arrived s.log, frame < s.nextFrame
  idle : s.sending = none → s.queueState = .idle
  busy : ∀ p, s.sending = some p →
    ∃ q rest, s.queueState = q.sending ∧ s.queue q = p :: rest ∧ s.sendNack = (q == .long)
  nonempty : ∀ q, ∀ p ∈ s.queue q, p.buf ≠ []

structure Kept (s : State) : Prop extends NoLoss s, Tracked s

theorem kept_init : Kept init where
  regular := by simp [init]
  distinct := by simp [init, arrived]
  conserved := by simp [init, arrived, departed, held]
  fresh := by simp [init, arrived]
  idle := fun _ => rfl
  busy := by simp [init]
  nonempty := by
    intro q p hp
    cases q <;> simp [init, State.queue] at hp

section Steps

variable {w : World} {s : State} {q : Queue} {status : UInt8} {p : Packet}

theorem Kept.record {a : Action} (h : Kept s) (harrived : arrivedFrame a = none)
    (hdeparted : departedFrame a = none) (hregular : Regular a) : Kept (s.record a) where
  regular := by
    intro b hb
    rcases List.mem_cons.mp hb with rfl | hb
    · exact hregular
    · exact h.regular b hb
  distinct := by
    simpa [State.record, arrived, harrived] using h.distinct
  conserved := by
    simpa [State.record, arrived, departed, harrived, hdeparted, held] using h.conserved
  fresh := by
    simpa [State.record, arrived, harrived] using h.fresh
  idle := h.idle
  busy := by
    rw [queue_record]
    exact h.busy
  nonempty := by
    rw [queue_record]
    exact h.nonempty

theorem kept_mbNodeTransmissionOkEvent (h : Kept s) (head : Packet) :
    Kept (mbNodeTransmissionOkEvent w s head status) := by
  unfold mbNodeTransmissionOkEvent
  split
  · exact h.record rfl rfl trivial
  · exact h

theorem Kept.settle (h : Kept s) (entries : List Action) (hlog : t.log = entries ++ s.log)
    (hregular : ∀ a ∈ entries, Regular a) (harrived : arrived entries = [])
    (hnext : t.nextFrame = s.nextFrame) (hheld : (held t ++ departed entries).Perm (held s))
    (hidle : t.queueState = .idle) (hsending : t.sending = none)
    (hnonempty : ∀ q, ∀ p ∈ t.queue q, p.buf ≠ []) : Kept t := by
  have hsame : arrived t.log = arrived s.log := by
    rw [hlog, arrived, List.filterMap_append]
    change arrived entries ++ arrived s.log = _
    rw [harrived, List.nil_append]
  refine ⟨⟨?_, ?_, ?_⟩, ⟨?_, fun _ => hidle, ?_, hnonempty⟩⟩
  · intro a ha
    rw [hlog] at ha
    rcases List.mem_append.mp ha with ha | ha
    · exact hregular a ha
    · exact h.regular a ha
  · rw [hsame]
    exact h.distinct
  · have hdeparted : departed t.log = departed entries ++ departed s.log := by
      rw [hlog, departed, List.filterMap_append]
      rfl
    rw [hsame, hdeparted, ← List.append_assoc]
    exact (hheld.append_right _).trans h.conserved
  · rw [hsame, hnext]
    exact h.fresh
  · intro p hp
    rw [hsending] at hp
    exact absurd hp (by simp)

theorem kept_settled {sentBuffer : Bytes} (h : Kept s) (hhead : s.queue q = p :: rest)
    (hnack : s.sendNack = (q == .long))
    (hsent : status = transmitCompleteNoAck ∨ status = transmitCompleteRequeueQueued → sentBuffer = p.buf)
    (hroom : CallsForRequeue q status sentBuffer → queueMoveToMailbox w (modeOf w p.buf) sentBuffer = false → Free w s)
    (ht : Settled w s q p p mailboxBusy status sentBuffer t) : Kept { t with sending := none } := by
  have hpbuf : p.buf ≠ [] := h.nonempty q p (by rw [hhead]; exact List.mem_cons_self)
  have hkeep : ∀ q', ∀ p' ∈ (uipPacketqueuePop s q).queue q', p'.buf ≠ [] :=
    fun q' p' hp' => h.nonempty q' p' (mem_of_mem_pop hp')
  have hregular : status ≠ transmitCompleteRequeue → Regular (.reported p.frame status (some p.frame)) := by
    intro hstatus
    simp [Regular, hstatus]
  have hpop : ∀ {u : State} {rest' : List Packet}, u.queue q = p :: rest' →
      (held { popHead u q p p status with sending := none } ++ [p.frame]).Perm (held u) := by
    intro u rest' hu
    have heq : held { popHead u q p p status with sending := none } = held (uipPacketqueuePop u q) :=
      held_eq_of_queue (by rw [queue_sending_none, queue_popHead])
    rw [heq]
    exact (List.perm_append_singleton p.frame _).trans (held_pop hu)
  cases ht with
  | kept hstatus =>
    refine h.settle [.reported p.frame status none] rfl ?_ rfl rfl ?_ rfl rfl h.nonempty
    · simp [Regular, hstatus]
    · change (held s ++ []).Perm (held s)
      rw [List.append_nil]
  | mailbox hstatus hcalls =>
    refine h.settle [.reported p.frame status (some p.frame), .mailbox p.frame sentBuffer]
      log_popHead ?_ rfl (by simp [State.record]) (hpop hhead) rfl rfl ?_
    · simpa [Regular] using hregular hstatus
    · rw [queue_sending_none, queue_popHead, pop_record, queue_record]
      exact hkeep
  | requeued hstatus hcalls hstays =>
    have hbuf : sentBuffer = p.buf := by
      refine hsent ?_
      rcases hcalls with hqueued | ⟨-, hnoack, -⟩
      · exact Or.inr hqueued
      · exact Or.inl hnoack
    generalize hp' : requeuedPacket w p p status mailboxBusy (givesMark w p status) sentBuffer = p'
    have hframe : p'.frame = p.frame := by rw [← hp']; rfl
    have hbuf' : p'.buf ≠ [] := by
      rw [← hp', hbuf]
      simp only [requeuedPacket]
      split
      · exact setPacketRequeued_ne_nil hpbuf
      · exact hpbuf
    -- The copy goes to the end of the long queue before the head is taken out.
    obtain ⟨rest', hrest'⟩ : ∃ rest', (s.setQueue .long (s.long ++ [p'])).queue q = p :: rest' := by
      cases q with
      | firstAttempt => exact ⟨rest, hhead⟩
      | long => exact ⟨rest ++ [p'], by rw [queue_setQueue, show s.long = _ from hhead]; rfl⟩
    refine h.settle [.reported p.frame status (some p.frame)] (by simp) ?_ rfl (by simp) ?_ rfl rfl ?_
    · simpa [Regular] using hregular hstatus
    · have happend : (held (s.setQueue .long (s.long ++ [p']))).Perm (p.frame :: held s) := by
        rw [← hframe]
        exact held_append (q := .long) p'
      have hboth := ((List.perm_append_singleton p.frame _).symm.trans (hpop hrest')).trans happend
      change (held { popHead _ q p p status with sending := none } ++ []).Perm (held s)
      rw [List.append_nil]
      exact hboth.cons_inv
    · intro q' p'' hp''
      rw [queue_sending_none, queue_popHead] at hp''
      have hmem := mem_of_mem_pop hp''
      cases q' with
      | firstAttempt => exact h.nonempty .firstAttempt p'' hmem
      | long =>
        rw [queue_setQueue] at hmem
        rcases List.mem_append.mp hmem with hmem | hmem
        · exact h.nonempty .long p'' hmem
        · rw [List.mem_singleton.mp hmem]
          exact hbuf'
  | lost hstatus hcalls hstays hfree => exact absurd (hroom hcalls hstays) hfree
  | finished hstatus hcalls =>
    refine h.settle [.reported p.frame status (some p.frame), .finished p.frame status s.sendNack]
      log_popHead ?_ rfl (by simp [State.record]) (hpop hhead) rfl rfl ?_
    · have hlast : Regular (.finished p.frame status s.sendNack) := by
        refine ⟨hstatus, fun hqueued => hcalls (Or.inl hqueued), fun hnoack => ?_⟩
        rw [hnack]
        cases q with
        | long => rfl
        | firstAttempt =>
          have hbuf : sentBuffer = p.buf := hsent (Or.inl hnoack)
          exact absurd (Or.inr ⟨rfl, hnoack, by rw [hbuf]; exact hpbuf⟩) hcalls
      intro a ha
      rcases List.mem_cons.mp ha with rfl | ha
      · exact hregular hstatus
      · rw [List.mem_singleton.mp ha]
        exact hlast
    · rw [queue_sending_none, queue_popHead, pop_record, queue_record]
      exact hkeep

theorem free_congr (h : t.queue = s.queue) : Free w t ↔ Free w s := by
  have hfirst : t.firstAttempt = s.firstAttempt := congrFun h .firstAttempt
  have hlong : t.long = s.long := congrFun h .long
  rw [Free, Free, hfirst, hlong]

theorem kept_queueSendDone {sentBuffer : Bytes} (h : Kept s) (hsending : s.sending = some p)
    (hsent : status = transmitCompleteNoAck ∨ status = transmitCompleteRequeueQueued → sentBuffer = p.buf)
    (hroom : ∀ q, s.queueState = q.sending → sentBuffer = p.buf → MovesToLong w q p status → Free w s) :
    Kept { queueSendDone w s p mailboxBusy status sentBuffer with sending := none } := by
  obtain ⟨q, rest, hstate, hhead, hnack⟩ := h.busy p hsending
  have hq : s.queueState.queue? = some q := by
    rw [hstate, queue?_sending]
  have hqueue : (mbNodeTransmissionOkEvent w s p status).queue = s.queue :=
    queue_mbNodeTransmissionOkEvent p
  have hfirst : (mbNodeTransmissionOkEvent w s p status).queue q = p :: rest := by
    rw [hqueue]
    exact hhead
  have hsettled : Settled w (mbNodeTransmissionOkEvent w s p status) q p p mailboxBusy status
      sentBuffer (queueSendDone w s p mailboxBusy status sentBuffer) :=
    queueSendDone_settled hq hhead
  refine kept_settled (kept_mbNodeTransmissionOkEvent h p) hfirst ?_ hsent ?_ hsettled
  · rw [← hnack]
    unfold mbNodeTransmissionOkEvent
    split <;> rfl
  · intro hcalls hstays
    have hbuf : sentBuffer = p.buf := by
      refine hsent ?_
      rcases hcalls with hqueued | ⟨-, hnoack, -⟩
      · exact Or.inr hqueued
      · exact Or.inl hnoack
    rw [hbuf] at hcalls hstays
    exact (free_congr hqueue).mpr (hroom q hstate hbuf ⟨hcalls, hstays⟩)

theorem kept_enqueue (h : Kept s) (hframe : p.frame = s.nextFrame) (hbuf : p.buf ≠ []) : Kept (enqueue s q p) := by
  have harrived : arrived (enqueue s q p).log = p.frame :: arrived s.log := by
    rw [log_enqueue]
    rfl
  have hdeparted : departed (enqueue s q p).log = departed s.log := by
    rw [log_enqueue]
    rfl
  have hnew : p.frame ∉ arrived s.log := by
    intro hmem
    have hlt := h.fresh _ hmem
    omega
  refine ⟨⟨?_, ?_, ?_⟩, ⟨?_, ?_, ?_, ?_⟩⟩
  · intro a ha
    rw [log_enqueue] at ha
    rcases List.mem_cons.mp ha with rfl | ha
    · trivial
    · exact h.regular a ha
  · rw [harrived]
    exact List.nodup_cons.mpr ⟨hnew, h.distinct⟩
  · rw [harrived, hdeparted, held_eq_of_queue (queue_enqueue p)]
    exact ((held_append p).append_right _).trans (h.conserved.cons p.frame)
  · intro frame hmem
    rw [harrived] at hmem
    have hnext : (enqueue s q p).nextFrame = s.nextFrame + 1 := rfl
    rcases List.mem_cons.mp hmem with rfl | hmem
    · omega
    · have hlt := h.fresh _ hmem
      omega
  · intro hsending
    have hidle := h.idle (by simpa [enqueue, State.record] using hsending)
    simpa [enqueue, State.record] using hidle
  · intro p' hsending
    obtain ⟨q', rest, hstate, hhead, hnack⟩ :=
      h.busy p' (by simpa [enqueue, State.record] using hsending)
    rw [queue_enqueue]
    by_cases hq : q' = q
    · subst hq
      refine ⟨q', rest ++ [p], ?_, ?_, ?_⟩
      · simpa [enqueue, State.record] using hstate
      · rw [queue_setQueue, hhead]
        rfl
      · simpa [enqueue, State.record] using hnack
    · refine ⟨q', rest, ?_, ?_, ?_⟩
      · simpa [enqueue, State.record] using hstate
      · rw [queue_setQueue_of_ne _ hq, hhead]
      · simpa [enqueue, State.record] using hnack
  · intro q' p' hmem
    rw [queue_enqueue] at hmem
    by_cases hq : q' = q
    · subst hq
      rw [queue_setQueue] at hmem
      rcases List.mem_append.mp hmem with hmem | hmem
      · exact h.nonempty q' p' hmem
      · rw [List.mem_singleton.mp hmem]
        exact hbuf
    · rw [queue_setQueue_of_ne _ hq] at hmem
      exact h.nonempty q' p' hmem

theorem kept_nodeInputQueued (h : Kept s) (node : NodeId) (decrypted : Bool) (ip : IpPacket) :
    Kept (nodeInputQueued w s node decrypted ip) := by
  have hfingerprint : Kept (addFingerprintUipBuf s ip.bytes) := by
    have hqueue : (addFingerprintUipBuf s ip.bytes).queue = s.queue := by
      funext q
      cases q <;> rfl
    exact ⟨⟨h.regular, h.distinct, h.conserved⟩,
      ⟨h.fresh, h.idle, by rw [hqueue]; exact h.busy, by rw [hqueue]; exact h.nonempty⟩⟩
  have htaken := nodeInputQueued_taken (w := w) (s := s) node decrypted ip
  generalize nodeInputQueued w s node decrypted ip = t at htaken
  cases htaken with
  | unchanged => exact h
  | refused => exact hfingerprint
  | queued =>
    refine kept_enqueue hfingerprint rfl ?_
    have hlonger := ip.longer
    intro hnil
    rw [show ip.bytes = [] from hnil] at hlonger
    exact absurd hlonger (Nat.not_lt_zero _)

theorem kept_expired {front back : List Packet} (h : Kept s) (hsplit : s.queue q = front ++ p :: back)
    (hspared : s.queueState.queue? = some q → front ≠ []) :
    Kept ((s.setQueue q (front ++ back)).record (.expired p.frame)) := by
  have hqueue : ((s.setQueue q (front ++ back)).record (.expired p.frame)).queue =
      (s.setQueue q (front ++ back)).queue := queue_record _
  have hlog : ((s.setQueue q (front ++ back)).record (.expired p.frame)).log = .expired p.frame :: s.log := by
    rw [State.record, log_setQueue]
  refine ⟨⟨?_, ?_, ?_⟩, ⟨?_, ?_, ?_, ?_⟩⟩
  · intro a ha
    rw [hlog] at ha
    rcases List.mem_cons.mp ha with rfl | ha
    · trivial
    · exact h.regular a ha
  · rw [hlog]
    exact h.distinct
  · rw [hlog, held_eq_of_queue hqueue]
    have hmiddle : (held (s.setQueue q (front ++ back)) ++ p.frame :: departed s.log).Perm (held s ++ departed s.log) :=
      List.perm_middle.trans ((held_erase hsplit).append_right _)
    exact hmiddle.trans h.conserved
  · rw [hlog]
    have hnext : ((s.setQueue q (front ++ back)).record (.expired p.frame)).nextFrame =
        s.nextFrame := nextFrame_setQueue _
    rw [hnext]
    exact h.fresh
  · simpa [State.record] using h.idle
  · intro p' hsending
    obtain ⟨q', rest, hstate, hhead, hnack⟩ := h.busy p' (by simpa [State.record] using hsending)
    rw [hqueue]
    have hfields : ((s.setQueue q (front ++ back)).record (.expired p.frame)).queueState = q'.sending ∧
        ((s.setQueue q (front ++ back)).record (.expired p.frame)).sendNack = (q' == .long) := by
      simpa [State.record] using And.intro hstate hnack
    by_cases hq : q' = q
    · subst hq
      rw [hsplit] at hhead
      cases front with
      | nil => exact absurd rfl (hspared (by rw [hstate, queue?_sending]))
      | cons p₀ front =>
        obtain ⟨rfl, -⟩ := List.cons_eq_cons.mp hhead
        exact ⟨q', front ++ back, hfields.1, queue_setQueue _, hfields.2⟩
    · exact ⟨q', rest, hfields.1, by rw [queue_setQueue_of_ne _ hq, hhead], hfields.2⟩
  · intro q' p' hmem
    rw [hqueue] at hmem
    by_cases hq : q' = q
    · subst hq
      rw [queue_setQueue] at hmem
      refine h.nonempty q' p' ?_
      rw [hsplit]
      exact (List.Sublist.append_left (List.sublist_cons_self p back) front).subset hmem
    · rw [queue_setQueue_of_ne _ hq] at hmem
      exact h.nonempty q' p' hmem

theorem kept_packetTimedout (h : Kept s) {i : Nat}
    (hspared : s.queueState.queue? = some q → i ≠ 0) : Kept (packetTimedout s q i) := by
  unfold packetTimedout
  cases hi : (s.queue q)[i]? with
  | none => exact h
  | some p =>
    obtain ⟨hlt, hget⟩ := List.getElem?_eq_some_iff.mp hi
    have hsplit : s.queue q = (s.queue q).take i ++ p :: (s.queue q).drop (i + 1) := by
      rw [← hget, ← List.drop_eq_getElem_cons hlt, List.take_append_drop]
    have herase : (s.queue q).eraseIdx i = (s.queue q).take i ++ (s.queue q).drop (i + 1) :=
      List.eraseIdx_eq_take_drop_succ _ _
    simp only [herase]
    refine kept_expired h hsplit fun hq hnil => ?_
    have hzero := congrArg List.length hnil
    simp only [List.length_take, List.length_nil] at hzero
    have hi := hspared hq
    omega

theorem kept_handOver (h : Kept s) (hhead : s.queue q = p :: rest) : Kept (handOver s q p) := by
  refine ⟨⟨?_, h.distinct, h.conserved⟩, ⟨h.fresh, ?_, ?_, ?_⟩⟩
  · intro a ha
    rcases List.mem_cons.mp ha with rfl | ha
    · trivial
    · exact h.regular a ha
  · intro hsending
    exact absurd hsending (by simp [handOver, State.record])
  · intro p' hsending
    obtain rfl : p = p' := Option.some.inj hsending
    exact ⟨q, rest, rfl, by rw [queue_handOver, hhead], rfl⟩
  · rw [queue_handOver]
    exact h.nonempty

theorem kept_processNodeQueues {answer : Answer} (h : Kept s)
    (hspared : Spared s (w, .queueUpdated mailboxBusy answer)) :
    Kept (processNodeQueues w s mailboxBusy answer) := by
  have hprocessed := processNodeQueues_processed w s mailboxBusy answer
  generalize processNodeQueues w s mailboxBusy answer = t at hprocessed
  cases hprocessed with
  | nothing => exact h
  | dropped hnext hhead hbuf =>
    exact absurd hbuf (h.nonempty _ _ (by rw [hhead]; exact List.mem_cons_self))
  | pending hnext hhead => exact kept_handOver h hhead
  | @completed q p rest status _ hnext hhead _ hresult =>
    refine kept_queueSendDone (kept_handOver h hhead) rfl (fun _ => rfl) ?_
    intro q' hstate _ hmoves
    obtain rfl : q = q' := by
      have hsame : q.sending = q'.sending := hstate
      cases q <;> cases q' <;> simp_all [Queue.sending]
    have hroom := hspared q hnext p (by rw [hhead]; rfl) status hresult
    exact (free_congr (queue_handOver p)).mpr (hroom p (by rw [hhead]; rfl) hmoves)
  | refused hnext hhead =>
    refine kept_queueSendDone (kept_handOver h hhead) rfl ?_ ?_
    · rintro (hfail | hfail) <;> exact absurd hfail (by decide)
    · intro q' _ _ hmoves
      rcases hmoves.1 with hfail | ⟨-, hfail, -⟩ <;> exact absurd hfail (by decide)

theorem kept_step (input : World × Event) (hspared : Spared s input) (h : Kept s) : Kept (step s input) := by
  obtain ⟨w, event⟩ := input
  cases event with
  | input node decrypted ip => exact kept_nodeInputQueued h node decrypted ip
  | queueUpdated mailboxBusy answer => exact kept_processNodeQueues h hspared
  | sendDone status =>
    simp only [step]
    cases hsending : s.sending with
    | none => exact h
    | some p =>
      refine kept_queueSendDone h hsending (fun _ => rfl) ?_
      intro q hstate _ hmoves
      obtain ⟨q', rest, hstate', hhead, -⟩ := h.busy p hsending
      have hq : q' = q := by
        have hboth := hstate'.symm.trans hstate
        cases q <;> cases q' <;> simp_all [Queue.sending]
      subst hq
      refine hspared q' (by rw [hstate, queue?_sending]; rfl) p ?_ hmoves
      rw [hhead]
      rfl
  | timedout q i => exact kept_packetTimedout h hspared

end Steps

/-- Whatever arrives and whatever becomes of it: if the timer of a packet in transmission never
fires and there is always room to move a packet, then no packet is lost. -/
theorem nothing_lost (inputs : List (World × Event)) (hspared : Machine.Admissible step Spared init inputs) :
    NoLoss (Machine.run step init inputs) :=
  (Machine.run_invariant_of_admissible (fun _ input hspared h => kept_step input hspared h) hspared kept_init).toNoLoss

def sampleRun : List (World × Event) :=
  [sampleInput 5 1, sampleInput 6 2, (sampleWorld, .queueUpdated false .pending),
    sampleInput 21 3, (sampleWorld, .sendDone transmitCompleteNoAck),
    (sampleWorld, .queueUpdated true .pending), (sampleWorld, .queueUpdated false .pending),
    (sampleWorld, .timedout .long 1), (sampleWorld, .sendDone transmitCompleteOk)]

theorem sampleRun_nothingLost : Machine.Admissible step Spared init sampleRun ∧
    NoLoss (Machine.run step init sampleRun) :=
  ⟨by decide +kernel, nothing_lost sampleRun (by decide +kernel)⟩

/-- The lifetime of the packet in transmission ends, and its result takes the next packet, which was not
sent. -/
def expiredInTransmission : List (World × Event) :=
  [sampleInput 5 1, sampleInput 5 2, (sampleWorld, .queueUpdated false .pending),
    (sampleWorld, .timedout .long 0), (sampleWorld, .sendDone transmitCompleteOk)]

theorem expiredInTransmission_lost : Action.reported 0 transmitCompleteOk (some 1) ∈
        (Machine.run step init expiredInTransmission).log ∧
      ¬ NoLoss (Machine.run step init expiredInTransmission) := by
  refine ⟨by decide +kernel, fun h => ?_⟩
  have hconserved := h.conserved
  revert hconserved
  decide +kernel

end ZipGateway.NodeQueue

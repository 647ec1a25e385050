import ZipGateway.NodeQueue.Attempts

/-!
# The filter for duplicates

`black_list_crc32` holds the fingerprints of the two frames that were remembered last: a frame is
remembered when it gets past the check, before it is known whether there is room for it. A fingerprint
is a CRC-32 and is stored as one, but the check looks for its low 16 bits. So a frame is recognised when
these are the whole fingerprint of a remembered frame, or when they are zero and the list is not full.
-/

namespace ZipGateway.NodeQueue

def fingerprint (buf : Bytes) : UInt32 :=
  crc32 buf 0xFFFF

def crc16 (buf : Bytes) : UInt16 :=
  (fingerprint buf).toUInt16

inductive Outcome where
  | diverted
  | duplicate
  | refused
  | queued
deriving DecidableEq, Repr

def outcome (w : World) (s : State) (decrypted : Bool) (ip : IpPacket) : Outcome :=
  if bypasses w decrypted ip.bytes then .diverted
  else if checkFingerprintUipBuf s ip.bytes then .duplicate
  else if Free w s then .queued
  else .refused

def noted (s : State) : World × Event → List Bytes
  | (w, .input _ decrypted ip) =>
    match outcome w s decrypted ip with
    | .diverted | .duplicate => []
    | .refused | .queued => [ip.bytes]
  | _ => []

def notedFrom (s : State) (seen : List Bytes) : List (World × Event) → List Bytes
  | [] => seen
  | input :: inputs => notedFrom (step s input) (noted s input ++ seen) inputs

def remembered (inputs : List (World × Event)) : List Bytes :=
  (notedFrom init [] inputs).take 2

/-- What is expected of the filter when a frame arrives. -/
structure Filters (seen : List Bytes) (w : World) (s : State) (node : NodeId) (decrypted : Bool)
    (ip : IpPacket) : Prop where
  /-- A frame with the fingerprint of a remembered frame is dropped. -/
  drops : (∃ f ∈ seen, fingerprint f = fingerprint ip.bytes) → outcome w s decrypted ip = .duplicate
  /-- A frame is dropped for no other reason than that its CRC-16 is that of a remembered frame. -/
  spares : outcome w s decrypted ip = .duplicate → ∃ f ∈ seen, crc16 f = crc16 ip.bytes
  /-- A frame that could not be queued is not remembered. -/
  keeps : outcome w s decrypted ip = .refused → (nodeInputQueued w s node decrypted ip).blackList = s.blackList

section Condition

def entry (seen : List Bytes) (k : Nat) : UInt32 :=
  (seen[k]?.map fingerprint).getD 0

/-- The CRC-16 of the frame is the whole fingerprint of a remembered frame, or it is the zero of an
entry that has not been used. -/
def Recognised (seen : List Bytes) (buf : Bytes) : Prop :=
  (crc16 buf).toUInt32 = entry seen 0 ∨ (crc16 buf).toUInt32 = entry seen 1

instance (seen : List Bytes) (buf : Bytes) : Decidable (Recognised seen buf) :=
  inferInstanceAs (Decidable (_ ∨ _))

structure Distinguished (seen : List Bytes) (w : World) (s : State) (decrypted : Bool)
    (ip : IpPacket) : Prop where
  /-- If a remembered frame has its fingerprint, then the frame gets to the filter and is recognised. -/
  known : (∃ f ∈ seen, fingerprint f = fingerprint ip.bytes) →
    bypasses w decrypted ip.bytes = false ∧ Recognised seen ip.bytes
  /-- If its CRC-16 is zero, then so is that of a remembered frame, or the list is full. -/
  used : bypasses w decrypted ip.bytes = false → crc16 ip.bytes = 0 → seen.length < 2 → ∃ f ∈ seen, crc16 f = 0
  /-- If the frame is new, then there is room for it, or it is remembered already. -/
  room : bypasses w decrypted ip.bytes = false → ¬Recognised seen ip.bytes →
    Free w s ∨ entry seen 1 = fingerprint ip.bytes

end Condition

section List

variable {w : World} {s : State} {seen : List Bytes}

/-- The list holds the fingerprints of the last two frames, and the older one is replaced next. -/
def Listed (seen : List Bytes) (s : State) : Prop :=
  s.blackListNext = 0 ∧ s.blackList = [entry seen 1, entry seen 0] ∨
    s.blackListNext = 1 ∧ s.blackList = [entry seen 0, entry seen 1]

theorem Listed.congr {t : State} (h : Listed seen s) (hlist : t.blackList = s.blackList)
    (hnext : t.blackListNext = s.blackListNext) : Listed seen t := by
  unfold Listed
  rw [hlist, hnext]
  exact h

theorem listed_init : Listed [] init :=
  Or.inl ⟨rfl, rfl⟩

theorem entry_cons_zero (f : Bytes) : entry (f :: seen) 0 = fingerprint f := rfl

theorem entry_cons_one (f : Bytes) : entry (f :: seen) 1 = entry seen 0 := rfl

theorem listed_addFingerprintUipBuf (h : Listed seen s) (buf : Bytes) :
    Listed (buf :: seen) (addFingerprintUipBuf s buf) := by
  unfold Listed
  rw [entry_cons_zero, entry_cons_one]
  rcases h with ⟨hnext, hlist⟩ | ⟨hnext, hlist⟩
  · refine Or.inr ⟨?_, ?_⟩ <;> simp [addFingerprintUipBuf, hnext, hlist, fingerprint]
  · refine Or.inl ⟨?_, ?_⟩ <;> simp [addFingerprintUipBuf, hnext, hlist, fingerprint]

theorem checkFingerprintUipBuf_iff (h : Listed seen s) (buf : Bytes) :
    checkFingerprintUipBuf s buf = true ↔ Recognised seen buf := by
  have hcheck : checkFingerprintUipBuf s buf = true ↔ (crc16 buf).toUInt32 ∈ s.blackList := by
    simp [checkFingerprintUipBuf, crc16, fingerprint, List.any_eq_true]
  rw [hcheck]
  rcases h with ⟨-, hlist⟩ | ⟨-, hlist⟩
  · rw [hlist, Recognised, List.mem_pair, or_comm]
  · rw [hlist, Recognised, List.mem_pair]

theorem entry_take {k : Nat} (hk : k < 2) : entry (seen.take 2) k = entry seen k := by
  rw [entry, entry, List.getElem?_take_of_lt hk]

end List

section Runs

variable {w : World} {s : State} {seen : List Bytes}

theorem outcome_eq (h : Listed seen s) (decrypted : Bool) (ip : IpPacket) : outcome w s decrypted ip =
      if bypasses w decrypted ip.bytes then .diverted
      else if Recognised seen ip.bytes then .duplicate
      else if Free w s then .queued
      else .refused := by
  unfold outcome
  simp only [checkFingerprintUipBuf_iff h]

theorem nodeInputQueued_eq (w : World) (s : State) (node : NodeId) (decrypted : Bool) (ip : IpPacket) :
    nodeInputQueued w s node decrypted ip =
      match outcome w s decrypted ip with
      | .diverted | .duplicate => s
      | .refused => addFingerprintUipBuf s ip.bytes
      | .queued =>
        enqueue (addFingerprintUipBuf s ip.bytes) (arrivalOf w s node ip.bytes).queue (arrivedPacket w s node ip) := by
  unfold nodeInputQueued outcome
  by_cases hbypass : bypasses w decrypted ip.bytes = true
  · simp only [if_pos hbypass]
  by_cases hdup : checkFingerprintUipBuf s ip.bytes = true
  · simp only [if_neg hbypass, if_pos hdup]
  have hfree : Free w (addFingerprintUipBuf s ip.bytes) ↔ Free w s := Iff.rfl
  by_cases hroom : Free w s
  · simp only [if_neg hbypass, if_neg hdup, uipPacketqueueAlloc, if_pos hroom, if_pos (hfree.mpr hroom),
      nextFrame_setQueue]
    rfl
  · simp only [if_neg hbypass, if_neg hdup, uipPacketqueueAlloc, if_neg hroom, if_neg (mt hfree.mp hroom)]

theorem Listed.enqueue {q : Queue} {p : Packet} (h : Listed seen s) : Listed seen (enqueue s q p) := by
  cases q <;> exact h.congr rfl rfl

theorem listed_nodeInputQueued (h : Listed seen s) (node : NodeId) (decrypted : Bool) (ip : IpPacket) :
    Listed (noted s (w, .input node decrypted ip) ++ seen) (nodeInputQueued w s node decrypted ip) := by
  rw [nodeInputQueued_eq]
  simp only [noted]
  cases outcome w s decrypted ip with
  | diverted | duplicate => exact h
  | refused => exact listed_addFingerprintUipBuf h _
  | queued => exact (listed_addFingerprintUipBuf h _).enqueue

structure SameList (s t : State) : Prop where
  blackList : t.blackList = s.blackList
  next : t.blackListNext = s.blackListNext

theorem SameList.trans {t u : State} (h : SameList s t) (h' : SameList t u) : SameList s u :=
  ⟨h'.blackList.trans h.blackList, h'.next.trans h.next⟩

theorem Listed.same {t : State} (h : Listed seen s) (hsame : SameList s t) : Listed seen t :=
  h.congr hsame.blackList hsame.next

theorem sameList_setQueue (q : Queue) (packets : List Packet) : SameList s (s.setQueue q packets) := by
  cases q <;> exact ⟨rfl, rfl⟩

theorem sameList_popHead {q : Queue} {head reported : Packet} {status : UInt8} :
    SameList s (popHead s q head reported status) := by
  cases q <;> exact ⟨rfl, rfl⟩

theorem sameList_mbNodeTransmissionOkEvent (head : Packet) (status : UInt8) :
    SameList s (mbNodeTransmissionOkEvent w s head status) := by
  unfold mbNodeTransmissionOkEvent
  split <;> exact ⟨rfl, rfl⟩

theorem sameList_queueSendDone (reported : Packet) (mailboxBusy : Bool) (status : UInt8)
    (sentBuffer : Bytes) : SameList s (queueSendDone w s reported mailboxBusy status sentBuffer) := by
  cases hq : s.queueState.queue? with
  | none =>
    unfold queueSendDone
    rw [hq]
    exact ⟨rfl, rfl⟩
  | some q =>
    cases hhead : s.queue q with
    | nil =>
      unfold queueSendDone
      rw [hq]
      simp only [hhead, List.head?_nil]
      exact ⟨rfl, rfl⟩
    | cons head rest =>
      refine (sameList_mbNodeTransmissionOkEvent (w := w) head status).trans ?_
      have hsettled : Settled w (mbNodeTransmissionOkEvent w s head status) q head reported mailboxBusy
          status sentBuffer (queueSendDone w s reported mailboxBusy status sentBuffer) :=
        queueSendDone_settled hq hhead
      generalize queueSendDone w s reported mailboxBusy status sentBuffer = t at hsettled
      cases hsettled with
      | kept => exact ⟨rfl, rfl⟩
      | mailbox => exact SameList.trans (t := State.record _ _) ⟨rfl, rfl⟩ sameList_popHead
      | requeued => exact (sameList_setQueue .long _).trans sameList_popHead
      | lost => exact sameList_popHead
      | finished => exact SameList.trans (t := State.record _ _) ⟨rfl, rfl⟩ sameList_popHead

theorem sameList_processNodeQueues (mailboxBusy : Bool) (answer : Answer) :
    SameList s (processNodeQueues w s mailboxBusy answer) := by
  have hprocessed := processNodeQueues_processed w s mailboxBusy answer
  generalize processNodeQueues w s mailboxBusy answer = t at hprocessed
  have hdone (q : Queue) (p : Packet) (busy : Bool) (status : UInt8) (buf : Bytes) :
      SameList s { queueSendDone w (handOver s q p) p busy status buf with sending := none } :=
    SameList.trans (t := handOver s q p) ⟨rfl, rfl⟩
      (SameList.trans (sameList_queueSendDone (w := w) p busy status buf) ⟨rfl, rfl⟩)
  cases hprocessed with
  | nothing => exact ⟨rfl, rfl⟩
  | @dropped q p rest hnext hhead hbuf =>
    exact SameList.trans (t := { s with queueState := .idle, sendNack := q == .long }) ⟨rfl, rfl⟩
      (sameList_setQueue q _)
  | pending => exact ⟨rfl, rfl⟩
  | completed => exact hdone _ _ _ _ _
  | refused => exact hdone _ _ _ _ _

theorem sameList_packetTimedout (q : Queue) (i : Nat) : SameList s (packetTimedout s q i) := by
  unfold packetTimedout
  cases (s.queue q)[i]? with
  | none => exact ⟨rfl, rfl⟩
  | some p => exact (sameList_setQueue q _).trans ⟨rfl, rfl⟩

theorem listed_step (h : Listed seen s) (input : World × Event) : Listed (noted s input ++ seen) (step s input) := by
  obtain ⟨w, event⟩ := input
  cases event with
  | input node decrypted ip => exact listed_nodeInputQueued h node decrypted ip
  | queueUpdated mailboxBusy answer => exact h.same (sameList_processNodeQueues mailboxBusy answer)
  | sendDone status =>
    unfold step
    cases hsending : s.sending with
    | none => exact h
    | some p =>
      exact (h.same (sameList_queueSendDone (w := w) p false status p.buf)).congr rfl rfl
  | timedout q i => exact h.same (sameList_packetTimedout q i)

theorem listed_run (inputs : List (World × Event)) (h : Listed seen s) :
    Listed (notedFrom s seen inputs) (Machine.run step s inputs) := by
  induction inputs generalizing s seen with
  | nil => exact h
  | cons input inputs ih => exact ih (listed_step h input)

section Filtering

variable {decrypted : Bool} {ip : IpPacket}

theorem outcome_duplicate_iff (h : Listed seen s) : outcome w s decrypted ip = .duplicate ↔
    bypasses w decrypted ip.bytes = false ∧ Recognised seen ip.bytes := by
  rw [outcome_eq h]
  split_ifs with hbypass hrecognised hfree <;> simp_all

theorem outcome_refused_iff (h : Listed seen s) : outcome w s decrypted ip = .refused ↔
    bypasses w decrypted ip.bytes = false ∧ ¬Recognised seen ip.bytes ∧ ¬Free w s := by
  rw [outcome_eq h]
  split_ifs with hbypass hrecognised hfree <;> simp_all

theorem crc16_eq_of_fingerprint {f buf : Bytes} (h : (crc16 buf).toUInt32 = fingerprint f) : crc16 f = crc16 buf := by
  rw [crc16, ← h]
  simp

theorem recognised_cases {buf : Bytes} (hlength : seen.length ≤ 2) (h : Recognised seen buf) :
    (∃ f ∈ seen, crc16 f = crc16 buf) ∨ crc16 buf = 0 ∧ seen.length < 2 := by
  have hentry : ∀ k < 2, (crc16 buf).toUInt32 = entry seen k →
      (∃ f ∈ seen, crc16 f = crc16 buf) ∨ crc16 buf = 0 ∧ seen.length < 2 := by
    intro k hk heq
    unfold entry at heq
    cases hf : seen[k]? with
    | some f =>
      rw [hf] at heq
      exact Or.inl ⟨f, List.mem_of_getElem? hf, crc16_eq_of_fingerprint heq⟩
    | none =>
      rw [hf] at heq
      have hshort : seen.length ≤ k := List.getElem?_eq_none_iff.mp hf
      refine Or.inr ⟨?_, by omega⟩
      have hzero := congrArg UInt32.toUInt16 heq
      simpa using hzero
  rcases h with h | h
  · exact hentry 0 (by decide) h
  · exact hentry 1 (by decide) h

theorem recognised_of_unused {buf : Bytes} (hcrc : crc16 buf = 0) (hshort : seen.length < 2) : Recognised seen buf := by
  have hnone : seen[1]? = none := List.getElem?_eq_none_iff.mpr (by omega)
  refine Or.inr ?_
  rw [hcrc, entry, hnone]
  rfl

theorem blackList_addFingerprintUipBuf_iff (h : Listed seen s) (buf : Bytes) :
    (addFingerprintUipBuf s buf).blackList = s.blackList ↔ entry seen 1 = fingerprint buf := by
  rcases h with ⟨hnext, hlist⟩ | ⟨hnext, hlist⟩ <;>
    simp [addFingerprintUipBuf, hnext, hlist, fingerprint, eq_comm]

theorem filters_iff (h : Listed seen s) (hlength : seen.length ≤ 2) (node : NodeId) :
    Filters seen w s node decrypted ip ↔ Distinguished seen w s decrypted ip := by
  constructor
  · rintro ⟨hdrops, hspares, hkeeps⟩
    refine ⟨fun hknown => (outcome_duplicate_iff h).mp (hdrops hknown), ?_, ?_⟩
    · intro hbypass hcrc hshort
      obtain ⟨f, hf, hsame⟩ :=
        hspares ((outcome_duplicate_iff h).mpr ⟨hbypass, recognised_of_unused hcrc hshort⟩)
      exact ⟨f, hf, hsame.trans hcrc⟩
    · intro hbypass hnew
      by_cases hfree : Free w s
      · exact Or.inl hfree
      · have hrefused : outcome w s decrypted ip = .refused :=
          (outcome_refused_iff h).mpr ⟨hbypass, hnew, hfree⟩
        have hkept := hkeeps hrefused
        rw [nodeInputQueued_eq, hrefused] at hkept
        exact Or.inr ((blackList_addFingerprintUipBuf_iff h _).mp hkept)
  · rintro ⟨hknown, hused, hroom⟩
    refine ⟨fun hsame => (outcome_duplicate_iff h).mpr (hknown hsame), ?_, ?_⟩
    · intro hduplicate
      obtain ⟨hbypass, hrecognised⟩ := (outcome_duplicate_iff h).mp hduplicate
      rcases recognised_cases hlength hrecognised with hfound | ⟨hcrc, hshort⟩
      · exact hfound
      · obtain ⟨f, hf, hzero⟩ := hused hbypass hcrc hshort
        exact ⟨f, hf, hzero.trans hcrc.symm⟩
    · intro hrefused
      obtain ⟨hbypass, hnew, hfree⟩ := (outcome_refused_iff h).mp hrefused
      rw [nodeInputQueued_eq, hrefused]
      exact (blackList_addFingerprintUipBuf_iff h _).mpr ((hroom hbypass hnew).resolve_left hfree)

end Filtering

/-- After every history the filter does what is expected of it exactly for the frames it can tell
apart. -/
theorem duplicates_filtered_iff (inputs : List (World × Event)) (w : World) (node : NodeId)
    (decrypted : Bool) (ip : IpPacket) :
    Filters (remembered inputs) w (Machine.run step init inputs) node decrypted ip ↔
      Distinguished (remembered inputs) w (Machine.run step init inputs) decrypted ip := by
  have hlisted : Listed (remembered inputs) (Machine.run step init inputs) := by
    have hrun := listed_run inputs listed_init
    unfold Listed at hrun ⊢
    unfold remembered
    rw [entry_take (by decide), entry_take (by decide)]
    exact hrun
  exact filters_iff hlisted (List.length_take_le _ _) node

theorem repeated_not_dropped :
    ¬Filters (remembered [sampleInput 5 1]) sampleWorld (Machine.run step init [sampleInput 5 1]) 5
      false (samplePacket 5 1) := by
  intro h
  have hdropped := h.drops ⟨(samplePacket 5 1).bytes, by decide +kernel, rfl⟩
  revert hdropped
  decide +kernel

end Runs

end ZipGateway.NodeQueue

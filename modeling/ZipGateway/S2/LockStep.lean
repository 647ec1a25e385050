import ZipGateway.S2.Exchange

/-!
# Two nodes in lock-step

Two nodes with the same keys and the frames under way between them. Messages go one at a time, in
either direction, and nothing is lost or delivered twice; completions and timers come as they like.
At every moment either both sides have the same generator, or exactly one frame is under way whose
arrival will bring them together again.
-/

set_option maxRecDepth 8000

namespace ZipGateway.S2

open Function (update update_of_ne update_self)

/-- The two ends, each with its surroundings and the connection of arriving frames. Nothing is lost below, and
a message opens under its own class only. -/
structure Link where
  env : Bool → Env
  con : Bool → Connection
  sg : UInt8 → SecGroup
  loadedKeys : UInt8
  home : UInt32
  mirrored : ∀ x, (con !x).lNode = (con x).rNode
  singlecast : ∀ x, Connection.isMulticast (con x) = false
  isNode : ∀ x, (con x).rNode ≠ 0
  accepts : ∀ x n, (env x).sendFrame n = true
  ciphers : ∀ x, SameCiphers (env x) (env !x)
  ccm : ∀ x, CorrectCcm (env x)
  ideal : ∀ x k classId nonce nonce' aad text, loadedKeys.toNat.testBit k.toNat →
    loadedKeys.toNat.testBit classId.toNat → ((env x).ccmDecryptAndAuth (sg k).encKey nonce' aad
      ((env x).ccmEncryptAndAuth (sg classId).encKey nonce aad text)).1 ≠ 0 → k = classId

/-- The nodes, how many frames of each have arrived at the other, and the outcome of every
encapsulation that arrived: the class it was sent with, the return code, and the class it was opened
with. -/
structure Net where
  node : Bool → S2
  delivered : Bool → Nat
  opened : List (UInt8 × DecryptReturnCode × UInt8)

variable {s' : S2}

namespace Net

def put (n : Net) (x : Bool) (s : S2) : Net :=
  { n with node := update n.node x s }

def next (n : Net) (x : Bool) : Option (Connection × Bytes) :=
  (n.node x).transmitted.reverse[n.delivered x]?

inductive Event where
  | send (x : Bool) (con : Connection) (buf : Bytes)
  | deliver (x : Bool) (rest : Mem)
  | done (x : Bool) (time : Nat)
  | timeout (x : Bool)

def deliver (link : Link) (n : Net) (x : Bool) (rest : Mem) : Net :=
  match n.next x with
  | none => n
  | some (con, frame) =>
    let msg := rest.write 0 frame
    let d := (n.node !x).decryptMsg (link.env !x) (link.con !x) msg frame.length
    { node := update n.node (!x)
        ((n.node !x).applicationCommandHandler (link.env !x) id (link.con !x) msg frame.length)
      delivered := update n.delivered x (n.delivered x + 1)
      opened :=
        if msg 1 = security2MessageEncapsulation then (con.classId, d.rc, d.con.classId) :: n.opened
        else n.opened }

def step (link : Link) (n : Net) : Event → Net
  | .send x con buf => n.put x ((n.node x).sendData (link.env x) id con buf)
  | .deliver x rest => n.deliver link x rest
  | .done x time => n.put x ((n.node x).sendFrameDoneNotify id .ok time)
  | .timeout x => n.put x ((n.node x).timeout (link.env x) id)

def Quiet (n : Net) : Prop :=
  ∀ x, n.delivered x = (n.node x).transmitted.length

instance (n : Net) : Decidable n.Quiet :=
  inferInstanceAs (Decidable (∀ x, n.delivered x = (n.node x).transmitted.length))

structure Usable (link : Link) (classId : UInt8) : Prop where
  loaded : link.loadedKeys.toNat.testBit classId.toNat = true
  known : classId.toNat < nSecClass
  stable : ∀ x, (sentAs { link.con x with classId := classId }).classId = classId

/-- A message is sent when no frame is under way. A nonce that was asked for comes before the timer. -/
def InTurn (link : Link) (n : Net) : Event → Prop
  | .send x con _ =>
    n.Quiet ∧ con.lNode = (link.con x).lNode ∧ con.rNode = (link.con x).rNode ∧ Usable link (sentAs con).classId
  | .timeout x => (n.node x).fsm ≠ .waitNonceRaport
  | .deliver _ _ | .done _ _ => True

/-- A message of another class is sent to an idle node only. -/
def ToIdle (n : Net) : Event → Prop
  | .send x con _ =>
    (n.node !x).fsm = .idle ∨ ∀ i, slot (n.node x).spanTable con = some i →
        ((n.node x).spanTable i).classId = (sentAs con).classId
  | .timeout _ | .deliver _ _ | .done _ _ => True

def OneAtATime (link : Link) (n : Net) (event : Event) : Prop :=
  InTurn link n event ∧ ToIdle n event

/-! ## The invariant -/

section Net

@[simp]
theorem node_put_self (n : Net) (x : Bool) (s : S2) : (n.put x s).node x = s := by
  simp [put]

@[simp]
theorem node_put_other (n : Net) (x : Bool) (s : S2) : (n.put x s).node (!x) = n.node !x := by
  simp [put]

theorem forall_side {P : Bool → Prop} (x : Bool) (hself : P x) (hother : P !x) : ∀ y, P y := by
  intro y
  by_cases h : y = x
  · exact h ▸ hself
  · exact (Bool.eq_not_iff.mpr h) ▸ hother

structure UnderWay (n : Net) (x : Bool) (con : Connection) (frame : Bytes) : Prop where
  sent : ∃ earlier, (n.node x).transmitted = (con, frame) :: earlier ∧ n.delivered x = earlier.length
  other : n.delivered (!x) = (n.node !x).transmitted.length

theorem UnderWay.next {n : Net} {x : Bool} {con : Connection} {frame : Bytes}
    (h : n.UnderWay x con frame) : n.next x = some (con, frame) := by
  obtain ⟨earlier, hsent, hdelivered⟩ := h.sent
  rw [Net.next, hsent, hdelivered]
  simp

theorem UnderWay.next_other {n : Net} {x : Bool} {con : Connection} {frame : Bytes}
    (h : n.UnderWay x con frame) : n.next (!x) = none := by
  rw [Net.next, h.other]
  simp

theorem Quiet.next {n : Net} (h : n.Quiet) (x : Bool) : n.next x = none := by
  rw [Net.next, h x]
  simp

end Net

structure Side (link : Link) (x : Bool) (i : SpanRef) (v : View) (fsm : FsmState) : Prop where
  sg : v.sg = link.sg
  loadedKeys : v.loadedKeys = link.loadedKeys
  home : v.myHomeId = link.home
  mpan : v.mpan = none
  mosList : ∀ k, (v.mosList k).nodeId = 0
  entry : slot v.spanTable (link.con x) = some i
  noMos : fsm ≠ .isMosWaitReply

structure Together (span span' : Span) : Prop where
  state : span.state = .negotiated
  state' : span'.state = .negotiated
  d : span'.d = span.d

/-- Nothing is under way; the generators are the same, or none was made. -/
structure Resting (span span' : Span) (fsm fsm' : FsmState) (started : Prop) : Prop where
  hears : Hears span' span.txSeq
  hears' : Hears span span'.txSeq
  class_eq : span'.classId = span.classId
  known : span.classId.toNat < nSecClass
  notWaiting : fsm ≠ .waitNonceRaport
  notWaiting' : fsm' ≠ .waitNonceRaport
  spans : Together span span' ∨ ¬started ∧ span.state.usable = false ∧ span'.state.usable = false

structure Waiting (link : Link) (x : Bool) (v : View) (fsm : FsmState) : Prop where
  fsm_eq : fsm = .waitNonceRaport
  lNode : v.peer.lNode = (link.con x).lNode
  rNode : v.peer.rNode = (link.con x).rNode
  usable : Usable link v.peer.classId
  length : v.length ≠ 0

structure Ready (span : Span) (fsm : FsmState) (classId : UInt8) : Prop where
  notWaiting : fsm ≠ .waitNonceRaport
  known : span.classId.toNat < nSecClass
  search : fsm = .idle ∨ span.classId = classId

section Phases

variable (link : Link) (x : Bool) (i j : SpanRef) (v w : View) (fsm fsm' : FsmState)

structure Getting (frame : Bytes) : Prop where
  waiting : Waiting link x v fsm
  ready : Ready (w.spanTable j) fsm' v.peer.classId
  frame_eq : ∃ seq, frame = [commandClassSecurity2, security2NonceGet, seq] ∧
    Hears (w.spanTable j) seq ∧ (v.spanTable i).txSeq = seq + 1
  hears' : Hears (v.spanTable i) (w.spanTable j).txSeq

structure Reporting (frame : Bytes) : Prop where
  waiting : Waiting link x v fsm
  ready : Ready (w.spanTable j) fsm' v.peer.classId
  state : (w.spanTable j).state = .sosLocalNonce
  frame_eq : ∃ seq, frame = nonceReport seq (w.spanTable j).d.rNonce ∧
    Hears (v.spanTable i) seq ∧ (w.spanTable j).txSeq = seq + 1
  hears : Hears (w.spanTable j) (v.spanTable i).txSeq

structure Sending (s : S2) (con : Connection) (frame : Bytes) : Prop where
  con_eq : con = s.peer
  frame_eq : frame = (s.encrypt (link.env x)).1
  sync : ∀ t : S2, t.view = w → t.fsm = fsm' → Synchronised s t (link.con !x) i j
  ungrouped : Ungrouped s
  length : s.length ≠ 0
  sg : s.sg = link.sg
  usable : Usable link s.peer.classId
  span : v.spanTable i = s.spanSent (link.env x) i
  state : (v.spanTable i).state = .negotiated
  class_eq : (v.spanTable i).classId = s.peer.classId
  hears' : Hears (v.spanTable i) (w.spanTable j).txSeq
  notWaiting : fsm ≠ .waitNonceRaport
  notWaiting' : fsm' ≠ .waitNonceRaport

end Phases

def span (n : Net) (e : Bool → SpanRef) (x : Bool) : Span :=
  (n.node x).spanTable (e x)

inductive Phase (link : Link) (e : Bool → SpanRef) (n : Net) (started : Prop) : Nat → Prop
  | resting (hquiet : n.Quiet)
      (h : ∀ x, Resting (n.span e x) (n.span e !x) (n.node x).fsm (n.node !x).fsm started) :
      Phase link e n started 0
  | getting (x : Bool) (con : Connection) (frame : Bytes) (hway : n.UnderWay x con frame)
      (h : Getting link x (e x) (e !x) (n.node x).view (n.node !x).view (n.node x).fsm
        (n.node !x).fsm frame) : Phase link e n started 1
  | reporting (x : Bool) (con : Connection) (frame : Bytes) (hway : n.UnderWay (!x) con frame)
      (h : Reporting link x (e x) (e !x) (n.node x).view (n.node !x).view (n.node x).fsm
        (n.node !x).fsm frame) : Phase link e n started 1
  | sending (x : Bool) (s : S2) (con : Connection) (frame : Bytes)
      (hway : n.UnderWay x con frame)
      (h : Sending link x (e x) (e !x) (n.node x).view (n.node !x).view (n.node x).fsm
        (n.node !x).fsm s con frame) : Phase link e n started 1

def accepted (n : Net) : Nat :=
  (n.node false).nAccepted + (n.node true).nAccepted

structure Inv (link : Link) (e : Bool → SpanRef) (before : Nat) (together : Prop) (n : Net) :
    Prop where
  side : ∀ x, Side link x (e x) (n.node x).view (n.node x).fsm
  opened : ∀ m ∈ n.opened, m.2.1 = .authOk ∧ m.2.2 = m.1
  phase : ∃ pending, Phase link e n (together ∨ n.opened ≠ []) pending ∧ n.accepted = before + n.opened.length + pending

/-! ## What keeps it -/

section Sides

variable {link : Link} {x : Bool} {i j : SpanRef} {v w : View} {fsm fsm' : FsmState}

theorem Side.ungrouped {s : S2} (h : Side link x i s.view fsm) : Ungrouped s :=
  ⟨h.mpan, h.mosList⟩

theorem Side.update (h : Side link x i v fsm) {span : Span}
    (hl : span.lnode = (v.spanTable i).lnode) (hr : span.rnode = (v.spanTable i).rnode)
    (hstate : span.state ≠ .notUsed) (hnoMos : fsm' ≠ .isMosWaitReply) {peer : Connection} {buf : Mem}
    {length : Nat} {transmitted : List (Connection × Bytes)} {nAccepted : Nat} :
    Side link x i { v with
        spanTable := update v.spanTable i span, peer := peer, buf := buf, length := length
        transmitted := transmitted, nAccepted := nAccepted } fsm' :=
  ⟨h.sg, h.loadedKeys, h.home, h.mpan, h.mosList, slot_update_entry h.entry hl hr hstate, hnoMos⟩

theorem Side.usable_slot {s : S2} {con : Connection} (h : Side link x i s.view fsm)
    (hl : con.lNode = (link.con x).lNode) (hr : con.rNode = (link.con x).rNode) :
    slot s.spanTable con = some i := by
  rw [slot_congr hl hr]
  exact h.entry

end Sides

section Steps

variable {link : Link} {x : Bool} {i j : SpanRef} {s t : S2}

theorem hears_of_state {span span' : Span} {seq : UInt8} (h : Hears span seq)
    (hstate : span.state ≠ .noSeq) (hseq : span'.rxSeq = span.rxSeq) : Hears span' seq := by
  refine .inr ?_
  rw [hseq]
  exact h.resolve_left hstate

theorem sending_of_sent {fsm : FsmState} (hsent : Sent (link.env x) s i s')
    (hside : Side link x i s.view fsm) (hlength : s.length ≠ 0)
    (hsync : Synchronised s t (link.con !x) i j) (husable : Usable link s.peer.classId)
    (hclass : (s.spanTable i).state = .negotiated → (s.spanTable i).classId = s.peer.classId)
    (hhears : Hears (s.spanTable i) (t.spanTable j).txSeq) (hwait : t.fsm ≠ .waitNonceRaport) :
    Sending link x i j s'.view t.view s'.fsm t.fsm s.entered s.peer (s.entered.encrypt (link.env x)).1 := by
  have hview := view_entered (s := s)
  have hpeer : s.entered.peer = s.peer := congrArg View.peer hview
  have hlen : s.entered.length = s.length := congrArg View.length hview
  have hsg : s.entered.sg = s.sg := congrArg View.sg hview
  have htable : s.entered.spanTable = s.spanTable := congrArg View.spanTable hview
  have hspan : s'.spanTable i = s.spanSent (link.env x) i := by
    have htable' : s'.spanTable = update s.spanTable i (s.spanSent (link.env x) i) :=
      congrArg View.spanTable hsent.view
    rw [htable', update_self]
  have hstates : (s.spanTable i).state = .negotiated ∨ (s.spanTable i).state = .sosRemoteNonce :=
    hsync.spans.imp (fun h => h.1) (fun h => h.1)
  have hused : (s.spanUsed (link.env x) i).state = .negotiated ∧ (s.spanUsed (link.env x) i).classId = s.peer.classId ∧
      (s.spanUsed (link.env x) i).rxSeq = (s.spanTable i).rxSeq := by
    unfold spanUsed
    rcases hstates with hnegotiated | hremote
    · rw [if_neg (by simp [hnegotiated])]
      exact ⟨hnegotiated, hclass hnegotiated, rfl⟩
    · rw [if_pos hremote]
      exact ⟨rfl, rfl, rfl⟩
  refine ⟨hpeer.symm, rfl, ?_, hside.ungrouped.of_view hview, ?_, ?_, ?_, ?_, ?_, ?_, ?_, ?_, hwait⟩
  · intro t' ht hfsm
    exact hsync.of_view hview ht (.inl hfsm)
  · rw [hlen]
    exact hlength
  · rw [hsg]
    exact hside.sg
  · rw [hpeer]
    exact husable
  · rw [show s'.view.spanTable i = s'.spanTable i from rfl, hspan, spanSent, spanSent, spanUsed_entered]
  · rw [show s'.view.spanTable i = s'.spanTable i from rfl, hspan]
    exact hused.1
  · rw [show s'.view.spanTable i = s'.spanTable i from rfl, hspan, hpeer]
    exact hused.2.1
  · rw [show s'.view.spanTable i = s'.spanTable i from rfl, hspan]
    refine hears_of_state hhears ?_ hused.2.2
    rcases hstates with h | h <;> simp [h]
  · rw [hsent.fsm]
    rcases fsm_entered (s := s) with h | h <;> simp [h]

theorem synchronised_of_sides {fsm fsm' : FsmState} (hside : Side link x i s.view fsm)
    (hother : Side link (!x) j t.view fsm') (hl : s.peer.lNode = (link.con x).lNode)
    (hr : s.peer.rNode = (link.con x).rNode) (husable : Usable link s.peer.classId)
    (hfresh : (t.spanTable j).rxSeq - (s.spanTable i).txSeq ≥ seqDuplWindowSize)
    (hspans : SpansMeet s t i j) : Synchronised s t (link.con !x) i j := by
  have hmirrored := link.mirrored (!x)
  rw [Bool.not_not] at hmirrored
  refine ⟨?_, ?_, link.singlecast !x, hside.usable_slot hl hr, hother.entry, ?_, ?_, ?_, hfresh, hspans⟩
  · rw [hr]
    exact link.mirrored x
  · rw [hl]
    exact hmirrored.symm
  · exact hother.home.trans hside.home.symm
  · exact congrFun (hother.sg.trans hside.sg.symm) _
  · unfold classLoaded
    rw [show t.loadedKeys = link.loadedKeys from hother.loadedKeys]
    exact husable.loaded

structure Handed (link : Link) (x : Bool) (i : SpanRef) (s s' : S2) (con : Connection)
    (frame : Bytes) (k : Nat) : Prop where
  side : Side link x i s'.view s'.fsm
  transmitted : s'.transmitted = (con, frame) :: s.transmitted
  accepted : s'.nAccepted = s.nAccepted + k

theorem spanSent_entry (env : Env) (s : S2) (i : SpanRef) (hstate : (s.spanTable i).state ≠ .notUsed) :
    (s.spanSent env i).lnode = (s.spanTable i).lnode ∧ (s.spanSent env i).rnode = (s.spanTable i).rnode ∧
      (s.spanSent env i).state ≠ .notUsed := by
  unfold spanSent Span.sent spanUsed
  split
  · exact ⟨rfl, rfl, by simp⟩
  · exact ⟨rfl, rfl, hstate⟩

theorem handed_of_sent {fsm : FsmState} (hsent : Sent (link.env x) s i s') (hside : Side link x i s.view fsm) :
    Handed link x i s s' s.peer (s.entered.encrypt (link.env x)).1 0 := by
  have hentry := spanSent_entry (link.env x) s i (state_ne_notUsed hside.entry)
  refine ⟨?_, congrArg View.transmitted hsent.view, congrArg View.nAccepted hsent.view⟩
  rw [hsent.view, hsent.fsm]
  refine hside.update hentry.1 hentry.2.1 hentry.2.2 ?_
  rcases fsm_entered (s := s) with h | h <;> simp [h]

inductive Launched (link : Link) (x : Bool) (i j : SpanRef) (s s' t : S2) : Prop
  | getting (con : Connection) (frame : Bytes) (hhanded : Handed link x i s s' con frame 1)
      (h : Getting link x i j s'.view t.view s'.fsm t.fsm frame)
  | sending (con : Connection) (frame : Bytes) (hhanded : Handed link x i s s' con frame 1) (p : S2)
      (h : Sending link x i j s'.view t.view s'.fsm t.fsm p con frame)

section Send

variable {con : Connection} {buf : Bytes} {started : Prop} (hside : Side link x i s.view s.fsm)
  (hother : Side link (!x) j t.view t.fsm)
  (hrest : Resting (s.spanTable i) (t.spanTable j) s.fsm t.fsm started)
  (hl : con.lNode = (link.con x).lNode) (hr : con.rNode = (link.con x).rNode)
  (husable : Usable link (sentAs con).classId)
  (hready : t.fsm = .idle ∨ (s.spanTable i).classId = (sentAs con).classId)

include hside in
theorem side_prepared (con : Connection) (buf : Bytes) : Side link x i (s.prepared con buf).view s.fsm := by
  rw [view_prepared]
  exact ⟨hside.sg, hside.loadedKeys, hside.home, hside.mpan, hside.mosList, hside.entry, hside.noMos⟩

include hside hother hrest hl hr husable

theorem sending_of_resting (hbuf : buf.length ≠ 0) (hspan : (s.spanTable i).state.usable)
    (hclass : (s.spanTable i).classId = (sentAs con).classId) :
    Launched link x i j s ((s.prepared (sentAs con) buf).sendMsgStateEnter (link.env x) id) t := by
  have hnodes := nodes_sentAs con
  have hprepared := side_prepared hside (sentAs con) buf
  have htogether : Together (s.spanTable i) (t.spanTable j) := by
    rcases hrest.spans with h | ⟨-, h, -⟩
    · exact h
    · rw [hspan] at h
      cases h
  have hpl : (s.prepared (sentAs con) buf).peer.lNode = (link.con x).lNode := hnodes.1.trans hl
  have hpr : (s.prepared (sentAs con) buf).peer.rNode = (link.con x).rNode := hnodes.2.trans hr
  have hfresh : (t.spanTable j).rxSeq - (s.spanTable i).txSeq ≥ seqDuplWindowSize :=
    hrest.hears.resolve_left (by simp [htogether.state'])
  have hsync : Synchronised (s.prepared (sentAs con) buf) t (link.con !x) i j := by
    refine synchronised_of_sides hprepared hother hpl hpr husable hfresh (.inl ?_)
    exact ⟨htogether.state, htogether.state', htogether.d, hrest.class_eq.trans hclass⟩
  have hsent := sent_sendMsgStateEnter (link.env x) (link.accepts x) hprepared.ungrouped
    (by rw [hpr]; exact link.isNode x) hsync.sender
  have hhanded := handed_of_sent hsent hprepared
  have haccepted : (s.prepared (sentAs con) buf).nAccepted = s.nAccepted + 1 :=
    congrArg View.nAccepted (view_prepared (sentAs con) buf)
  exact .sending _ _ ⟨hhanded.side, hhanded.transmitted, hhanded.accepted.trans haccepted⟩ _
    (sending_of_sent hsent hprepared hbuf hsync husable (fun _ => hclass) hrest.hears' hrest.notWaiting')

include hready

omit hother in
theorem getting_of_resting (hbuf : buf.length ≠ 0) :
    Launched link x i j s (((s.asking (sentAs con) buf).sendNonceGet (link.env x) id).log
      (.setTimeout sendDataTimeout)) t := by
  have hnodes := nodes_sentAs con
  have hasking : Side link x i (s.asking (sentAs con) buf).view s.fsm :=
    side_prepared hside (sentAs con) buf
  have hcount : (s.asking (sentAs con) buf).nAccepted = s.nAccepted + 1 :=
    congrArg View.nAccepted (view_prepared (s := s) (sentAs con) buf)
  have hslot := hasking.usable_slot (hnodes.1.trans hl) (hnodes.2.trans hr)
  obtain ⟨hview, hfsm⟩ := view_sendNonceGet (link.env x) (link.accepts x) hslot
  generalize (s.asking (sentAs con) buf).sendNonceGet (link.env x) id = s' at *
  have hlog : (s'.log (.setTimeout sendDataTimeout)).view = s'.view := view_log rfl rfl
  have hlogFsm : (s'.log (.setTimeout sendDataTimeout)).fsm = .waitNonceRaport := hfsm
  have hspan : s'.view.spanTable i = Span.sent (s.spanTable i) := by
    have htable : s'.view.spanTable = update s.spanTable i (Span.sent (s.spanTable i)) :=
      congrArg View.spanTable hview
    rw [htable, update_self]
  have hpeer : s'.view.peer = sentAs con := congrArg View.peer hview
  have hlength : s'.view.length = buf.length := congrArg View.length hview
  have hhanded : Handed link x i s (s'.log (.setTimeout sendDataTimeout)) (sentAs con)
      [commandClassSecurity2, security2NonceGet, (s.spanTable i).txSeq] 1 := by
    refine ⟨?_, ?_, ?_⟩
    · rw [hlog, hview, hlogFsm]
      refine hasking.update ?_ ?_ ?_ (by simp)
      · rfl
      · rfl
      · exact state_ne_notUsed hside.entry
    · exact (congrArg View.transmitted hlog).trans (congrArg View.transmitted hview)
    · exact (congrArg View.nAccepted hlog).trans ((congrArg View.nAccepted hview).trans hcount)
  refine .getting _ _ hhanded ?_
  rw [hlog, hlogFsm]
  refine ⟨⟨rfl, ?_, ?_, ?_, ?_⟩, ⟨hrest.notWaiting', ?_, ?_⟩, ⟨_, rfl, hrest.hears, ?_⟩, ?_⟩
  · rw [hpeer]
    exact hnodes.1.trans hl
  · rw [hpeer]
    exact hnodes.2.trans hr
  · rw [hpeer]
    exact husable
  · rw [hlength]
    exact hbuf
  · rw [show t.view.spanTable j = t.spanTable j from rfl, hrest.class_eq]
    exact hrest.known
  · rw [hpeer]
    exact hready.imp_right hrest.class_eq.trans
  · rw [hspan]
    rfl
  · rw [hspan]
    exact hrest.hears'

theorem launched_sendData (buf : Bytes) : s.sendData (link.env x) id con buf = s ∨
      Launched link x i j s (s.sendData (link.env x) id con buf) t := by
  by_cases hrefused : buf.length = 0 ∨ buf.length > 1280 ∨ s.isSendDataBusy = true
  · exact .inl (sendData_of_refused (link.env x) hrefused)
  · obtain ⟨hempty, hlong, hbusy⟩ : buf.length ≠ 0 ∧ ¬buf.length > 1280 ∧ ¬s.isSendDataBusy = true := by
      simpa only [not_or] using hrefused
    have hidle : s.fsm = .idle := by
      have hnoMos := hside.noMos
      simpa [isSendDataBusy, hnoMos] using hbusy
    have hbuf : ¬(buf.length = 0 ∨ buf.length > 1280) := by simp [hempty, hlong]
    rw [sendData_of_accepted (link.env x) hidle hbuf (hside.usable_slot hl hr)]
    by_cases hspan : ((s.spanTable i).state.usable && (s.spanTable i).classId == (sentAs con).classId) = true
    · rw [if_pos hspan]
      obtain ⟨husableSpan, hclass⟩ : (s.spanTable i).state.usable = true ∧
          (s.spanTable i).classId = (sentAs con).classId := by
        simpa using hspan
      exact .inr (sending_of_resting hside hother hrest hl hr husable hempty husableSpan hclass)
    · rw [if_neg hspan]
      exact .inr (getting_of_resting hside hrest hl hr husable hready hempty)

end Send

theorem length_nonceReport (seq : UInt8) (entropy : Block) : (nonceReport seq entropy).length = 20 := by
  simp [nonceReport]

theorem Getting.answered {frame : Bytes} (h : Getting link x i j s.view t.view s.fsm t.fsm frame)
    (hother : Side link (!x) j t.view t.fsm) (rest : Mem) :
    ∃ report, Handed link (!x) j t (t.applicationCommandHandler (link.env !x) id (link.con !x)
        (rest.write 0 frame) frame.length) (link.con !x) report 0 ∧
      Reporting link x i j s.view (t.applicationCommandHandler (link.env !x) id (link.con !x)
          (rest.write 0 frame) frame.length).view s.fsm
        (t.applicationCommandHandler (link.env !x) id (link.con !x) (rest.write 0 frame) frame.length).fsm report := by
  obtain ⟨seq, rfl, hhears, hseq⟩ := h.frame_eq
  obtain ⟨hview, hfsm⟩ := view_nonceGet (link.env !x) (link.singlecast !x) hother.entry
    (Mem.slice_write_self rest 0 [commandClassSecurity2, security2NonceGet, seq]) hhears
  rw [show [commandClassSecurity2, security2NonceGet, seq].length = 3 from rfl]
  generalize t.applicationCommandHandler (link.env !x) id (link.con !x)
    (rest.write 0 [commandClassSecurity2, security2NonceGet, seq]) 3 = t' at *
  have hspan : t'.view.spanTable j = spanReporting (t.spanTable j) seq ((link.env !x).random t.nRandom) := by
    have htable := congrArg View.spanTable hview
    dsimp only at htable
    rw [htable, update_self]
  refine ⟨_, ⟨?_, congrArg View.transmitted hview, congrArg View.nAccepted hview⟩,
    h.waiting, ⟨?_, ?_, ?_⟩, ?_, ⟨(t.spanTable j).txSeq, ?_, h.hears', ?_⟩, ?_⟩
  · rw [hview, hfsm]
    refine hother.update ?_ ?_ ?_ hother.noMos
    · rfl
    · rfl
    · simp [spanReporting]
  · rw [hfsm]
    exact h.ready.notWaiting
  · rw [hspan]
    exact h.ready.known
  · rw [hspan, hfsm]
    exact h.ready.search
  · rw [hspan]
    rfl
  · rw [hspan]
    rfl
  · rw [hspan]
    rfl
  · rw [hspan, hseq]
    exact hears_succ (spanReporting (t.spanTable j) seq ((link.env !x).random t.nRandom))

theorem Reporting.answered {frame : Bytes} (h : Reporting link x i j s.view t.view s.fsm t.fsm frame)
    (hside : Side link x i s.view s.fsm) (hother : Side link (!x) j t.view t.fsm) (rest : Mem) :
    ∃ p con encapsulation, Handed link x i s (s.applicationCommandHandler (link.env x) id
        (link.con x) (rest.write 0 frame) frame.length) con encapsulation 0 ∧
      Sending link x i j (s.applicationCommandHandler (link.env x) id (link.con x)
          (rest.write 0 frame) frame.length).view t.view
        (s.applicationCommandHandler (link.env x) id (link.con x) (rest.write 0 frame)
          frame.length).fsm t.fsm p con encapsulation := by
  obtain ⟨seq, hframe, hhears, hseq⟩ := h.frame_eq
  have hslice : (rest.write 0 frame).slice 0 20 = nonceReport seq (t.spanTable j).d.rNonce := by
    rw [← length_nonceReport seq (t.spanTable j).d.rNonce, hframe]
    exact Mem.slice_write_self rest 0 _
  have hlen : frame.length = 20 := by
    rw [hframe]
    exact length_nonceReport seq _
  have hpl : (link.con x).lNode = s.peer.lNode := h.waiting.lNode.symm
  have hpr : (link.con x).rNode = s.peer.rNode := h.waiting.rNode.symm
  have hslot := hside.usable_slot hpl.symm hpr.symm
  rw [hlen, gotNonceRaport_eq (link.env x) h.waiting.fsm_eq hpl hpr hslot hslice hhears]
  have hspan : (s.registered i seq (t.spanTable j).d.rNonce).spanTable i =
      spanReported (s.spanTable i) seq (t.spanTable j).d.rNonce := by
    simp [registered]
  have hregistered : Side link x i (s.registered i seq (t.spanTable j).d.rNonce).view s.fsm := by
    refine hside.update ?_ ?_ ?_ hside.noMos
    · rfl
    · rfl
    · simp [spanReported]
  have hkept : (s.registered i seq (t.spanTable j).d.rNonce).peer = s.peer ∧
      (s.registered i seq (t.spanTable j).d.rNonce).length = s.length ∧
      (s.registered i seq (t.spanTable j).d.rNonce).transmitted = s.transmitted ∧
      (s.registered i seq (t.spanTable j).d.rNonce).nAccepted = s.nAccepted :=
    ⟨rfl, rfl, rfl, rfl⟩
  generalize s.registered i seq (t.spanTable j).d.rNonce = p at *
  obtain ⟨hpeer, hlength, htransmitted, haccepted⟩ := hkept
  have husable : Usable link p.peer.classId := by
    rw [hpeer]
    exact h.waiting.usable
  have hfresh : (t.spanTable j).rxSeq - (p.spanTable i).txSeq ≥ seqDuplWindowSize := by
    rw [hspan]
    refine h.hears.resolve_left ?_
    rw [h.state]
    simp
  have hspans : SpansMeet p t i j := by
    refine .inr ⟨?_, h.state, ?_, h.ready.known, husable.known, ?_⟩
    · rw [hspan]
      rfl
    · rw [hspan]
      rfl
    · rw [hpeer]
      exact h.ready.search
  have hsync := synchronised_of_sides hregistered hother (by rw [hpeer, hpl]) (by rw [hpeer, hpr]) husable hfresh hspans
  have hsent := sent_sendMsgStateEnter (link.env x) (link.accepts x) hregistered.ungrouped
    (by rw [hpeer, ← hpr]; exact link.isNode x) hsync.sender
  have hhanded := handed_of_sent hsent hregistered
  refine ⟨_, _, _, ⟨hhanded.side, ?_, ?_⟩, sending_of_sent hsent hregistered ?_ hsync husable ?_ ?_ h.ready.notWaiting⟩
  · rw [hhanded.transmitted, htransmitted]
  · rw [hhanded.accepted, haccepted]
  · rw [hlength]
    exact h.waiting.length
  · intro hnegotiated
    rw [hspan] at hnegotiated
    cases hnegotiated
  · rw [hspan, show (t.spanTable j).txSeq = seq + 1 from hseq]
    exact hears_succ (spanReported (s.spanTable i) seq (t.spanTable j).d.rNonce)

theorem class_of_key (link : Link) {k classId : UInt8} (hk : link.loadedKeys.toNat.testBit k.toNat = true)
    (hclass : link.loadedKeys.toNat.testBit classId.toNat = true)
    (hkey : (link.sg k).encKey = (link.sg classId).encKey) : k = classId := by
  apply link.ideal true k classId Block.zero Block.zero [] [0] hk hclass
  obtain ⟨rest, hdecrypt⟩ := (link.ccm true).decrypt (link.sg k).encKey Block.zero [] [0]
  rw [← hkey, hdecrypt]
  simp

theorem Sending.opensOnlyOwn {p : S2} (hsg : p.sg = link.sg)
    (husable : Usable link p.peer.classId) (hother : Side link (!x) j t.view t.fsm) :
    OpensOnlyOwn (link.env x) (link.env !x) p t i := by
  intro generator hgenerator k hloaded hauth
  have hciphers := link.ciphers x
  have hkey : (p.draft (link.env x) i).key = (link.sg p.peer.classId).encKey := by
    rw [← hsg]
    rfl
  have htsg : t.sg = link.sg := hother.sg
  rw [hciphers.ccmDecryptAndAuth, Draft.ciphertext, hkey, htsg] at hauth
  unfold classLoaded at hloaded
  rw [show t.loadedKeys = link.loadedKeys from hother.loadedKeys] at hloaded
  have hk := link.ideal x k p.peer.classId _ _ _ _ hloaded husable.loaded hauth
  rw [hk, hkey, htsg, hgenerator, hciphers.nextNonceGenerate]
  exact ⟨rfl, rfl⟩

/-- A message was opened under its class and the ends are together; the receiver may be about to answer. -/
structure Joined (link : Link) (x : Bool) (i j : SpanRef) (s t t' : S2) (con : Connection)
    (d : Decrypted) (after : S2) : Prop where
  rc : d.rc = .authOk
  class_eq : d.con.classId = con.classId
  side : Side link (!x) j t'.view t'.fsm
  transmitted : t'.transmitted = t.transmitted
  accepted : t'.nAccepted = t.nAccepted
  rest : ∀ started, Resting (s.spanTable i) (t'.spanTable j) s.fsm t'.fsm started
  answer : after = t' ∨ ∃ answer buf, after = t'.sendData (link.env !x) id answer buf ∧
    answer.lNode = (link.con !x).lNode ∧ answer.rNode = (link.con !x).rNode ∧
    Usable link (sentAs answer).classId ∧ (t'.spanTable j).classId = (sentAs answer).classId

theorem Sending.joined {p : S2} {con : Connection} {frame : Bytes}
    (h : Sending link x i j s.view t.view s.fsm t.fsm p con frame)
    (hother : Side link (!x) j t.view t.fsm) (rest : Mem) :
    rest.write 0 frame 1 = security2MessageEncapsulation ∧ ∃ t', Joined link x i j s t t' con
        (t.decryptMsg (link.env !x) (link.con !x) (rest.write 0 frame) frame.length)
        (t.applicationCommandHandler (link.env !x) id (link.con !x) (rest.write 0 frame) frame.length) := by
  have hsync := h.sync t rfl rfl
  have hmsg := Mem.slice_write_self rest 0 (p.encrypt (link.env x)).1
  have harrives := arrives_encrypt (link.ccm x) hsync.sender hmsg
  have hpeer : p.peer.rNode ≠ 0 := by
    rw [← hsync.lNode, link.mirrored x]
    exact link.isNode x
  obtain ⟨generator, classId, hreceived, hgenerator, hloaded, hkey⟩ := hsync.received
    (link.ciphers x) harrives (Sending.opensOnlyOwn h.sg h.usable hother) h.ungrouped hpeer h.length
  have hheader := harrives.hasHeader
  have hcommand : rest.write 0 (p.encrypt (link.env x)).1 0 = commandClassSecurity2 ∧
      rest.write 0 (p.encrypt (link.env x)).1 1 = security2MessageEncapsulation :=
    ⟨hheader.byte rfl, hheader.byte rfl⟩
  rw [h.frame_eq]
  refine ⟨hcommand.2, ?_⟩
  generalize rest.write 0 (p.encrypt (link.env x)).1 = msg at *
  generalize (p.encrypt (link.env x)).1.length = len at *
  have hclass : classId = p.peer.classId := by
    refine class_of_key link ?_ h.usable.loaded ?_
    · rw [← show t.loadedKeys = link.loadedKeys from hother.loadedKeys]
      exact hloaded
    · rw [← show t.sg = link.sg from hother.sg, hkey, show t.sg = link.sg from hother.sg, ← h.sg]
      rfl
  rw [hclass] at hreceived
  obtain ⟨t', buf, length, hview, hafter, hresult⟩ := applicationCommandHandler_opened (link.env !x)
    hcommand hreceived.rc (by rw [hreceived.con_eq]; exact link.singlecast !x)
    (by
      have hmpan : (t.decryptMsg (link.env !x) (link.con !x) msg len).s.mpan = none :=
        (congrArg View.mpan hreceived.view).trans hother.mpan
      have hmosList : (t.decryptMsg (link.env !x) (link.con !x) msg len).s.mosList = t.mosList :=
        congrArg View.mosList hreceived.view
      refine ⟨hmpan, ?_⟩
      rw [hmosList]
      exact hother.mosList)
    (by rw [hreceived.con_eq]; exact link.isNode !x)
  rw [hreceived.view] at hview
  rw [hreceived.fsm] at hafter
  have hspan : t'.spanTable j = { t.spanTable j with
      rxSeq := (p.spanTable i).txSeq, state := .negotiated, classId := p.peer.classId
      d := ((link.env !x).nextNonceGenerate (generator p.peer.classId)).2 } := by
    have htable := congrArg View.spanTable hview
    dsimp only at htable
    rw [show t'.spanTable = t'.view.spanTable from rfl, htable, update_self]
  have hd : (s.spanTable i).d = ((link.env x).nextNonceGenerate (p.spanUsed (link.env x) i).d).2 := by
    rw [show s.spanTable i = p.spanSent (link.env x) i from h.span]
    rfl
  have hseq : (s.spanTable i).txSeq = (p.spanTable i).txSeq + 1 := by
    rw [show s.spanTable i = p.spanSent (link.env x) i from h.span, spanSent, spanUsed]
    split <;> rfl
  refine ⟨t', hreceived.rc, ?_, ?_, congrArg View.transmitted hview, congrArg View.nAccepted hview,
    fun _ => ⟨?_, ?_, ?_, ?_, h.notWaiting, hafter.ne h.notWaiting' (by simp), .inl ⟨h.state, ?_, ?_⟩⟩, ?_⟩
  · rw [hreceived.con_eq, h.con_eq]
  · rw [hview]
    refine hother.update ?_ ?_ ?_ (hafter.ne hother.noMos (by simp))
    · rfl
    · rfl
    · simp
  · have hrx : (t'.spanTable j).rxSeq = (p.spanTable i).txSeq := by rw [hspan]
    rw [hseq, ← hrx]
    exact hears_succ (t'.spanTable j)
  · rw [hspan]
    exact h.hears'
  · rw [hspan]
    exact h.class_eq.symm
  · rw [show (s.spanTable i).classId = p.peer.classId from h.class_eq]
    exact h.usable.known
  · rw [hspan]
  · rw [hspan, hd, hgenerator, (link.ciphers x).nextNonceGenerate]
  · refine hresult.imp_right ?_
    rintro ⟨answer, -, hanswer⟩
    refine ⟨_, answer, hanswer, ?_⟩
    rw [hreceived.con_eq, hspan]
    refine ⟨rfl, rfl, ?_, (h.usable.stable !x).symm⟩
    rw [h.usable.stable !x]
    exact h.usable

end Steps

/-! ## Steps of the net -/

def Settled (fsm fsm' : FsmState) : Prop :=
  fsm' = fsm ∨ fsm ≠ .waitNonceRaport ∧ fsm' = .idle

theorem Settled.ne {fsm fsm' other : FsmState} (h : Settled fsm fsm') (hne : fsm ≠ other)
    (hidle : .idle ≠ other) : fsm' ≠ other := by
  rcases h with h | ⟨-, h⟩
  · rw [h]
    exact hne
  · rw [h]
    exact hidle

theorem Settled.waiting {fsm fsm' : FsmState} (h : Settled fsm fsm')
    (hwait : fsm = .waitNonceRaport) : fsm' = .waitNonceRaport := by
  rcases h with h | ⟨hne, -⟩
  · rw [h, hwait]
  · exact absurd hwait hne

theorem Settled.same_or_idle {fsm fsm' : FsmState} (h : Settled fsm fsm') : fsm' = fsm ∨ fsm' = .idle :=
  h.imp_right And.right

section Settle

variable {link : Link} {x : Bool} {i j : SpanRef} {v w : View} {f f' g g' : FsmState}

theorem Resting.symm {span span' : Span} {started : Prop} (h : Resting span span' f g started) :
    Resting span' span g f started := by
  refine ⟨h.hears', h.hears, h.class_eq.symm, ?_, h.notWaiting', h.notWaiting, ?_⟩
  · rw [h.class_eq]
    exact h.known
  · rcases h.spans with htogether | ⟨hstarted, hspan, hspan'⟩
    · exact .inl ⟨htogether.state', htogether.state, htogether.d.symm⟩
    · exact .inr ⟨hstarted, hspan', hspan⟩

theorem Resting.settle {span span' : Span} {started : Prop} (h : Resting span span' f g started)
    (hf : Settled f f') (hg : Settled g g') : Resting span span' f' g' started :=
  ⟨h.hears, h.hears', h.class_eq, h.known, hf.ne h.notWaiting (by simp), hg.ne h.notWaiting' (by simp), h.spans⟩

theorem Waiting.settle (h : Waiting link x v f) (hf : Settled f f') : Waiting link x v f' :=
  ⟨hf.waiting h.fsm_eq, h.lNode, h.rNode, h.usable, h.length⟩

theorem Ready.settle {span : Span} {classId : UInt8} (h : Ready span g classId)
    (hg : Settled g g') : Ready span g' classId := by
  refine ⟨hg.ne h.notWaiting (by simp), h.known, ?_⟩
  rcases hg with hsame | ⟨-, hidle⟩
  · rw [hsame]
    exact h.search
  · exact .inl hidle

theorem Getting.settle {frame : Bytes} (h : Getting link x i j v w f g frame) (hf : Settled f f')
    (hg : Settled g g') : Getting link x i j v w f' g' frame :=
  ⟨h.waiting.settle hf, h.ready.settle hg, h.frame_eq, h.hears'⟩

theorem Reporting.settle {frame : Bytes} (h : Reporting link x i j v w f g frame)
    (hf : Settled f f') (hg : Settled g g') : Reporting link x i j v w f' g' frame :=
  ⟨h.waiting.settle hf, h.ready.settle hg, h.state, h.frame_eq, h.hears⟩

theorem Sending.settle {p : S2} {con : Connection} {frame : Bytes}
    (h : Sending link x i j v w f g p con frame) (hf : Settled f f') (hg : Settled g g') :
    Sending link x i j v w f' g' p con frame := by
  refine ⟨h.con_eq, h.frame_eq, ?_, h.ungrouped, h.length, h.sg, h.usable, h.span, h.state,
    h.class_eq, h.hears', hf.ne h.notWaiting (by simp), hg.ne h.notWaiting' (by simp)⟩
  intro t hview hfsm
  have hsync := h.sync { t with fsm := g } hview rfl
  refine hsync.of_view rfl rfl ?_
  rw [hfsm]
  exact hg.same_or_idle

end Settle

section Step

variable {link : Link} {e : Bool → SpanRef} {n n' : Net}

theorem accepted_put (n : Net) (x : Bool) (s : S2) :
    (n.put x s).accepted + (n.node x).nAccepted = n.accepted + s.nAccepted := by
  cases x with
  | false =>
    simp only [accepted, put, update_self, ne_eq, Bool.true_eq_false, not_false_eq_true, update_of_ne]
    omega
  | true =>
    simp only [accepted, put, update_self, ne_eq, Bool.false_eq_true, not_false_eq_true, update_of_ne]
    omega

structure SettledNet (n n' : Net) : Prop where
  view : ∀ x, (n'.node x).view = (n.node x).view
  fsm : ∀ x, Settled (n.node x).fsm (n'.node x).fsm
  delivered : n'.delivered = n.delivered
  opened : n'.opened = n.opened

theorem settledNet_put {x : Bool} {s : S2} (hview : s.view = (n.node x).view)
    (hfsm : Settled (n.node x).fsm s.fsm) : SettledNet n (n.put x s) := by
  refine ⟨forall_side x ?_ ?_, forall_side x ?_ ?_, rfl, rfl⟩
  · rw [node_put_self]
    exact hview
  · rw [node_put_other]
  · rw [node_put_self]
    exact hfsm
  · rw [node_put_other]
    exact .inl rfl

theorem SettledNet.underWay (h : SettledNet n n') {x : Bool} {con : Connection} {frame : Bytes}
    (hway : n.UnderWay x con frame) : n'.UnderWay x con frame := by
  have htransmitted : ∀ y, (n'.node y).transmitted = (n.node y).transmitted :=
    fun y => congrArg View.transmitted (h.view y)
  refine ⟨?_, ?_⟩
  · rw [htransmitted, h.delivered]
    exact hway.sent
  · rw [htransmitted, h.delivered]
    exact hway.other

theorem SettledNet.phase (h : SettledNet n n') {started : Prop} {pending : Nat}
    (hphase : Phase link e n started pending) : Phase link e n' started pending := by
  cases hphase with
  | resting hquiet hrest =>
    refine .resting ?_ ?_
    · intro x
      rw [h.delivered, hquiet x]
      exact congrArg (fun v : View => v.transmitted.length) (h.view x).symm
    · intro x
      have hspan : ∀ y, n'.span e y = n.span e y :=
        fun y => congrArg (fun v : View => v.spanTable (e y)) (h.view y)
      rw [hspan, hspan]
      exact (hrest x).settle (h.fsm x) (h.fsm !x)
  | getting x con frame hway hget =>
    refine .getting x con frame (h.underWay hway) ?_
    rw [h.view, h.view]
    exact hget.settle (h.fsm x) (h.fsm !x)
  | reporting x con frame hway hreport =>
    refine .reporting x con frame (h.underWay hway) ?_
    rw [h.view, h.view]
    exact hreport.settle (h.fsm x) (h.fsm !x)
  | sending x s con frame hway hsending =>
    refine .sending x s con frame (h.underWay hway) ?_
    rw [h.view, h.view]
    exact hsending.settle (h.fsm x) (h.fsm !x)

theorem Side.settle {x : Bool} {i : SpanRef} {v : View} {f f' : FsmState}
    (h : Side link x i v f) (hf : Settled f f') : Side link x i v f' :=
  ⟨h.sg, h.loadedKeys, h.home, h.mpan, h.mosList, h.entry, hf.ne h.noMos (by simp)⟩

theorem SettledNet.inv (h : SettledNet n n') {before : Nat} {together : Prop}
    (hinv : Inv link e before together n) : Inv link e before together n' := by
  have haccepted : n'.accepted = n.accepted := by
    have hcount : ∀ x, (n'.node x).nAccepted = (n.node x).nAccepted :=
      fun x => congrArg View.nAccepted (h.view x)
    rw [accepted, hcount, hcount]
    rfl
  obtain ⟨pending, hphase, hcount⟩ := hinv.phase
  refine ⟨?_, ?_, pending, ?_, ?_⟩
  · intro x
    rw [h.view]
    exact (hinv.side x).settle (h.fsm x)
  · rw [h.opened]
    exact hinv.opened
  · rw [h.opened]
    exact h.phase hphase
  · rw [haccepted, h.opened]
    exact hcount

theorem side_put {x : Bool} {s : S2} (hs : Side link x (e x) s.view s.fsm)
    (hsides : ∀ y, Side link y (e y) (n.node y).view (n.node y).fsm) :
    ∀ y, Side link y (e y) ((n.put x s).node y).view ((n.put x s).node y).fsm := by
  refine forall_side x ?_ ?_
  · rw [node_put_self]
    exact hs
  · rw [node_put_other]
    exact hsides !x

theorem Handed.underWay {x : Bool} {con : Connection} {frame : Bytes} {k : Nat}
    (h : Handed link x (e x) (n.node x) s' con frame k) (hquiet : n.Quiet) :
    (n.put x s').UnderWay x con frame := by
  refine ⟨⟨(n.node x).transmitted, ?_, hquiet x⟩, ?_⟩
  · rw [node_put_self]
    exact h.transmitted
  · rw [node_put_other]
    exact hquiet !x

theorem inv_put_sendData {before : Nat} {together : Prop} (hquiet : n.Quiet)
    (hinv : Inv link e before together n) (x : Bool) {con : Connection} (buf : Bytes)
    (hl : con.lNode = (link.con x).lNode) (hr : con.rNode = (link.con x).rNode)
    (husable : Usable link (sentAs con).classId)
    (hready : (n.node !x).fsm = .idle ∨ (n.span e x).classId = (sentAs con).classId) :
    Inv link e before together (n.put x ((n.node x).sendData (link.env x) id con buf)) := by
  obtain ⟨pending, hphase, hcount⟩ := hinv.phase
  have hnone : ∀ {y : Bool} {c : Connection} {frame : Bytes}, ¬n.UnderWay y c frame := by
    intro y c frame hway
    have hnext := hway.next
    rw [hquiet.next] at hnext
    cases hnext
  cases hphase with
  | getting y c frame hway => exact absurd hway hnone
  | reporting y c frame hway => exact absurd hway hnone
  | sending y s c frame hway => exact absurd hway hnone
  | resting _ hrest =>
    rcases launched_sendData (hinv.side x) (hinv.side !x) (hrest x) hl hr husable hready buf with hsame | hlaunched
    · rw [hsame]
      exact (settledNet_put rfl (.inl rfl)).inv hinv
    · generalize (n.node x).sendData (link.env x) id con buf = s' at *
      have hput := accepted_put n x s'
      cases hlaunched with
      | getting c frame hhanded hget =>
        have haccepted := hhanded.accepted
        refine ⟨side_put hhanded.side hinv.side, hinv.opened, 1, .getting x c frame (hhanded.underWay hquiet) ?_, ?_⟩
        · rw [node_put_self, node_put_other]
          exact hget
        · rw [show (n.put x s').opened = n.opened from rfl]
          omega
      | sending c frame hhanded p hsending =>
        have haccepted := hhanded.accepted
        refine ⟨side_put hhanded.side hinv.side, hinv.opened, 1, .sending x p c frame (hhanded.underWay hquiet) ?_, ?_⟩
        · rw [node_put_self, node_put_other]
          exact hsending
        · rw [show (n.put x s').opened = n.opened from rfl]
          omega

def arrive (n : Net) (x : Bool) (s : S2) (opened : List (UInt8 × DecryptReturnCode × UInt8)) : Net :=
  { n.put (!x) s with
    delivered := update n.delivered x (n.delivered x + 1), opened := opened }

theorem deliver_eq {x : Bool} {con : Connection} {frame : Bytes} (hnext : n.next x = some (con, frame)) (rest : Mem) :
    n.deliver link x rest = n.arrive x ((n.node !x).applicationCommandHandler (link.env !x) id (link.con !x)
          (rest.write 0 frame) frame.length)
        (if rest.write 0 frame 1 = security2MessageEncapsulation then
          (con.classId, ((n.node !x).decryptMsg (link.env !x) (link.con !x) (rest.write 0 frame)
            frame.length).rc, ((n.node !x).decryptMsg (link.env !x) (link.con !x)
              (rest.write 0 frame) frame.length).con.classId) :: n.opened
        else n.opened) := by
  simp only [deliver, hnext]
  rfl

theorem deliver_none {x : Bool} (hnext : n.next x = none) (rest : Mem) : n.deliver link x rest = n := by
  simp only [deliver, hnext]

theorem UnderWay.delivered_eq {x : Bool} {con : Connection} {frame : Bytes}
    (h : n.UnderWay x con frame) : n.delivered x + 1 = (n.node x).transmitted.length := by
  obtain ⟨earlier, hsent, hdelivered⟩ := h.sent
  rw [hsent, hdelivered, List.length_cons]

theorem Handed.underWay_arrive {x : Bool} {con c : Connection} {frame f : Bytes} {k : Nat}
    {opened : List (UInt8 × DecryptReturnCode × UInt8)}
    (h : Handed link (!x) (e !x) (n.node !x) s' con frame k) (hway : n.UnderWay x c f) :
    (n.arrive x s' opened).UnderWay (!x) con frame := by
  have hne : (!x) ≠ x := by simp
  refine ⟨⟨(n.node !x).transmitted, ?_, ?_⟩, ?_⟩
  · rw [show (n.arrive x s' opened).node = (n.put (!x) s').node from rfl, node_put_self]
    exact h.transmitted
  · simp only [arrive, update_of_ne hne]
    exact hway.other
  · rw [Bool.not_not]
    simp only [arrive, update_self, put, update_of_ne hne.symm]
    exact hway.delivered_eq

theorem accepted_arrive (n : Net) (x : Bool) (s : S2) (opened : List (UInt8 × DecryptReturnCode × UInt8)) :
    (n.arrive x s opened).accepted + (n.node !x).nAccepted = n.accepted + s.nAccepted :=
  accepted_put n (!x) s

theorem node_arrive (n : Net) (x : Bool) (s : S2) (opened : List (UInt8 × DecryptReturnCode × UInt8)) :
    (n.arrive x s opened).node (!x) = s ∧ (n.arrive x s opened).node x = n.node x := by
  refine ⟨node_put_self n (!x) s, ?_⟩
  have hother := node_put_other n (!x) s
  rw [Bool.not_not] at hother
  exact hother

section Deliver

variable {before : Nat} {together : Prop} (hinv : Inv link e before together n) {x : Bool}
  {con : Connection} {frame : Bytes} (rest : Mem)

include hinv

theorem inv_deliver_getting (hway : n.UnderWay x con frame)
    (h : Getting link x (e x) (e !x) (n.node x).view (n.node !x).view (n.node x).fsm
      (n.node !x).fsm frame) (hcount : n.accepted = before + n.opened.length + 1) :
    Inv link e before together (n.deliver link x rest) := by
  obtain ⟨report, hhanded, hreport⟩ := h.answered (hinv.side !x) rest
  have hcommand : rest.write 0 frame 1 ≠ security2MessageEncapsulation := by
    obtain ⟨seq, rfl, -⟩ := h.frame_eq
    rw [show rest.write 0 [commandClassSecurity2, security2NonceGet, seq] 1 = security2NonceGet from
      Mem.eq_of_slice_zero (Mem.slice_write_self rest 0 _) rfl]
    decide
  rw [deliver_eq hway.next, if_neg hcommand]
  generalize (n.node !x).applicationCommandHandler (link.env !x) id (link.con !x)
    (rest.write 0 frame) frame.length = t' at *
  obtain ⟨hself, hother⟩ := node_arrive n x t' n.opened
  have haccepted := accepted_arrive n x t' n.opened
  have hcount' := hhanded.accepted
  refine ⟨side_put hhanded.side hinv.side, hinv.opened, 1, .reporting x _ report (hhanded.underWay_arrive hway) ?_, ?_⟩
  · rw [hself, hother]
    exact hreport
  · rw [show (n.arrive x t' n.opened).opened = n.opened from rfl]
    omega

theorem inv_deliver_reporting (hway : n.UnderWay x con frame)
    (h : Reporting link (!x) (e !x) (e x) (n.node !x).view (n.node x).view (n.node !x).fsm
      (n.node x).fsm frame) (hcount : n.accepted = before + n.opened.length + 1) :
    Inv link e before together (n.deliver link x rest) := by
  have hreporter := hinv.side x
  rw [← Bool.not_not x] at hreporter
  obtain ⟨p, c, encapsulation, hhanded, hsending⟩ := h.answered (hinv.side !x)
    (by simpa only [Bool.not_not] using hreporter) rest
  have hcommand : rest.write 0 frame 1 ≠ security2MessageEncapsulation := by
    obtain ⟨seq, rfl, -⟩ := h.frame_eq
    rw [show rest.write 0 (nonceReport seq _) 1 = security2NonceReport from
      Mem.eq_of_slice_zero (Mem.slice_write_self rest 0 _) rfl]
    decide
  rw [deliver_eq hway.next, if_neg hcommand]
  generalize (n.node !x).applicationCommandHandler (link.env !x) id (link.con !x)
    (rest.write 0 frame) frame.length = s' at *
  obtain ⟨hself, hother⟩ := node_arrive n x s' n.opened
  have haccepted := accepted_arrive n x s' n.opened
  have hcount' := hhanded.accepted
  refine ⟨side_put hhanded.side hinv.side, hinv.opened, 1,
    .sending (!x) p c encapsulation (hhanded.underWay_arrive hway) ?_, ?_⟩
  · rw [Bool.not_not, hself, hother]
    exact hsending
  · rw [show (n.arrive x s' n.opened).opened = n.opened from rfl]
    omega

theorem inv_deliver_sending {s : S2} (hway : n.UnderWay x con frame)
    (h : Sending link x (e x) (e !x) (n.node x).view (n.node !x).view (n.node x).fsm
      (n.node !x).fsm s con frame) (hcount : n.accepted = before + n.opened.length + 1) :
    Inv link e before together (n.deliver link x rest) := by
  obtain ⟨hcommand, t', hjoined⟩ := h.joined (hinv.side !x) rest
  rw [deliver_eq hway.next, if_pos hcommand]
  generalize (n.node !x).decryptMsg (link.env !x) (link.con !x) (rest.write 0 frame) frame.length = d at *
  generalize (n.node !x).applicationCommandHandler (link.env !x) id (link.con !x)
    (rest.write 0 frame) frame.length = after at *
  generalize hopened : (con.classId, d.rc, d.con.classId) :: n.opened = opened
  obtain ⟨hself, hother⟩ := node_arrive n x t' opened
  have hquiet : (n.arrive x t' opened).Quiet := by
    refine forall_side x ?_ ?_
    · rw [hother]
      simp only [arrive, update_self]
      exact hway.delivered_eq
    · rw [hself, hjoined.transmitted]
      simp only [arrive]
      rw [update_of_ne (by simp)]
      exact hway.other
  have hrest : ∀ y, Resting ((n.arrive x t' opened).span e y) ((n.arrive x t' opened).span e !y)
      ((n.arrive x t' opened).node y).fsm ((n.arrive x t' opened).node !y).fsm
      (together ∨ opened ≠ []) := by
    refine forall_side x ?_ ?_
    · rw [span, span, hself, hother]
      exact hjoined.rest _
    · rw [span, span, Bool.not_not, hself, hother]
      exact (hjoined.rest _).symm
  have hafter : Inv link e before together (n.arrive x t' opened) := by
    have haccepted := accepted_arrive n x t' opened
    have hcount' := hjoined.accepted
    refine ⟨side_put hjoined.side hinv.side, ?_, 0, .resting hquiet hrest, ?_⟩
    · rw [show (n.arrive x t' opened).opened = opened from rfl, ← hopened]
      intro m hm
      rcases List.mem_cons.mp hm with rfl | hm
      · exact ⟨hjoined.rc, hjoined.class_eq⟩
      · exact hinv.opened m hm
    · rw [show (n.arrive x t' opened).opened = opened from rfl, ← hopened, List.length_cons]
      rw [hopened]
      omega
  rcases hjoined.answer with hsame | ⟨answer, buf, hanswer, hl, hr, husable, hclass⟩
  · rw [hsame]
    exact hafter
  · have hspan : (n.arrive x t' opened).span e (!x) = t'.spanTable (e !x) := by
      rw [span, hself]
    have hsend := inv_put_sendData hquiet hafter (!x) buf hl hr husable (.inr (by rw [hspan]; exact hclass))
    rw [hself, ← hanswer] at hsend
    have hput : (n.arrive x t' opened).put (!x) after = n.arrive x after opened := by
      simp only [put, arrive, Function.update_idem]
    rw [hput] at hsend
    exact hsend

end Deliver

theorem inv_deliver {before : Nat} {together : Prop} (hinv : Inv link e before together n)
    (x : Bool) (rest : Mem) : Inv link e before together (n.deliver link x rest) := by
  obtain ⟨pending, hphase, hcount⟩ := hinv.phase
  cases hphase with
  | resting hquiet _ =>
    rw [deliver_none (hquiet.next x)]
    exact hinv
  | getting y con frame hway h =>
    by_cases hx : x = y
    · rw [hx]
      exact inv_deliver_getting hinv rest hway h hcount
    · rw [Bool.eq_not_iff.mpr hx, deliver_none hway.next_other]
      exact hinv
  | reporting y con frame hway h =>
    by_cases hx : x = y
    · have hnext := hway.next_other
      rw [Bool.not_not] at hnext
      rw [hx, deliver_none hnext]
      exact hinv
    · rw [Bool.eq_not_iff.mpr hx]
      refine inv_deliver_reporting hinv rest hway ?_ hcount
      rw [Bool.not_not]
      exact h
  | sending y s con frame hway h =>
    by_cases hx : x = y
    · rw [hx]
      exact inv_deliver_sending hinv rest hway h hcount
    · rw [Bool.eq_not_iff.mpr hx, deliver_none hway.next_other]
      exact hinv

theorem inv_step {before : Nat} {together : Prop} (event : Event)
    (hok : OneAtATime link n event) (hinv : Inv link e before together n) :
    Inv link e before together (n.step link event) := by
  cases event with
  | send x con buf =>
    obtain ⟨⟨hquiet, hl, hr, husable⟩, hready⟩ := hok
    refine inv_put_sendData hquiet hinv x buf hl hr husable (hready.imp_right ?_)
    intro hclass
    exact hclass (e x) ((hinv.side x).usable_slot hl hr)
  | deliver x rest => exact inv_deliver hinv x rest
  | done x time =>
    obtain ⟨hview, hfsm⟩ := view_sendFrameDone (n.node x) time
    refine (settledNet_put hview ?_).inv hinv
    refine hfsm.imp_right ?_
    rintro ⟨hsending, hidle⟩
    exact ⟨by simp [hsending], hidle⟩
  | timeout x =>
    obtain ⟨hview, hfsm⟩ := view_timeout (link.env x) hok.1 (hinv.side x).noMos
    refine (settledNet_put hview ?_).inv hinv
    refine hfsm.imp_right ?_
    rintro ⟨hverifying, hidle⟩
    exact ⟨by simp [hverifying], hidle⟩

end Step

/-! ## Runs -/

def InLockStep (link : Link) (n : Net) : Prop :=
  ∃ e : Bool → SpanRef, (∀ x, slot (n.node x).spanTable (link.con x) = some (e x)) ∧
    (∀ x, (n.span e x).state = .negotiated) ∧
    (n.span e false).d = (n.span e true).d ∧ (n.span e false).classId = (n.span e true).classId

/-- Two nodes that know each other: they are in lock-step, or have not negotiated so far. -/
structure Linked (link : Link) (e : Bool → SpanRef) (n : Net) : Prop where
  side : ∀ x, Side link x (e x) (n.node x).view (n.node x).fsm
  rest : ∀ x, Resting (n.span e x) (n.span e !x) (n.node x).fsm (n.node !x).fsm False
  quiet : n.Quiet
  opened : n.opened = []

section Run

variable {link : Link} {e : Bool → SpanRef} {n : Net}

theorem InLockStep.together {started : Prop} {x : Bool} (h : InLockStep link n)
    (hside : ∀ x, Side link x (e x) (n.node x).view (n.node x).fsm)
    (hrest : Resting (n.span e x) (n.span e !x) (n.node x).fsm (n.node !x).fsm started) :
    Together (n.span e x) (n.span e !x) := by
  obtain ⟨e', hslot, hstate, -⟩ := h
  have he : e' x = e x := Option.some.inj ((hslot x).symm.trans (hside x).entry)
  have hnegotiated := hstate x
  rw [span, he] at hnegotiated
  refine hrest.spans.resolve_right ?_
  rintro ⟨-, hunusable, -⟩
  rw [span, hnegotiated] at hunusable
  cases hunusable

theorem Linked.inv (h : Linked link e n) : Inv link e n.accepted (InLockStep link n) n := by
  refine ⟨h.side, ?_, 0, .resting h.quiet ?_, ?_⟩
  · rw [h.opened]
    simp
  · intro x
    have hrest := h.rest x
    refine ⟨hrest.hears, hrest.hears', hrest.class_eq, hrest.known, hrest.notWaiting, hrest.notWaiting', ?_⟩
    by_cases hlock : InLockStep link n
    · exact .inl (hlock.together h.side hrest)
    · refine hrest.spans.imp_right ?_
      rintro ⟨-, hspans⟩
      refine ⟨?_, hspans⟩
      simp [hlock, h.opened]
  · rw [h.opened]
    rfl

theorem inLockStep_of_resting {started : Prop} (hstarted : started)
    (hside : ∀ x, Side link x (e x) (n.node x).view (n.node x).fsm)
    (hrest : Resting (n.span e false) (n.span e !false) (n.node false).fsm (n.node !false).fsm
      started) : InLockStep link n := by
  have htogether : Together (n.span e false) (n.span e true) :=
    hrest.spans.resolve_right fun h => h.1 hstarted
  refine ⟨e, fun x => (hside x).entry, ?_, htogether.d.symm, hrest.class_eq.symm⟩
  intro x
  cases x with
  | false => exact htogether.state
  | true => exact htogether.state'

/-- However many messages go in whichever direction, every one of them is opened under its class, and
when nothing is under way the two ends are in lock-step, from the first message on at the latest. -/
theorem spans_inLockStep (h : Linked link e n) {events : List Event}
    (hok : Machine.Admissible (step link) (OneAtATime link) n events) :
    let n' := Machine.run (step link) n events
    (∀ m ∈ n'.opened, m.2.1 = .authOk ∧ m.2.2 = m.1) ∧ (n'.Quiet → n'.accepted = n.accepted + n'.opened.length ∧
        (InLockStep link n ∨ n'.opened ≠ [] → InLockStep link n')) := by
  intro n'
  have hinv : Inv link e n.accepted (InLockStep link n) n' :=
    Machine.run_invariant_of_admissible (fun _ event => inv_step event) hok h.inv
  refine ⟨hinv.opened, ?_⟩
  intro hquiet
  obtain ⟨pending, hphase, hcount⟩ := hinv.phase
  cases hphase with
  | resting _ hrest =>
    refine ⟨hcount, ?_⟩
    intro hstarted
    exact inLockStep_of_resting hstarted hinv.side (hrest false)
  | getting y c frame hway => exact absurd (hquiet.next y) (by rw [hway.next]; simp)
  | reporting y c frame hway => exact absurd (hquiet.next !y) (by rw [hway.next]; simp)
  | sending y s c frame hway => exact absurd (hquiet.next y) (by rw [hway.next]; simp)

end Run

def keyedEnv (offset : Nat) : Env :=
  { sampleEnv with
    ccmEncryptAndAuth := fun key _ _ text => text ++ List.replicate 8 (key.toList.headD 0)
    ccmDecryptAndAuth := fun key _ _ text =>
      if text.drop (text.length - 8) = List.replicate 8 (key.toList.headD 0) then (text.length - 8, text)
      else (0, text)
    nextNonceGenerate := fun d => (d.rNonce, { d with rNonce := d.rNonce.map (· + 1) })
    random := fun n => Vector.replicate 16 (UInt8.ofNat (n + offset)) }

def sampleGroup (classId : UInt8) : SecGroup where
  encKey := Vector.replicate 16 classId
  mpanKey := Block.zero
  nonceKey := Vector.replicate 32 classId

def sampleLink : Link where
  env := fun x => keyedEnv (if x then 100 else 0)
  con := fun x => if x then samplePeerCon else sampleCon 0
  sg := sampleGroup
  loadedKeys := 7
  home := 0
  mirrored := by decide
  singlecast := by decide
  isNode := by decide
  accepts := fun x n => rfl
  ciphers := fun x => ⟨rfl, rfl, rfl⟩
  ccm := by
    intro x
    refine ⟨?_, ?_⟩
    · intro key nonce aad text
      simp [keyedEnv, authTagLen]
    · intro key nonce aad text
      refine ⟨List.replicate 8 (key.toList.headD 0), ?_⟩
      simp [keyedEnv]
  ideal := by
    intro x k classId nonce nonce' aad text _ _ hauth
    by_contra hne
    apply hauth
    simp [keyedEnv, sampleGroup, Ne.symm hne]

def sampleNode (l r : NodeId) : S2 :=
  start 0 sampleGroup 7 <| sampleSpans fun span =>
    { span with lnode := l, rnode := r, state := .noSeq }

def sampleNet : Net where
  node := fun x => if x then sampleNode 2 1 else sampleNode 1 2
  delivered := fun _ => 0
  opened := []

def sampleExchange : List Event :=
  [ .send false (sampleCon 0) [0x20, 0x01, 0xFF],
    .deliver false fun _ => 0, .deliver true fun _ => 0, .done false 0, .deliver false fun _ => 0,
    .done false 0,
    .send true { samplePeerCon with classId := 2 } [0x20, 0x03, 0xFF],
    .deliver true fun _ => 0, .deliver false fun _ => 0, .deliver true fun _ => 0, .done true 0 ]

theorem linked_sampleNet : Linked sampleLink (fun _ => 0) sampleNet := by
  refine ⟨?_, ?_, ?_, rfl⟩
  · intro x
    cases x with
    | false => exact ⟨rfl, rfl, rfl, rfl, fun _ => rfl, by decide, by decide⟩
    | true => exact ⟨rfl, rfl, rfl, rfl, fun _ => rfl, by decide, by decide⟩
  · intro x
    cases x with
    | false => exact ⟨.inl rfl, .inl rfl, rfl, by decide, by decide, by decide, .inr ⟨not_false, rfl, rfl⟩⟩
    | true => exact ⟨.inl rfl, .inl rfl, rfl, by decide, by decide, by decide, .inr ⟨not_false, rfl, rfl⟩⟩
  · intro x
    cases x <;> rfl

theorem sampleExchange_inLockStep :
    let n := Machine.run (step sampleLink) sampleNet sampleExchange
    n.opened = [(2, .authOk, 2), (0, .authOk, 0)] ∧ InLockStep sampleLink n := by
  have hopened : (Machine.run (step sampleLink) sampleNet sampleExchange).opened =
      [(2, .authOk, 2), (0, .authOk, 0)] := by decide +kernel
  have husable : Usable sampleLink 0 ∧ Usable sampleLink 2 := by
    refine ⟨⟨?_, ?_, ?_⟩, ⟨?_, ?_, ?_⟩⟩
    all_goals decide
  have hok : Machine.Admissible (step sampleLink) (OneAtATime sampleLink) sampleNet
      sampleExchange := by
    refine ⟨⟨⟨?_, rfl, rfl, husable.1⟩, .inl ?_⟩, ⟨trivial, trivial⟩, ⟨trivial, trivial⟩,
      ⟨trivial, trivial⟩, ⟨trivial, trivial⟩, ⟨trivial, trivial⟩,
      ⟨⟨?_, rfl, rfl, husable.2⟩, .inl ?_⟩, ⟨trivial, trivial⟩, ⟨trivial, trivial⟩,
      ⟨trivial, trivial⟩, ⟨trivial, trivial⟩, trivial⟩
    all_goals decide
  refine ⟨hopened, ((spans_inLockStep linked_sampleNet hok).2 (by decide +kernel)).2 (.inr ?_)⟩
  rw [hopened]
  simp

def verifyingExchange : List Event :=
  [ .send false (sampleCon txoptionVerifyDelivery) [0x20, 0x01, 0xFF],
    .deliver false fun _ => 0, .deliver true fun _ => 0, .deliver false fun _ => 0, .done false 0,
    .send true { samplePeerCon with classId := 2 } [0x20, 0x03, 0xFF],
    .deliver true fun _ => 0, .deliver false fun _ => 0, .deliver true fun _ => 0 ]

/-- A message of another class arrives while the receiver waits for its own message to be verified. It is
refused: only an idle node tries the other classes. -/
theorem otherClass_refused :
    let n := Machine.run (step sampleLink) sampleNet verifyingExchange
    Linked sampleLink (fun _ => 0) sampleNet ∧
      Machine.Admissible (step sampleLink) (InTurn sampleLink) sampleNet verifyingExchange ∧
      (n.node false).fsm = .verifyingDelivery ∧
      n.opened.map (fun m => (m.1, m.2.1)) = [(2, .authFail), (0, .authOk)] ∧
      ¬∀ m ∈ n.opened, m.2.1 = .authOk ∧ m.2.2 = m.1 := by
  intro n
  have husable : Usable sampleLink 0 ∧ Usable sampleLink 2 := by
    refine ⟨⟨?_, ?_, ?_⟩, ⟨?_, ?_, ?_⟩⟩
    all_goals decide
  have hopened : n.opened.map (fun m => (m.1, m.2.1)) = [(2, .authFail), (0, .authOk)] := by
    decide +kernel
  refine ⟨linked_sampleNet, ?_, by decide +kernel, hopened, fun hall => ?_⟩
  · refine ⟨⟨?_, rfl, rfl, husable.1⟩, trivial, trivial, trivial, trivial,
      ⟨?_, rfl, rfl, husable.2⟩, trivial, trivial, trivial, trivial⟩
    all_goals decide
  · have hmem : (2, .authFail) ∈ n.opened.map (fun m => (m.1, m.2.1)) :=
      hopened ▸ List.mem_cons_self
    obtain ⟨m, hm, heq⟩ := List.mem_map.mp hmem
    have hok := (hall m hm).1
    have hfail : m.2.1 = .authFail := congrArg Prod.snd heq
    rw [hfail] at hok
    cases hok

end Net

end ZipGateway.S2

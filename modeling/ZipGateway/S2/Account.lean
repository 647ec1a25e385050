import Mathlib.Data.List.Perm.Basic
import ZipGateway.S2.Context

/-!
# Accounts of sends

An abstract account of what happens to the accepted sends, without frames, keys or spans. Sends are
numbered in the order in which they are accepted. A send that was accepted is *started* until the
machine takes it into its hands; it is then pending until it is completed; and its completion is
*reported* by callbacks which may themselves accept the next send, so that the completions being
reported form a stack.
-/

namespace ZipGateway

def FsmState.pending : FsmState → Bool
  | .waitNonceRaport | .sendingMsg | .verifyingDelivery => true
  | .idle | .sendingMulticast | .isMosWaitReply => false

def FsmState.free : FsmState → Bool
  | .idle | .isMosWaitReply => true
  | _ => false

@[simp]
theorem FsmState.pending_idle : FsmState.pending .idle = false := rfl

theorem FsmState.pending_eq_false {fsm : FsmState} (h : fsm.free) : fsm.pending = false := by
  cases fsm <;> simp_all [FsmState.free, FsmState.pending]

namespace S2

structure Done where
  send : Nat
  status : TxStatus
  origin : Origin
deriving DecidableEq, Repr

/-- What the accounts are made of: `overlap` says that another owner's frame could still be under way,
`encrypted` are the span states of the singlecasts. -/
structure Ledger where
  fsm : FsmState
  inFlight : List FrameOwner
  nAccepted : Nat
  done : List Done
  overlap : Bool
  encrypted : List SpanState

structure Account where
  ledger : Ledger
  reporting : List Done
  started : Bool

structure Policy where
  origin : Origin → Prop
  span : SpanState → Prop

inductive Account.Entry (allowed : Policy) : Account → Account → Prop
  | rest {l : Ledger} {r : List Done} {fsm : FsmState} (hfree : l.fsm.free)
      (hfsm : fsm.free) :
      Entry allowed ⟨l, r, false⟩ ⟨{ l with fsm := fsm }, r, false⟩
  | accept {l : Ledger} {r : List Done} (hfree : l.fsm.free) :
      Entry allowed ⟨l, r, false⟩
        ⟨{ l with nAccepted := l.nAccepted + 1, overlap := l.inFlight != [] || l.overlap }, r, true⟩
  | enter {l : Ledger} {r : List Done} {started : Bool} {fsm : FsmState}
      (hstarted : started ∨ l.fsm.pending) (hfsm : fsm.pending) :
      Entry allowed ⟨l, r, started⟩ ⟨{ l with fsm := fsm }, r, false⟩
  | send {l : Ledger} {r : List Done} (hpending : l.fsm.pending) :
      Entry allowed ⟨l, r, false⟩ ⟨{ l with inFlight := l.inFlight ++ [.send l.nAccepted] }, r, false⟩
  | inclusion {l : Ledger} {r : List Done} {frames : List FrameOwner} :
      Entry allowed ⟨l, r, false⟩ ⟨{ l with
            inFlight := l.inFlight ++ frames, overlap := l.fsm.pending || l.overlap },
          r, false⟩
  | frameDone {l : Ledger} {r : List Done} :
      Entry allowed ⟨l, r, false⟩ ⟨{ l with inFlight := l.inFlight.tail }, r, false⟩
  | completeByFrame {l : Ledger} {r : List Done} {status : TxStatus}
      (hpending : l.fsm.pending) (hallowed : allowed.origin (.frameDone l.inFlight.head?)) :
      Entry allowed ⟨l, r, false⟩ ⟨{ l with fsm := .idle, inFlight := l.inFlight.tail },
          ⟨l.nAccepted, status, .frameDone l.inFlight.head?⟩ :: r, false⟩
  | complete {l : Ledger} {r : List Done} {status : TxStatus} {origin : Origin}
      (hpending : l.fsm.pending) (horigin : ∀ frame, origin ≠ .frameDone frame)
      (hallowed : allowed.origin origin) :
      Entry allowed ⟨l, r, false⟩ ⟨{ l with fsm := .idle }, ⟨l.nAccepted, status, origin⟩ :: r, false⟩
  | report {l : Ledger} {r : List Done} {d : Done} :
      Entry allowed ⟨l, d :: r, false⟩ ⟨{ l with done := d :: l.done }, r, false⟩
  | encrypt {l : Ledger} {r : List Done} {span : SpanState} (hspan : allowed.span span) :
      Entry allowed ⟨l, r, false⟩ ⟨{ l with encrypted := span :: l.encrypted }, r, false⟩

abbrev Account.Reaches (allowed : Policy) : Account → Account → Prop :=
  Relation.ReflTransGen (Account.Entry allowed)

namespace Account

variable {allowed : Policy} {a b : Account}

theorem Reaches.invariant {Inv : Account → Prop}
    (hentry : ∀ a b, Entry allowed a b → Inv a → Inv b) (h : Reaches allowed a b) (ha : Inv a) :
    Inv b := by
  induction h with
  | refl => exact ha
  | tail _ hlast ih => exact hentry _ _ hlast ih

/-! ## Balance -/

def current (a : Account) : List Nat :=
  if a.started ∨ a.ledger.fsm.pending then [a.ledger.nAccepted] else []

def doneSends (a : Account) : List Nat :=
  a.ledger.done.map Done.send

def Balanced (a : Account) : Prop :=
  (a.doneSends ++ (a.current ++ a.reporting.map Done.send)).Perm (List.range' 1 a.ledger.nAccepted)

theorem balanced_entry (h : Entry allowed a b) (ha : Balanced a) : Balanced b := by
  unfold Balanced current doneSends at *
  cases h with
  | rest hfree hfsm =>
    simpa [FsmState.pending_eq_false hfree, FsmState.pending_eq_false hfsm] using ha
  | @accept l r hfree =>
    have hbefore : (l.done.map Done.send ++ r.map Done.send).Perm (List.range' 1 l.nAccepted) := by
      simpa [FsmState.pending_eq_false hfree] using ha
    have hafter := List.perm_middle.trans (hbefore.cons (l.nAccepted + 1))
    simp only [true_or, if_true, List.singleton_append]
    rw [List.range'_1_concat, Nat.add_comm 1]
    exact hafter.trans (List.perm_append_singleton _ _).symm
  | enter hstarted hfsm => simpa [hstarted, hfsm] using ha
  | send hpending => exact ha
  | inclusion => exact ha
  | frameDone => exact ha
  | completeByFrame hpending hallowed => simpa [hpending] using ha
  | complete hpending horigin hallowed => simpa [hpending] using ha
  | @report l r d =>
    let now := if l.fsm.pending then [l.nAccepted] else []
    have hmove := @List.perm_middle _ d.send (l.done.map Done.send ++ now) (r.map Done.send)
    have hbefore : (l.done.map Done.send ++ (now ++ d.send :: r.map Done.send)).Perm (List.range' 1 l.nAccepted) := by
      simpa [now] using ha
    rw [List.append_assoc, List.append_assoc] at hmove
    simpa [now] using hmove.symm.trans hbefore
  | encrypt hspan => exact ha

/-! ## Attribution -/

/-- The completion stems from a frame of the send it completes, from an authenticated reply, or from
the timer. -/
def Attributed (d : Done) : Prop :=
  d.origin = .frameDone (some (.send d.send)) ∨ d.origin = .refused ∨ d.origin = .reply ∨ d.origin = .timeout

def OwnFrames (a : Account) : Prop :=
  a.ledger.overlap = false → (∀ d ∈ a.ledger.done ++ a.reporting, Attributed d) ∧
    (a.started ∨ a.ledger.fsm.pending → ∀ frame ∈ a.ledger.inFlight, frame = .send a.ledger.nAccepted)

def Traceable (origin : Origin) : Prop :=
  origin ≠ .nonceReport ∧ origin ≠ .frameDone none

theorem attributed_of_traceable {d : Done} (hframe : ∀ frame, d.origin ≠ .frameDone frame)
    (hd : Traceable d.origin) : Attributed d := by
  unfold Attributed
  cases horigin : d.origin with
  | frameDone frame => exact absurd horigin (hframe frame)
  | nonceReport => exact absurd horigin hd.1
  | refused | reply | timeout => simp

theorem ownFrames_entry (hallowed : ∀ origin, allowed.origin origin → Traceable origin)
    (h : Entry allowed a b) (ha : OwnFrames a) : OwnFrames b := by
  unfold OwnFrames at *
  intro hoverlap
  cases h with
  | rest hfree hfsm =>
    refine ⟨(ha hoverlap).1, ?_⟩
    simp [FsmState.pending_eq_false hfsm]
  | @accept l r hfree =>
    obtain ⟨hnone, hoverlap⟩ : l.inFlight = [] ∧ l.overlap = false := by
      simpa using hoverlap
    refine ⟨(ha hoverlap).1, fun _ frame hframe => ?_⟩
    simp [hnone] at hframe
  | enter hstarted hfsm =>
    obtain ⟨hdone, hown⟩ := ha hoverlap
    exact ⟨hdone, fun _ => hown hstarted⟩
  | @send l r hpending =>
    obtain ⟨hdone, hown⟩ := ha hoverlap
    refine ⟨hdone, fun _ frame hframe => ?_⟩
    rcases List.mem_append.mp hframe with hold | hnew
    · exact hown (.inr hpending) frame hold
    · exact List.mem_singleton.mp hnew
  | @inclusion l r frames =>
    obtain ⟨hidle, hoverlap⟩ : l.fsm.pending = false ∧ l.overlap = false := by
      simpa using hoverlap
    refine ⟨(ha hoverlap).1, ?_⟩
    simp [hidle]
  | frameDone =>
    obtain ⟨hdone, hown⟩ := ha hoverlap
    exact ⟨hdone, fun hpending frame hframe => hown hpending frame (List.mem_of_mem_tail hframe)⟩
  | @completeByFrame l r status hpending horigin =>
    obtain ⟨hdone, hown⟩ := ha hoverlap
    refine ⟨?_, by simp⟩
    intro d hd
    rcases List.mem_append.mp hd with hold | hnew
    · exact hdone d (List.mem_append_left _ hold)
    · rcases List.mem_cons.mp hnew with rfl | hrest
      · -- the completed frame was the first of those under way
        cases hhead : l.inFlight.head? with
        | none => exact absurd (congrArg Origin.frameDone hhead) (hallowed _ horigin).2
        | some frame =>
          have hframe := hown (.inr hpending) frame (List.mem_of_head? hhead)
          exact .inl (by simp [hframe])
      · exact hdone d (List.mem_append_right _ hrest)
  | complete hpending hframe horigin =>
    obtain ⟨hdone, hown⟩ := ha hoverlap
    refine ⟨?_, by simp⟩
    intro d hd
    rcases List.mem_append.mp hd with hold | hnew
    · exact hdone d (List.mem_append_left _ hold)
    · rcases List.mem_cons.mp hnew with rfl | hrest
      · exact attributed_of_traceable hframe (hallowed _ horigin)
      · exact hdone d (List.mem_append_right _ hrest)
  | report =>
    obtain ⟨hdone, hown⟩ := ha hoverlap
    refine ⟨fun d hd => hdone d ?_, hown⟩
    simp only [List.mem_append, List.mem_cons] at hd ⊢
    tauto
  | encrypt hspan => exact ha hoverlap

/-! ## Encryption -/

def EncryptedAllowed (allowed : Policy) (a : Account) : Prop :=
  ∀ span ∈ a.ledger.encrypted, allowed.span span

theorem encryptedAllowed_entry (h : Entry allowed a b) (ha : EncryptedAllowed allowed a) :
    EncryptedAllowed allowed b := by
  cases h with
  | encrypt hspan => exact List.forall_mem_cons.mpr ⟨hspan, ha⟩
  | _ => exact ha

end Account

end ZipGateway.S2

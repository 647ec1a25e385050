import Mathlib.Algebra.BigOperators.Group.List.Basic
import Mathlib.Algebra.Order.Group.Int
import Mathlib.Algebra.Ring.Int.Defs
import ZipGateway.Bridge.IpAssociation

/-!
# The completion of an IP association command

Whoever passes through `handle_ip_association_set` must call `report_send_completed`, once. The log
shows what happens instead. Every entry has a weight for the completions and one for the
acknowledgements, a pending callback owes one of each, and no step changes the sum: a command is
completed once, and once more for every fault. A fault is an answer of the environment after which the
association is cleaned up, because that goes through the removal, which completes by itself; and a
command that is refused twice.
-/

namespace ZipGateway.IpAssoc

namespace Out

def isCompletion : Out → Bool
  | .completed _ => true
  | _ => false

def isAck : Out → Bool
  | .ack _ => true
  | _ => false

def isOk : Out → Bool
  | .ack ok => ok
  | .completed status => status = transmitCompleteOk
  | _ => false

def isOperation : Out → Bool
  | .handled _ => true
  | .nodeRemoved _ matching => matching ≠ 0
  | _ => false

def isLost : Out → Bool
  | .reported _ _ _ _ calledBack => !calledBack
  | _ => false

end Out

def Frame.isShortGet (f : Frame) : Bool :=
  f.command = associationGet ∧ f.len.toNat < ipAssocGetFrameSize

def Out.isFault : Out → Bool
  | .handled f => f.isShortGet
  | .learnMode add _ accepted => add && !accepted
  | .sent _ _ accepted | .route _ _ accepted => !accepted
  | .callback (.association _) status => status ≠ transmitCompleteOk
  | .routeAssigned i status => i.isSome ∧ status ≠ transmitCompleteOk
  | _ => false

def Out.dueCompletions (o : Out) : Int :=
  o.isCompletion.toNat + o.isLost.toNat - o.isOperation.toNat - o.isFault.toNat

def Out.dueAcks (o : Out) : Int :=
  o.isAck.toNat - o.isOperation.toNat - o.isFault.toNat

def Pending.acks : Pending → Int
  | .report => 0
  | _ => 1

namespace State

def completionBalance (s : State) : Int :=
  (s.out.map Out.dueCompletions).sum + s.pending.length

def ackBalance (s : State) : Int :=
  (s.out.map Out.dueAcks).sum + (s.pending.map Pending.acks).sum

end State

variable {type : AssocType} {p : Pending}

theorem sum_dueCompletions (log : List Out) :
    (log.map Out.dueCompletions).sum = (log.countP Out.isCompletion : Int) + log.countP Out.isLost -
      log.countP Out.isOperation - log.countP Out.isFault := by
  induction log with
  | nil => rfl
  | cons o log ih =>
    simp only [List.map_cons, List.sum_cons, ih, List.countP_cons, Out.dueCompletions]
    cases o.isCompletion <;> cases o.isLost <;> cases o.isOperation <;> cases o.isFault <;>
      simp <;> omega

theorem sum_dueAcks (log : List Out) :
    (log.map Out.dueAcks).sum = (log.countP Out.isAck : Int) - log.countP Out.isOperation - log.countP Out.isFault := by
  induction log with
  | nil => rfl
  | cons o log ih =>
    simp only [List.map_cons, List.sum_cons, ih, List.countP_cons, Out.dueAcks]
    cases o.isAck <;> cases o.isOperation <;> cases o.isFault <;> simp <;> omega

theorem State.marked_sendZipAck (s : State) (status : UInt8) : (s.sendZipAck status).marked = s.marked := by
  unfold State.sendZipAck
  split_ifs <;> rfl

theorem State.membAlloc_eq (s : State) : ∃ allocated, s.membAlloc.2 = { s with allocated := allocated } := by
  unfold State.membAlloc
  split
  · exact ⟨_, rfl⟩
  · exact ⟨s.allocated, rfl⟩

theorem State.type_of_setPath {env : Env} {s : State} {f : Frame}
    (h : setPath env s f = .virtual type) : type = .permanent ∨ type = .proxy := by
  unfold setPath at h
  dsimp only at h
  split_ifs at h <;> cases h <;> simp

structure Creating (s : State) : Prop where
  waiting : .virtualAdd ∈ s.pending → ∃ type wasDtls, s.createCb = some type ∧
    s.virtualAdd = some (type, wasDtls) ∧ (type = .permanent ∨ type = .proxy)
  idle : .virtualAdd ∉ s.pending → s.createCb = none
  once : s.pending.count .virtualAdd ≤ 1

structure Tally (completions acks : Int) (s t : State) : Prop where
  completions : t.completionBalance = s.completionBalance + completions
  acks : t.ackBalance ≤ s.ackBalance + acks
  operations : t.out.countP Out.isOperation = s.out.countP Out.isOperation
  lost : t.out.countP Out.isLost = s.out.countP Out.isLost
  suffix : s.out <:+ t.out
  creating : Creating s → Creating t

namespace Tally

variable {s t u : State} {c a c' a' : Int}

theorem trans (h : Tally c a s t) (h' : Tally c' a' t u) : Tally (c + c') (a + a') s u where
  completions := by
    rw [h'.completions, h.completions]
    omega
  acks := by
    have hfirst := h.acks
    have hsecond := h'.acks
    omega
  operations := h'.operations.trans h.operations
  lost := h'.lost.trans h.lost
  suffix := h.suffix.trans h'.suffix
  creating hs := h'.creating (h.creating hs)

theorem weaken (h : Tally c a s t) (hc : c = c') (ha : a ≤ a') : Tally c' a' s t where
  completions := hc ▸ h.completions
  acks := h.acks.trans (by omega)
  operations := h.operations
  lost := h.lost
  suffix := h.suffix
  creating := h.creating

theorem of_out (hout : t.out = s.out) (hpending : t.pending = s.pending) (hcb : t.createCb = s.createCb)
    (hadd : .virtualAdd ∈ s.pending → t.virtualAdd = s.virtualAdd) : Tally 0 0 s t where
  completions := by simp [State.completionBalance, hout, hpending]
  acks := by simp [State.ackBalance, hout, hpending]
  operations := by rw [hout]
  lost := by rw [hout]
  suffix := hout ▸ List.suffix_rfl
  creating hs := by
    refine ⟨?_, ?_, ?_⟩ <;> rw [hpending]
    · intro hmem
      rw [hcb, hadd hmem]
      exact hs.waiting hmem
    · rw [hcb]
      exact hs.idle
    · exact hs.once

theorem of_eq (hout : t.out = s.out) (hpending : t.pending = s.pending)
    (hcb : t.createCb = s.createCb) (hadd : t.virtualAdd = s.virtualAdd) : Tally 0 0 s t :=
  of_out hout hpending hcb fun _ => hadd

theorem congr (h : Tally c a s t) (hout : u.out = t.out) (hpending : u.pending = t.pending)
    (hcb : u.createCb = t.createCb) (hadd : u.virtualAdd = t.virtualAdd) : Tally c a s u :=
  (h.trans (of_eq hout hpending hcb hadd)).weaken (by omega) (by omega)

theorem congr_left (h : Tally c a s t) (hout : s.out = u.out) (hpending : s.pending = u.pending)
    (hcb : s.createCb = u.createCb) (hadd : s.virtualAdd = u.virtualAdd) : Tally c a u t :=
  ((of_eq hout hpending hcb hadd).trans h).weaken (by omega) (by omega)

theorem put (s : State) (o : Out) (hop : o.isOperation = false) (hlost : o.isLost = false)
    (hc : o.dueCompletions = c) (ha : o.dueAcks = a) : Tally c a s (s.put o) where
  completions := by
    simp only [State.completionBalance, State.put, List.map_cons, List.sum_cons]
    omega
  acks := by
    simp only [State.ackBalance, State.put, List.map_cons, List.sum_cons]
    omega
  operations := by simp [State.put, hop]
  lost := by simp [State.put, hlost]
  suffix := List.suffix_cons _ _
  creating hs := ⟨hs.waiting, hs.idle, hs.once⟩

theorem await (s : State) (hp : p ≠ .virtualAdd) : Tally 1 1 s (s.await p) where
  completions := by
    simp only [State.completionBalance, State.await, List.length_cons]
    omega
  acks := by
    have hacks : p.acks ≤ 1 := by cases p <;> simp [Pending.acks]
    simp only [State.ackBalance, State.await, List.map_cons, List.sum_cons]
    omega
  operations := rfl
  lost := rfl
  suffix := List.suffix_rfl
  creating hs := by
    have hmem : .virtualAdd ∈ p :: s.pending ↔ .virtualAdd ∈ s.pending := by simp [hp.symm]
    refine ⟨fun h => hs.waiting (hmem.mp h), fun h => hs.idle (mt hmem.mpr h), ?_⟩
    change (p :: s.pending).count .virtualAdd ≤ 1
    rw [List.count_cons_of_ne hp]
    exact hs.once

theorem sendZipAck (s : State) (status : UInt8) : Tally 0 1 s (s.sendZipAck status) := by
  unfold State.sendZipAck
  split_ifs
  · exact put s (.ack true) rfl rfl rfl rfl
  · exact put s (.ack false) rfl rfl rfl rfl
  · exact (of_eq rfl rfl rfl rfl).weaken rfl (by decide)

theorem reportSendCompleted (s : State) (status : UInt8) : Tally 1 0 s (s.reportSendCompleted status) :=
  put s (.completed status) rfl rfl rfl rfl

theorem posted (s : State) (p : Post) : Tally 0 0 s (s.put (.posted p)) :=
  put s (.posted p) rfl rfl rfl rfl

theorem acknowledged (s : State) (status status' : UInt8) :
    Tally 1 1 s ((s.sendZipAck status).reportSendCompleted status') :=
  ((sendZipAck s status).trans (reportSendCompleted _ status')).weaken rfl (by decide)

section Chain

variable (env : Env) {next : State → State}

/-- `next` takes care of the completion, in the states that have as many associations to remove. -/
def Completes (n : Nat) (next : State → State) : Prop :=
  ∀ s : State, s.marked = n → Tally 1 1 s (next s)

/-- The request to remove a virtual node is taken, and its callback goes on; or it is not. -/
theorem setSlaveLearnMode_remove (hnext : Completes s.marked next) (node : NodeId) : Tally 1 1 s
      (match s.setSlaveLearnMode env false node .virtualRemove with
        | (true, s) => s
        | (false, s) => next s) := by
  have hcount : Tally 0 0 s { s with nLearn := s.nLearn + 1 } := of_eq rfl rfl rfl rfl
  unfold State.setSlaveLearnMode
  cases env.learnMode s.nLearn with
  | true =>
    have hlog : Tally 0 0 { s with nLearn := s.nLearn + 1 } _ :=
      put _ (.learnMode false node true) rfl rfl rfl rfl
    exact ((hcount.trans hlog).trans (await _ (by simp))).weaken rfl (by decide)
  | false =>
    have hlog : Tally 0 0 { s with nLearn := s.nLearn + 1 } _ :=
      put _ (.learnMode false node false) rfl rfl rfl rfl
    exact ((hcount.trans hlog).trans (hnext _ rfl)).weaken rfl (by decide)

theorem removeWith (hnext : Completes s.marked next) (i : Block) : Tally 1 1 s (s.removeWith env next i) := by
  let t := (s.rdRemoveNode env (s.mem i).type (s.mem i).virtualId).withTable (s.table.erase i)
  have hunregistered : Tally 0 0 s (s.rdRemoveNode env (s.mem i).type (s.mem i).virtualId) :=
    put s _ rfl rfl rfl rfl
  have hunlinked : Tally 0 0 s t := hunregistered.congr rfl rfl rfl rfl
  have hlearn := setSlaveLearnMode_remove env (s := t) hnext (s.mem i).virtualId
  unfold State.removeWith
  dsimp only
  split_ifs
  · exact ((hunlinked.trans hlearn).weaken rfl (by decide)).congr rfl rfl rfl rfl
  · exact ((hunlinked.trans (hnext t rfl)).weaken rfl (by decide)).congr rfl rfl rfl rfl

theorem abortWith_some (hnext : Completes s.marked next) (i : Block) (status : UInt8) :
    Tally 2 1 s (s.abortWith env next (some i) status) :=
  ((removeWith env hnext i).trans (reportSendCompleted _ status)).weaken rfl (by decide)

theorem abortWith_none (s : State) (status : UInt8) : Tally 1 0 s (s.abortWith env next none status) :=
  reportSendCompleted s status

theorem sendDataAppl_or_abort (hnext : Completes s.marked next) (dest : NodeId) (frame : Bytes)
    (hp : p ≠ .virtualAdd) (i : Block) :
    Tally 1 1 s (match s.sendDataAppl env dest frame p with
        | (true, s) => s
        | (false, s) =>
          (s.sendZipAck transmitCompleteError).abortWith env next (some i) transmitCompleteError) := by
  unfold State.sendDataAppl
  have hcount : Tally 0 0 s { s with nSend := s.nSend + 1 } := of_eq rfl rfl rfl rfl
  cases env.sendAppl s.nSend with
  | true =>
    have hlog : Tally 0 0 { s with nSend := s.nSend + 1 } _ :=
      put _ (.sent dest frame true) rfl rfl rfl rfl
    exact ((hcount.trans hlog).trans (await _ hp)).weaken rfl (by decide)
  | false =>
    have hlog : Tally (-1) (-1) { s with nSend := s.nSend + 1 } _ :=
      put _ (.sent dest frame false) rfl rfl rfl rfl
    have hack := (hcount.trans hlog).trans (sendZipAck _ transmitCompleteError)
    refine (hack.trans (abortWith_some env ?_ i transmitCompleteError)).weaken rfl (by decide)
    rw [State.marked_sendZipAck]
    exact hnext

theorem sendAssocRemoveWith (hnext : Completes s.marked next) (i : Block) :
    Tally 1 1 s (s.sendAssocRemoveWith env next i) := by
  unfold State.sendAssocRemoveWith
  dsimp only
  split_ifs
  · exact sendDataAppl_or_abort env hnext _ _ (by simp) i
  · exact removeWith env hnext i

theorem removeAllMarkedWith (hnext : Completes s.marked next) : Tally 1 1 s (s.removeAllMarkedWith env next) := by
  unfold State.removeAllMarkedWith
  cases s.firstMarked with
  | some i => exact sendAssocRemoveWith env hnext i
  | none =>
    exact ((sendZipAck s transmitCompleteOk).trans (abortWith_none env _ _)).weaken rfl (by decide)

theorem finishRemoval (s : State) : Tally 1 1 s s.finishRemoval :=
  ((acknowledged s _ _).trans (posted _ _)).weaken rfl (by decide)

theorem continueRemoval (n : Nat) : ∀ s : State, s.marked < n → Tally 1 1 s (s.continueRemoval env n) := by
  induction n with
  | zero =>
    intro s hlt
    omega
  | succ n ih =>
    intro s hlt
    have hmarked : Tally 0 0 s (s.withMarked (s.marked - 1)) := of_eq rfl rfl rfl rfl
    unfold State.continueRemoval
    dsimp only
    split_ifs with hmore
    · refine (hmarked.trans (removeAllMarkedWith env ?_)).weaken rfl (by decide)
      intro t ht
      apply ih
      rw [ht]
      change s.marked - 1 < n
      change s.marked - 1 ≠ 0 at hmore
      omega
    · exact (hmarked.trans (finishRemoval _)).weaken rfl (by decide)

theorem continueWithNext (s : State) : Tally 1 1 s (s.continueWithNext env) :=
  continueRemoval env (s.marked + 1) s (Nat.lt_succ_self _)

theorem completes_continue (n : Nat) : Completes n (State.continueWithNext env) :=
  fun s _ => continueWithNext env s

end Chain

section SetUp

variable (env : Env)

theorem abort_some (s : State) (i : Block) (status : UInt8) : Tally 2 1 s (s.abort env (some i) status) :=
  abortWith_some env (completes_continue env s.marked) i status

theorem sendIpAssociationCmd (s : State) (i : Block) (frame : Bytes) :
    Tally 1 1 s (s.sendIpAssociationCmd env i frame) :=
  sendDataAppl_or_abort env (completes_continue env s.marked) _ frame (by simp) i

theorem createCallback (s : State) (frame : Assoc → Bytes) (a : Option Block) :
    Tally 1 1 s (s.createCallback env frame a) := by
  cases a with
  | some i => exact sendIpAssociationCmd env s i (frame (s.mem i))
  | none => exact acknowledged s _ _

theorem callCreateCompleteCb (hcb : s.createCb = some type)
    (htype : type = .permanent ∨ type = .proxy) (a : Option Block) :
    Tally 1 1 (s.withCreateCb none) (s.callCreateCompleteCb env a) := by
  unfold State.callCreateCompleteCb
  rw [hcb]
  rcases htype with rfl | rfl
  · exact ((createCallback env _ _ a).trans (posted _ _)).weaken rfl (by decide)
  · exact ((createCallback env _ _ a).trans (posted _ _)).weaken rfl (by decide)

theorem refuse (s : State) : Tally 1 1 s s.refuse :=
  acknowledged s _ _

theorem free_of_idle (hs : Creating s) (hcb : s.createCb = none) : .virtualAdd ∉ s.pending := by
  intro hmem
  obtain ⟨type', wasDtls, hsome, -⟩ := hs.waiting hmem
  rw [hcb] at hsome
  cases hsome

/-- What `ip_assoc_virtual_add_callback_state` says matters only while the callback is pending. -/
theorem of_idle (hout : t.out = s.out) (hpending : t.pending = s.pending)
    (hcb : t.createCb = s.createCb) (hfree : .virtualAdd ∉ s.pending) : Tally 0 0 s t :=
  of_out hout hpending hcb fun hmem => absurd hmem hfree

theorem learning (hs : Creating s) (hcb : s.createCb = none)
    (htype : type = .permanent ∨ type = .proxy) (hout : t.out = .learnMode true 0 true :: s.out)
    (hpending : t.pending = .virtualAdd :: s.pending) (hcb' : t.createCb = some type)
    (hadd : ∃ wasDtls, t.virtualAdd = some (type, wasDtls)) : Tally 1 1 s t := by
  have hfree := free_of_idle hs hcb
  refine ⟨?_, ?_, ?_, ?_, ?_, fun _ => ⟨?_, ?_, ?_⟩⟩
  · simp only [State.completionBalance, hout, hpending, List.map_cons, List.sum_cons, List.length_cons]
    have hweight : (Out.learnMode true 0 true).dueCompletions = 0 := rfl
    omega
  · simp only [State.ackBalance, hout, hpending, List.map_cons, List.sum_cons]
    have hweight : (Out.learnMode true 0 true).dueAcks = 0 := rfl
    have hacks : Pending.virtualAdd.acks = 1 := rfl
    omega
  · rw [hout, List.countP_cons_of_neg (by simp [Out.isOperation])]
  · rw [hout, List.countP_cons_of_neg (by simp [Out.isLost])]
  · rw [hout]
    exact List.suffix_cons _ _
  · intro _
    obtain ⟨wasDtls, hadd⟩ := hadd
    exact ⟨type, wasDtls, hcb', hadd, htype⟩
  · intro hnone
    exact absurd (hpending ▸ List.mem_cons_self) hnone
  · rw [hpending, List.count_cons_self, List.count_eq_zero.mpr hfree]

theorem ipAssocCreate (hs : Creating s) (htype : type = .permanent ∨ type = .proxy) (f : Frame) : Tally 1 1 s
      (match s.ipAssocCreate env type f with
        | (true, s) => s
        | (false, s) => s.refuse) := by
  unfold State.ipAssocCreate
  cases hcb : s.createCb with
  | some cb => exact refuse s
  | none =>
    simp only [Option.isSome_none, Bool.false_eq_true, if_false]
    cases (s.withCreateCb (some type)).findExisting type f.wasDtls with
    | some i => exact (callCreateCompleteCb env rfl htype (some i)).congr_left rfl rfl hcb.symm rfl
    | none =>
      dsimp only
      unfold State.setSlaveLearnMode
      dsimp only [State.withCreateCb, State.withVirtualAdd]
      cases env.learnMode s.nLearn with
      | true =>
        exact learning hs hcb htype rfl rfl rfl ⟨f.wasDtls, rfl⟩
      | false =>
        -- refused by the callback of the set-up, and refused by the caller
        let u : State := { s with nLearn := s.nLearn + 1, virtualAdd := none }
        let v := u.put (.learnMode true 0 false)
        let w := v.withCreateCb (some type)
        have hidle : Tally 0 0 s u := of_idle rfl rfl rfl (free_of_idle hs hcb)
        have hlog : Tally (-1) (-1) u v := put _ _ rfl rfl rfl rfl
        have hcalled : Tally 1 1 v (w.callCreateCompleteCb env none) :=
          (callCreateCompleteCb env rfl htype none).congr_left rfl rfl hcb.symm rfl
        exact (((hidle.trans hlog).trans hcalled).trans (refuse _)).weaken rfl (by decide)

theorem addToAssociationTable (s : State) (i : Block) : Tally 0 0 s (s.addToAssociationTable i) := by
  unfold State.addToAssociationTable
  split_ifs <;> exact of_eq rfl rfl rfl rfl

theorem membAlloc (s : State) : Tally 0 0 s s.membAlloc.2 := by
  obtain ⟨allocated, heq⟩ := State.membAlloc_eq s
  rw [heq]
  exact of_eq rfl rfl rfl rfl

theorem handleIpAssociationSet (hs : Creating s) (f : Frame) : Tally 1 1 s (s.handleIpAssociationSet env f) := by
  unfold State.handleIpAssociationSet
  cases hpath : State.setPath env s f with
  | refused => exact refuse s
  | localAssoc =>
    dsimp only
    unfold State.createLocal
    have halloc := membAlloc s
    generalize s.membAlloc = allocated at halloc ⊢
    obtain ⟨block, t⟩ := allocated
    cases block with
    | none => exact (halloc.trans (refuse t)).weaken rfl (by decide)
    | some i =>
      have hwritten : Tally 0 0 s (t.withMem i (State.localFields (t.mem i) f)) :=
        halloc.congr rfl rfl rfl rfl
      have hadded := hwritten.trans (addToAssociationTable _ i)
      exact (hadded.trans (sendIpAssociationCmd env _ i _)).weaken rfl (by decide)
  | virtual type =>
    exact ipAssocCreate env hs (State.type_of_setPath hpath) f

theorem handleIpAssociationRemove (s : State) (f : Frame) : Tally 1 1 s (s.handleIpAssociationRemove env f) := by
  have hmarked : Tally 0 0 s (s.findAndMarkForRemoval f.selector) := of_eq rfl rfl rfl rfl
  unfold State.handleIpAssociationRemove
  dsimp only
  split_ifs
  · exact refuse s
  · exact (hmarked.trans (removeAllMarkedWith env (completes_continue env _))).weaken rfl (by decide)
  · exact (hmarked.trans (acknowledged _ _ _)).weaken rfl (by decide)

/-! ### Callbacks -/

theorem setupAndSave (hcb : s.createCb = some type) (htype : type = .permanent ∨ type = .proxy)
    (i : Block) (wasDtls : UInt8) (newId : NodeId) :
    Tally 1 1 (s.withCreateCb none) (s.setupAndSave env i type wasDtls newId) := by
  unfold State.setupAndSave
  split_ifs
  · let t := (s.withMem i (State.virtualSource type wasDtls newId s.backup)).membFree i
    have hcb' : t.createCb = some type := hcb
    exact (callCreateCompleteCb env hcb' htype none).congr_left rfl rfl rfl rfl
  · let t := s.withMem i (State.virtualFields type wasDtls newId s.backup)
    have hcb' : (t.addToAssociationTable i).createCb = some type := by
      unfold State.addToAssociationTable
      split_ifs <;> exact hcb
    have hadded' : Tally 0 0 (s.withCreateCb none) ((t.addToAssociationTable i).withCreateCb none) := by
      unfold State.addToAssociationTable
      split_ifs <;> exact of_eq rfl rfl rfl rfl
    exact (hadded'.trans (callCreateCompleteCb env hcb' htype (some i))).weaken rfl (by decide)

theorem balances_of_delivered (hmem : p ∈ s.pending) (hout : t.out = s.out) (hpending : t.pending = s.pending.erase p) :
    t.completionBalance = s.completionBalance + -1 ∧ t.ackBalance = s.ackBalance + -p.acks := by
  have hlength := List.length_erase_of_mem hmem
  have hpos := List.length_pos_of_mem hmem
  have hsum := List.sum_map_erase Pending.acks hmem
  constructor
  · simp only [State.completionBalance, hout, hpending]
    omega
  · simp only [State.ackBalance, hout, hpending]
    omega

theorem delivered (hmem : p ∈ s.pending) (hp : p ≠ .virtualAdd) :
    Tally (-1) (-p.acks) s { s with pending := s.pending.erase p } where
  completions := by
    refine (balances_of_delivered hmem ?_ ?_).1 <;> rfl
  acks := by
    refine (balances_of_delivered hmem ?_ ?_).2.le <;> rfl
  operations := rfl
  lost := rfl
  suffix := List.suffix_rfl
  creating hs := by
    have hiff : .virtualAdd ∈ s.pending.erase p ↔ .virtualAdd ∈ s.pending :=
      List.mem_erase_of_ne hp.symm
    refine ⟨fun h => hs.waiting (hiff.mp h), fun h => hs.idle (mt hiff.mpr h), ?_⟩
    change (s.pending.erase p).count .virtualAdd ≤ 1
    rw [List.count_erase_of_ne hp.symm]
    exact hs.once

/-- The callback that says whether there is a virtual node; no set-up is under way after it. -/
theorem delivered_virtualAdd (hs : Creating s) (hmem : .virtualAdd ∈ s.pending) : Tally (-1) (-1) s
      { s with pending := s.pending.erase .virtualAdd, createCb := none, virtualAdd := none } where
  completions := by
    refine (balances_of_delivered hmem ?_ ?_).1 <;> rfl
  acks := by
    refine (balances_of_delivered hmem ?_ ?_).2.le <;> rfl
  operations := rfl
  lost := rfl
  suffix := List.suffix_rfl
  creating _ := by
    have hcount : (s.pending.erase .virtualAdd).count .virtualAdd = 0 := by
      have hpos := List.count_pos_iff.mpr hmem
      have honce := hs.once
      rw [List.count_erase_self]
      omega
    refine ⟨fun h => absurd h (List.count_eq_zero.mp hcount), fun _ => rfl, ?_⟩
    exact hcount.le.trans (by omega)

theorem virtualAddCallback (hs : Creating s) (hmem : .virtualAdd ∈ s.pending) (status : AssignStatus) (newId : NodeId) :
    Tally 0 0 s ({ s with pending := s.pending.erase .virtualAdd }.virtualAddCallback env status newId) := by
  obtain ⟨type, wasDtls, hcb, hadd, htype⟩ := hs.waiting hmem
  have hdelivered := delivered_virtualAdd hs hmem
  let t : State := { s with pending := s.pending.erase .virtualAdd, virtualAdd := none }
  have hcb' : t.createCb = some type := hcb
  unfold State.virtualAddCallback
  dsimp only
  split_ifs
  · rw [hadd]
    dsimp only
    obtain ⟨allocated, heq⟩ := State.membAlloc_eq t
    generalize hresult : t.membAlloc = result at heq
    obtain ⟨block, u⟩ := result
    have hcleared : ({ s with pending := s.pending.erase .virtualAdd }.withVirtualAdd none).membAlloc =
        (block, u) := hresult
    rw [← hadd, hcleared]
    obtain rfl : u = { t with allocated := allocated } := heq
    have hcb'' : { t with allocated := allocated }.createCb = some type := hcb
    cases block with
    | some i =>
      have hsaved := setupAndSave env hcb'' htype i wasDtls newId
      exact (hdelivered.trans (hsaved.congr_left rfl rfl rfl rfl)).weaken rfl (by decide)
    | none =>
      have hcalled := callCreateCompleteCb env hcb'' htype none
      exact (hdelivered.trans (hcalled.congr_left rfl rfl rfl rfl)).weaken rfl (by decide)
  · exact (hdelivered.trans (callCreateCompleteCb env hcb' htype none)).weaken rfl (by decide)

theorem assignReturnRoute_or_abort (s : State) (src dest : NodeId) (i : Block) : Tally 1 1 s
      (match s.assignReturnRoute env src dest with
        | (true, s) => s
        | (false, s) =>
          ((s.withReturnRouteFor none).sendZipAck transmitCompleteFail).abort env (some i)
            transmitCompleteFail) := by
  let t : State := { s with nRoute := s.nRoute + 1 }
  have hcount : Tally 0 0 s t := of_eq rfl rfl rfl rfl
  unfold State.assignReturnRoute
  cases env.assignRoute s.nRoute with
  | true =>
    have hlog : Tally 0 0 t (t.put (.route src dest true)) := put _ _ rfl rfl rfl rfl
    exact ((hcount.trans hlog).trans (await _ (by simp))).weaken rfl (by decide)
  | false =>
    have hlog : Tally (-1) (-1) t (t.put (.route src dest false)) := put _ _ rfl rfl rfl rfl
    have hforgot : Tally 0 0 (t.put (.route src dest false))
        ((t.put (.route src dest false)).withReturnRouteFor none) := of_eq rfl rfl rfl rfl
    have hack := ((hcount.trans hlog).trans hforgot).trans (sendZipAck _ transmitCompleteFail)
    exact (hack.trans (abort_some env _ i _)).weaken rfl (by decide)

theorem sendIpAssociationCmdCallback (s : State) (i : Block) (status : UInt8) : Tally 1 1 s
      ((s.put (.callback (.association i) status)).sendIpAssociationCmdCallback env i status) := by
  let t := s.put (.callback (.association i) status)
  unfold State.sendIpAssociationCmdCallback
  split_ifs with hok
  · have hlog : Tally 0 0 s (t.withReturnRouteFor (some i)) := by
      refine (put s (.callback (.association i) status) rfl rfl ?_ ?_).congr rfl rfl rfl rfl <;>
        subst hok <;> rfl
    exact (hlog.trans (assignReturnRoute_or_abort env _ _ _ i)).weaken rfl (by decide)
  · have hlog : Tally (-1) (-1) s t := by
      refine put s _ rfl rfl ?_ ?_ <;>
        simp [Out.dueCompletions, Out.dueAcks, Out.isFault, Out.isCompletion, Out.isLost,
          Out.isOperation, Out.isAck, hok]
    exact ((hlog.trans (sendZipAck _ _)).trans (abort_some env _ i _)).weaken rfl (by decide)

theorem assignReturnRouteCallback (s : State) (status : UInt8) :
    Tally 1 1 s (s.assignReturnRouteCallback env status) := by
  have hforgot : Tally 0 0 s (s.withReturnRouteFor none) := of_eq rfl rfl rfl rfl
  unfold State.assignReturnRouteCallback
  dsimp only
  split_ifs with hstatus
  · -- without an association there is nothing to clean up
    cases s.returnRouteFor with
    | some i =>
      have hlog : Tally (-1) (-1) (s.withReturnRouteFor none)
          ((s.withReturnRouteFor none).put (.routeAssigned (some i) status)) := by
        refine put _ _ rfl rfl ?_ ?_ <;>
          simp [Out.dueCompletions, Out.dueAcks, Out.isFault, Out.isCompletion, Out.isLost,
            Out.isOperation, Out.isAck, hstatus]
      have hack := (hforgot.trans hlog).trans (sendZipAck _ status)
      exact (hack.trans (abort_some env _ i _)).weaken rfl (by decide)
    | none =>
      have hlog : Tally 0 0 (s.withReturnRouteFor none)
          ((s.withReturnRouteFor none).put (.routeAssigned none status)) := put _ _ rfl rfl rfl rfl
      have hack := (hforgot.trans hlog).trans (sendZipAck _ status)
      exact (hack.trans (reportSendCompleted _ transmitCompleteFail)).weaken rfl (by decide)
  · have hok : status = transmitCompleteOk := by simpa using hstatus
    have hlog : Tally 0 0 (s.withReturnRouteFor none)
        ((s.withReturnRouteFor none).put (.routeAssigned s.returnRouteFor status)) := by
      refine put _ _ rfl rfl ?_ ?_ <;>
        simp [Out.dueCompletions, Out.dueAcks, Out.isFault, Out.isCompletion, Out.isLost,
          Out.isOperation, Out.isAck, hok]
    exact ((hforgot.trans hlog).trans (acknowledged _ status _)).weaken rfl (by decide)

theorem removeCallback (s : State) (i : Block) (status : UInt8) :
    Tally 1 1 s ((s.put (.callback (.removal i) status)).removeCallback env i status) := by
  have hlog : Tally 0 0 s (s.put (.callback (.removal i) status)) := put _ _ rfl rfl rfl rfl
  unfold State.removeCallback
  split_ifs
  · exact (hlog.trans (removeWith env (completes_continue env _) i)).weaken rfl (by decide)
  · exact (hlog.trans (acknowledged _ _ _)).weaken rfl (by decide)

end SetUp

end Tally

namespace State

def Event.awaited : Event → Option Pending
  | .command _ | .otherPacket _ | .nodeRemoved _ => none
  | .virtualAdded _ _ => some .virtualAdd
  | .associationSent i _ => some (.association i)
  | .routeAssigned _ => some .returnRoute
  | .removalSent i _ => some (.removal i)
  | .virtualRemoved => some .virtualRemove
  | .reportSent _ => some .report

def Event.isCallback (e : Event) : Bool :=
  e.awaited.isSome

theorem tally_deliver {s : State} (p : Pending) (hp : p ≠ .virtualAdd) {callback : State → State}
    (hcallback : ∀ t : State, Tally 1 p.acks t (callback t)) : Tally 0 0 s (s.deliver p callback) := by
  unfold deliver
  split_ifs with hmem
  · exact ((Tally.delivered hmem hp).trans (hcallback _)).weaken rfl (by omega)
  · exact Tally.of_eq rfl rfl rfl rfl

theorem tally_callback (env : Env) {s : State} (hs : Creating s) {e : Event} (he : e.isCallback) :
    Tally 0 0 s (s.step env e) := by
  let t : State := { s with clock := s.clock + 1 }
  have hclock : Tally 0 0 s t := Tally.of_eq rfl rfl rfl rfl
  have hhandled : Tally 0 0 t (t.handle env e) := by
    cases e with
    | command f | otherPacket f | nodeRemoved node => cases he
    | virtualAdded status newId =>
      change Tally 0 0 t (t.deliver .virtualAdd fun u => u.virtualAddCallback env status newId)
      unfold deliver
      split_ifs with hmem
      · exact Tally.virtualAddCallback env (hclock.creating hs) hmem status newId
      · exact Tally.of_eq rfl rfl rfl rfl
    | associationSent i status =>
      exact tally_deliver (.association i) (by simp) fun u => Tally.sendIpAssociationCmdCallback env u i status
    | routeAssigned status =>
      exact tally_deliver .returnRoute (by simp) fun u => Tally.assignReturnRouteCallback env u status
    | removalSent i status =>
      exact tally_deliver (.removal i) (by simp) fun u => Tally.removeCallback env u i status
    | virtualRemoved => exact tally_deliver .virtualRemove (by simp) fun u => Tally.continueWithNext env u
    | reportSent status =>
      exact tally_deliver .report (by simp) fun u => Tally.reportSendCompleted u status
  exact (hclock.trans hhandled).weaken rfl (by decide)

theorem tally_callbacks (env : Env) {answers : List Event} (hcallbacks : ∀ e ∈ answers, e.isCallback) :
    ∀ {s : State}, Creating s → Tally 0 0 s (s.run env answers) := by
  induction answers with
  | nil =>
    intro s hs
    exact Tally.of_eq rfl rfl rfl rfl
  | cons e answers ih =>
    intro s hs
    have hstep := tally_callback env hs (hcallbacks e List.mem_cons_self)
    have hrest := ih (fun e' he' => hcallbacks e' (List.mem_cons_of_mem e he')) (hstep.creating hs)
    exact (hstep.trans hrest).weaken rfl (by decide)

/-! ### Whole runs -/

/-- An operation is completed once, and once more for every fault; what is pending will do it. -/
theorem completions_of_operation {s t : State} {o : Out} (h : Tally 1 1 s t) (hidle : s.pending = [])
    (hout : s.out = [o]) (hop : o.isOperation) (hfault : o.isFault = false) :
    t.out.countP Out.isCompletion + t.pending.length = 1 + t.out.countP Out.isFault ∧
      t.out.countP Out.isAck + (t.pending.map Pending.acks).sum ≤ 1 + t.out.countP Out.isFault := by
  have hweights : o.dueCompletions = -1 ∧ o.dueAcks = -1 ∧ o.isLost = false := by
    cases o <;> simp_all [Out.dueCompletions, Out.dueAcks, Out.isCompletion, Out.isLost, Out.isOperation, Out.isAck]
  obtain ⟨hdue, hdueAcks, hlost⟩ := hweights
  have hoperations : t.out.countP Out.isOperation = 1 := by
    rw [h.operations, hout]
    simp [hop]
  have hlosses : t.out.countP Out.isLost = 0 := by
    rw [h.lost, hout]
    simp [hlost]
  have hcompletions := h.completions
  have hacks := h.acks
  simp only [completionBalance, hidle, hout, sum_dueCompletions t.out, hoperations, hlosses,
    List.map_cons, List.map_nil, List.sum_cons, List.sum_nil, List.length_nil, hdue] at hcompletions
  simp only [ackBalance, hidle, hout, sum_dueAcks t.out, hoperations, List.map_cons, List.map_nil,
    List.sum_cons, List.sum_nil, hdueAcks] at hacks
  omega

def SaysOk (s : State) : Prop :=
  ∃ o ∈ s.out, o.isOk

def fresh (s : State) : State :=
  { s with out := [] }

variable {s t : State}

theorem run_cons (env : Env) (s : State) (e : Event) (events : List Event) :
    s.run env (e :: events) = (s.step env e).run env events := rfl

theorem pending_refuse (hidle : s.pending = []) : s.refuse.pending = [] := by
  unfold refuse sendZipAck
  split_ifs <;> exact hidle

theorem step_of_not_pending (env : Env) {e : Event} (he : e.isCallback) (hnone : ∀ p ∈ s.pending, e.awaited ≠ some p) :
    s.step env e = { s with clock := s.clock + 1 } := by
  cases e with
  | command f | otherPacket f | nodeRemoved node => cases he
  | virtualAdded | associationSent | routeAssigned | removalSent | virtualRemoved | reportSent =>
    exact if_neg fun hmem => hnone _ hmem rfl

@[simp]
theorem saysOk_put (o : Out) : (s.put o).SaysOk ↔ o.isOk ∨ s.SaysOk :=
  List.exists_mem_cons_iff _ _ _

theorem not_saysOk_put {o : Out} (ho : o.isOk = false) (hok : ¬s.SaysOk) : ¬(s.put o).SaysOk := by
  simp [ho, hok]

theorem sendZipAck_error (hok : ¬s.SaysOk) {status : UInt8}
    (hstatus : status ≠ transmitCompleteOk) : ¬(s.sendZipAck status).SaysOk := by
  unfold State.sendZipAck
  rw [if_neg hstatus]
  split_ifs
  · simpa [Out.isOk] using hok
  · exact hok

theorem not_saysOk_refuse (hok : ¬s.SaysOk) : ¬s.refuse.SaysOk := by
  have hnack := sendZipAck_error hok (by decide : transmitCompleteError ≠ transmitCompleteOk)
  simpa [refuse, reportSendCompleted, Out.isOk, transmitCompleteError, transmitCompleteOk] using hnack

theorem creating_congr (hs : Creating s) (hpending : t.pending = s.pending)
    (hcb : t.createCb = s.createCb) (hadd : t.virtualAdd = s.virtualAdd) : Creating t := by
  refine ⟨?_, ?_, ?_⟩ <;> rw [hpending]
  · rw [hcb, hadd]
    exact hs.waiting
  · rw [hcb]
    exact hs.idle
  · exact hs.once

theorem creating_get (env : Env) (hs : Creating s) (f : Frame) : Creating (s.handleIpAssociationGet env f) := by
  let t := s.sendZipAck transmitCompleteOk
  have ht : Creating t := (Tally.sendZipAck s transmitCompleteOk).creating hs
  have hcompleted : Creating
      (if f.len.toNat < ipAssocGetFrameSize then t.reportSendCompleted transmitCompleteOk else t) := by
    split_ifs
    · exact (Tally.reportSendCompleted t transmitCompleteOk).creating ht
    · exact ht
  unfold handleIpAssociationGet
  dsimp only
  split_ifs at hcompleted ⊢
  all_goals
    first
    | exact (Tally.await _ (by simp)).creating (creating_congr hcompleted rfl rfl rfl)
    | exact creating_congr hcompleted rfl rfl rfl

theorem creating_command (env : Env) (hs : Creating s) (f : Frame) : Creating (s.handleIpAssociation env f) := by
  let t := { s with backup := f }.put (.handled f)
  have ht : Creating t := creating_congr hs rfl rfl rfl
  unfold handleIpAssociation
  dsimp only
  split_ifs
  · exact (Tally.reportSendCompleted t _).creating ht
  · exact (Tally.handleIpAssociationSet env ht f).creating ht
  · exact (Tally.handleIpAssociationRemove env t f).creating ht
  · exact creating_get env ht f
  · exact (Tally.reportSendCompleted t _).creating ht

theorem creating_step (env : Env) (s : State) (e : Event) (hs : Creating s) : Creating (s.step env e) := by
  have hclock : Creating { s with clock := s.clock + 1 } := creating_congr hs rfl rfl rfl
  cases e with
  | command f => exact creating_command env hclock f
  | otherPacket f => exact creating_congr hclock rfl rfl rfl
  | nodeRemoved node =>
    let t := { s with clock := s.clock + 1 }.findAndMarkForRemoval ⟨node, 0, 0, none⟩
    have ht : Creating (t.put (.nodeRemoved node t.marked)) := creating_congr hs rfl rfl rfl
    change Creating (State.removeByNodeid _ _ _)
    unfold removeByNodeid
    dsimp only
    split_ifs
    · exact (Tally.removeAllMarkedWith env (Tally.completes_continue env _)).creating ht
    · exact creating_congr ht rfl rfl rfl
  | virtualAdded | associationSent | routeAssigned | removalSent | virtualRemoved | reportSent =>
    exact (tally_callback env hs rfl).creating hs

theorem creating_run (env : Env) (events : List Event) : Creating (init.run env events) := by
  refine Machine.run_invariant (creating_step env) ⟨?_, ?_, ?_⟩ events
  · intro hmem
    cases hmem
  · intro _
    rfl
  · simp [init]

theorem run_of_idle (env : Env) {answers : List Event} (hcallbacks : ∀ e ∈ answers, e.isCallback) :
    ∀ {s : State}, s.pending = [] → (s.run env answers).out = s.out ∧ (s.run env answers).pending = [] := by
  induction answers with
  | nil =>
    intro s hidle
    exact ⟨rfl, hidle⟩
  | cons e answers ih =>
    intro s hidle
    have hstep := step_of_not_pending env (hcallbacks e List.mem_cons_self) (s := s) (by simp [hidle])
    have hidle' : (s.step env e).pending = [] := by
      rw [hstep]
      exact hidle
    obtain ⟨hout, hpending⟩ := ih (fun e' he' => hcallbacks e' (List.mem_cons_of_mem e he')) hidle'
    refine ⟨hout.trans ?_, hpending⟩
    rw [hstep]

end State

end ZipGateway.IpAssoc

import Mathlib.Data.List.Induction
import ZipGateway.Directory.State

/-!
# Telling the nodes who the SUC is

`send_suc_id` goes to the next node with each callback and each time-out. The node it has come to is a
static variable, which nothing sets back.
-/

namespace ZipGateway.Directory

/-- What `send_suc_id` asks of its surroundings; `behind` is the entry found behind the node database. -/
structure Network where
  myNodeId : Nat
  registered : Nat → Bool
  isVirtual : Nat → Bool
  isController : Nat → Bool
  accepts : Nat → Bool
  behind : Option Nat
  myNodeId_le : myNodeId ≤ zwMaxNodes

namespace Network

def rdNodeGetRaw (net : Network) (node : Nat) : Option Nat :=
  if node ≤ zwMaxNodes then if net.registered node then some node else none else net.behind

def Told (net : Network) (node : Nat) : Prop :=
  0 < node ∧ node ≤ zwMaxNodes ∧ node ≠ net.myNodeId ∧ net.registered node = true ∧ net.isVirtual node = false

instance decidableTold (net : Network) (node : Nat) : Decidable (net.Told node) :=
  inferInstanceAs (Decidable (_ ∧ _))

end Network

inductive SucAct where
  | read (node : Nat)
  | send (node : Nat)
  | posted
deriving DecidableEq

/-- `current_send_suc_id_dest`, whether `send_suc_id_timer` runs, the number of callbacks that have not
come, `suc_changed`, and what was done. -/
structure Announcer where
  dest : Nat
  timer : Bool
  waiting : Nat
  sucChanged : Bool
  log : List SucAct

inductive Answer where
  | callback
  | timeout
deriving DecidableEq

/-- The SUC role changes, all probes have finished, or an answer comes. -/
inductive SucEvent where
  | changed
  | probed
  | answer (a : Answer)

namespace Announcer

def start : Announcer where
  dest := 0
  timer := false
  waiting := 0
  sucChanged := false
  log := []

def record (s : Announcer) (act : SucAct) : Announcer :=
  { s with log := s.log ++ [act] }

/-- One round of `send_suc_id`, with whether it waits for a callback: not for a controller that cannot be sent
to. -/
def round (net : Network) (s : Announcer) : Announcer × Bool :=
  let s := { s with dest := s.dest + 1 }
  if s.dest = net.myNodeId then (s, false)
  else
    let s := s.record (.read s.dest)
    match net.rdNodeGetRaw s.dest with
    | none => (s, false)
    | some node =>
      if net.isVirtual node then (s, false)
      else
        let s := { s with timer := true }.record (.send node)
        if net.isController node ∧ net.accepts node = false then ({ s with timer := false }, false)
        else ({ s with waiting := s.waiting + 1 }, true)

def sendFrom (net : Network) : Nat → Announcer → Announcer
  | 0, s => s
  | fuel + 1, s =>
    if s.dest ≤ zwMaxNodes then
      match round net s with
      | (s, true) => s
      | (s, false) => sendFrom net fuel s
    else s.record .posted

def sendSucId (net : Network) (s : Announcer) : Announcer :=
  sendFrom net (zwMaxNodes + 2) s

/-- `send_suc_id_cb` and `send_suc_id_slave_cb`, and `send_suc_id_timeout`. -/
def answer (net : Network) (s : Announcer) : Answer → Announcer
  | .callback =>
    if s.waiting = 0 then s else sendSucId net { s with waiting := s.waiting - 1, timer := false }
  | .timeout => if s.timer then sendSucId net { s with timer := false } else s

def probed (net : Network) (s : Announcer) : Announcer :=
  if s.sucChanged then sendSucId net { s with sucChanged := false } else s.record .posted

def step (net : Network) (s : Announcer) : SucEvent → Announcer
  | .changed => { s with sucChanged := true }
  | .probed => probed net s
  | .answer a => s.answer net a

def run (s : Announcer) (inputs : List (Network × SucEvent)) : Announcer :=
  inputs.foldl (fun s x => step x.1 s x.2) s

def chain (net : Network) (s : Announcer) (answers : List Answer) : Announcer :=
  answers.foldl (answer net) (probed net { s with sucChanged := true, log := [] })

def Idle (s : Announcer) : Prop :=
  s.timer = false ∧ s.waiting = 0

/-- After a change the SUC id is sent to every node once, then the event is posted once, and only the
entries of the database are read, whatever order the answers come in. -/
structure AnnouncesRight (net : Network) (s : Announcer) : Prop where
  once : ∀ answers node, (chain net s answers).log.count (.send node) ≤ if net.Told node then 1 else 0
  before : ∀ answers, .posted ∈ (chain net s answers).log →
    ∀ node, net.Told node → .send node ∈ (chain net s answers).log
  posted : ∀ answers, (chain net s answers).log.count .posted ≤ 1
  finishes : ∀ answers, (chain net s answers).Idle → .posted ∈ (chain net s answers).log
  index : ∀ answers node, .read node ∈ (chain net s answers).log → 0 < node ∧ node ≤ zwMaxNodes

section Loop

variable {net : Network} {s : Announcer} {fuel : Nat}

def actsAt (net : Network) (node : Nat) : List SucAct :=
  if node = net.myNodeId then []
  else .read node ::
    match net.rdNodeGetRaw node with
    | none => []
    | some n => if net.isVirtual n then [] else [.send n]

theorem round_dest : (round net s).1.dest = s.dest + 1 := by
  dsimp only [round]
  split
  · rfl
  split
  · rfl
  split
  · rfl
  split <;> rfl

theorem round_log : (round net s).1.log = s.log ++ actsAt net (s.dest + 1) := by
  dsimp only [round, actsAt, record]
  by_cases hown : s.dest + 1 = net.myNodeId
  · rw [if_pos hown, if_pos hown, List.append_nil]
  rw [if_neg hown, if_neg hown]
  cases hraw : net.rdNodeGetRaw (s.dest + 1) with
  | none => rfl
  | some node =>
    dsimp only
    by_cases hvirtual : net.isVirtual node = true
    · rw [if_pos hvirtual, if_pos hvirtual]
    · rw [if_neg hvirtual, if_neg hvirtual]
      split
      · exact List.append_assoc _ _ _
      · exact List.append_assoc _ _ _

theorem round_waits : if (round net s).2 then (round net s).1.timer = true
    else (round net s).1.waiting = s.waiting := by
  dsimp only [round, record]
  split
  · exact rfl
  split
  · exact rfl
  split
  · exact rfl
  split
  · exact rfl
  · exact rfl

theorem read_mem_actsAt {node : Nat} (h : node ≠ net.myNodeId) : .read node ∈ actsAt net node := by
  rw [actsAt, if_neg h]
  exact List.mem_cons_self

theorem sendSucId_of_lt (h : zwMaxNodes < s.dest) : sendSucId net s = s.record .posted := by
  rw [sendSucId, sendFrom, if_neg (Nat.not_le_of_lt h)]

structure Advances (net : Network) (s r : Announcer) : Prop where
  lt : s.dest < r.dest
  le : r.dest ≤ zwMaxNodes + 1
  keeps : s.log ⊆ r.log
  reads : ∀ node, s.dest < node → node ≤ r.dest → node ≠ net.myNodeId → .read node ∈ r.log
  goesOn : r.timer = true ∨ r.dest = zwMaxNodes + 1

theorem Advances.round {r : Announcer} (hlt : s.dest < r.dest) (hle : r.dest ≤ zwMaxNodes + 1)
    (hkeeps : (round net s).1.log ⊆ r.log)
    (hreads : ∀ node, s.dest + 1 < node → node ≤ r.dest → node ≠ net.myNodeId → .read node ∈ r.log)
    (hgoesOn : r.timer = true ∨ r.dest = zwMaxNodes + 1) : Advances net s r := by
  rw [round_log] at hkeeps
  refine ⟨hlt, hle, fun act hact => hkeeps (List.mem_append_left _ hact), fun node hnode hnode' hown => ?_, hgoesOn⟩
  by_cases hfirst : node = s.dest + 1
  · rw [hfirst] at hown ⊢
    exact hkeeps (List.mem_append_right _ (read_mem_actsAt hown))
  · exact hreads node (by omega) hnode' hown

theorem advances_sendFrom (hle : s.dest ≤ zwMaxNodes) (hfuel : zwMaxNodes + 2 ≤ s.dest + fuel) :
    Advances net s (sendFrom net fuel s) := by
  induction fuel generalizing s with
  | zero => omega
  | succ fuel ih =>
    have hdest := @round_dest net s
    have hwaits := @round_waits net s
    rw [sendFrom, if_pos hle]
    rcases hround : Announcer.round net s with ⟨t, stop⟩
    have hlog : (Announcer.round net s).1.log = t.log := by rw [hround]
    rw [hround] at hdest hwaits
    cases stop with
    | true =>
      dsimp only at hdest hwaits ⊢
      refine Advances.round (by omega) (by omega) (fun act hact => hlog ▸ hact) (fun node h h' => ?_) (.inl hwaits)
      omega
    | false =>
      dsimp only at hdest ⊢
      by_cases hend : t.dest ≤ zwMaxNodes
      · have hrest := ih hend (by omega)
        have hlt := hrest.lt
        exact Advances.round (by omega) hrest.le (fun act hact => hrest.keeps (hlog ▸ hact))
          (fun node h h' hown => hrest.reads node (by omega) h' hown) hrest.goesOn
      · have hpost : sendFrom net fuel t = t.record .posted := by
          obtain ⟨fuel, rfl⟩ := Nat.exists_eq_add_of_lt (show 0 < fuel by omega)
          rw [sendFrom, if_neg hend]
        have hrecord : (t.record .posted).dest = t.dest := rfl
        rw [hpost]
        refine Advances.round (by omega) (by omega) (fun act hact => List.mem_append_left _ (hlog ▸ hact))
          (fun node h h' => ?_) (.inr (by omega))
        omega

theorem advances_sendSucId (hle : s.dest ≤ zwMaxNodes) : Advances net s (sendSucId net s) :=
  advances_sendFrom hle (Nat.le_add_left _ _)

end Loop

section Chain

variable {net : Network} {s : Announcer} {answers : List Answer}

theorem chain_nil (net : Network) (s : Announcer) :
    chain net s [] = sendSucId net { s with sucChanged := false, log := [] } :=
  rfl

theorem chain_append (a : Answer) : chain net s (answers ++ [a]) = (chain net s answers).answer net a := by
  rw [chain, List.foldl_append]
  rfl

theorem exists_chain_end (hle : s.dest ≤ zwMaxNodes) (k : Nat) :
    ∃ answers, (∀ node, s.dest < node → node ≤ (chain net s answers).dest → node ≠ net.myNodeId →
        .read node ∈ (chain net s answers).log) ∧
      ((chain net s answers).dest = zwMaxNodes + 1 ∨
        (chain net s answers).timer = true ∧ s.dest + k < (chain net s answers).dest ∧
          (chain net s answers).dest ≤ zwMaxNodes) := by
  induction k with
  | zero =>
    have hfirst : Advances net { s with sucChanged := false, log := [] } (chain net s []) := advances_sendSucId hle
    refine ⟨[], hfirst.reads, ?_⟩
    have hlt : s.dest < (chain net s []).dest := hfirst.lt
    have hend := hfirst.le
    rcases hfirst.goesOn with htimer | hdest
    · by_cases hdest : (chain net s []).dest = zwMaxNodes + 1
      · exact .inl hdest
      · exact .inr ⟨htimer, hlt, by omega⟩
    · exact .inl hdest
  | succ k ih =>
    obtain ⟨answers, hreads, hdest | ⟨htimer, hlt, hend⟩⟩ := ih
    · exact ⟨answers, hreads, .inl hdest⟩
    have hnext : chain net s (answers ++ [.timeout]) = sendSucId net { chain net s answers with timer := false } := by
      rw [chain_append, answer, if_pos htimer]
    have hadvances : Advances net { chain net s answers with timer := false }
        (chain net s (answers ++ [.timeout])) := hnext ▸ advances_sendSucId hend
    have hlt' : (chain net s answers).dest < (chain net s (answers ++ [.timeout])).dest := hadvances.lt
    have hend' := hadvances.le
    refine ⟨answers ++ [.timeout], fun node hnode hnode' hown => ?_, ?_⟩
    · by_cases hpassed : node ≤ (chain net s answers).dest
      · exact hadvances.keeps (hreads node hnode hpassed hown)
      · exact hadvances.reads node (Nat.lt_of_not_le hpassed) hnode' hown
    · rcases hadvances.goesOn with htimer' | hdest
      · by_cases hdest : (chain net s (answers ++ [.timeout])).dest = zwMaxNodes + 1
        · exact .inl hdest
        · exact .inr ⟨htimer', by omega, by omega⟩
      · exact .inl hdest

theorem exists_read_behind (hle : s.dest ≤ zwMaxNodes) :
    ∃ answers, .read (zwMaxNodes + 1) ∈ (chain net s answers).log := by
  obtain ⟨answers, hreads, hdest | ⟨-, hlt, hend⟩⟩ := @exists_chain_end net s hle zwMaxNodes
  · have hown := net.myNodeId_le
    exact ⟨answers, hreads _ (by omega) (by omega) (by omega)⟩
  · omega

theorem not_announcesRight_of_le (hle : s.dest ≤ zwMaxNodes) : ¬ AnnouncesRight net s := by
  intro h
  obtain ⟨answers, hread⟩ := @exists_read_behind net s hle
  have hindex := (h.index answers _ hread).2
  omega

theorem chain_nil_of_lt (h : zwMaxNodes < s.dest) :
    chain net s [] = { s with sucChanged := false, log := [.posted] } := by
  rw [chain_nil, sendSucId_of_lt]
  · rfl
  · exact h

theorem not_announcesRight_of_answer (h : zwMaxNodes < s.dest) (hidle : ¬ s.Idle) : ¬ AnnouncesRight net s := by
  intro hright
  have htwice : ∃ a, (chain net s ([] ++ [a])).log = [.posted, .posted] := by
    by_cases htimer : s.timer = true
    · refine ⟨.timeout, ?_⟩
      rw [chain_append, chain_nil_of_lt h, answer, if_pos htimer, sendSucId_of_lt]
      · rfl
      · exact h
    · have hwaiting : s.waiting ≠ 0 := fun hzero => hidle ⟨Bool.eq_false_iff.mpr htimer, hzero⟩
      refine ⟨.callback, ?_⟩
      rw [chain_append, chain_nil_of_lt h, answer, if_neg hwaiting, sendSucId_of_lt]
      · rfl
      · exact h
  obtain ⟨a, hlog⟩ := htwice
  have hposted := hright.posted ([] ++ [a])
  rw [hlog] at hposted
  exact absurd hposted (by decide)

theorem chain_of_idle (h : zwMaxNodes < s.dest) (hidle : s.Idle) (answers : List Answer) :
    chain net s answers = { s with sucChanged := false, log := [.posted] } := by
  induction answers using List.reverseRecOn with
  | nil => exact chain_nil_of_lt h
  | append_singleton answers a ih =>
    rw [chain_append, ih]
    cases a with
    | callback => exact if_pos hidle.2
    | timeout => exact if_neg (by simp [hidle.1])

theorem announcesRight_iff_of_state (net : Network) (s : Announcer) :
    AnnouncesRight net s ↔ zwMaxNodes < s.dest ∧ (∀ node, ¬ net.Told node) ∧ s.Idle := by
  constructor
  · intro h
    have hend : zwMaxNodes < s.dest := by
      by_contra hle
      exact not_announcesRight_of_le (Nat.le_of_not_lt hle) h
    refine ⟨hend, fun node htold => ?_, ?_⟩
    · have hsent := h.before []
      rw [chain_nil_of_lt hend] at hsent
      exact absurd (hsent List.mem_cons_self node htold) (by simp)
    · by_contra hidle
      exact not_announcesRight_of_answer hend hidle h
  · rintro ⟨hend, hnone, hidle⟩
    have hlog : ∀ answers, (chain net s answers).log = [.posted] := fun answers => by
      rw [chain_of_idle hend hidle]
    refine ⟨fun answers node => ?_, fun answers _ node htold => absurd htold (hnone node), fun answers => ?_,
      fun answers _ => ?_, fun answers node hread => ?_⟩
    · rw [hlog]
      exact Nat.zero_le _
    · rw [hlog]
      exact Nat.le_refl _
    · rw [hlog]
      exact List.mem_cons_self
    · rw [hlog] at hread
      cases List.mem_singleton.mp hread

/-- In every run, an announcement is right only if an earlier one has come to the end, no node is to be told,
and no answer is still to come. -/
theorem announcesRight_iff (inputs : List (Network × SucEvent)) (net : Network) :
    AnnouncesRight net (run start inputs) ↔ zwMaxNodes < (run start inputs).dest ∧
      (∀ node, ¬ net.Told node) ∧ (run start inputs).Idle :=
  announcesRight_iff_of_state net _

def oneSlave : Network where
  myNodeId := 1
  registered := fun node => node = 1 || node = 2
  isVirtual := fun _ => false
  isController := fun _ => false
  accepts := fun _ => true
  behind := none
  myNodeId_le := by decide

theorem oneSlave_not_announcesRight : ¬ AnnouncesRight oneSlave (run start []) :=
  not_announcesRight_of_le (Nat.zero_le _)

end Chain

section Told

variable {net : Network} {s t : Announcer} {base fuel : Nat} {answers : List Answer}

def sent? : SucAct → Option Nat
  | .send node => some node
  | _ => none

/-- A chain that began behind `base` has told the nodes up to the one it has come to, in order and each of
them once, and has posted the event only at the end. -/
structure Accounts (net : Network) (base : Nat) (s : Announcer) : Prop where
  le : base ≤ s.dest
  sends : s.log.filterMap sent? = (List.range' (base + 1) (s.dest - base)).filter fun node => net.Told node
  posted : .posted ∈ s.log → zwMaxNodes < s.dest

theorem sends_actsAt (hbehind : net.behind = none) {node : Nat} (hpos : 0 < node) :
    (actsAt net node).filterMap sent? = [node].filter fun node => net.Told node := by
  have htold : decide (net.Told node) = (decide (node ≤ zwMaxNodes) && decide (node ≠ net.myNodeId) &&
      net.registered node && !net.isVirtual node) := by
    rw [Bool.eq_iff_iff]
    simp [Network.Told, hpos, and_assoc]
  rw [List.filter_singleton, htold, actsAt, Network.rdNodeGetRaw, hbehind]
  by_cases hown : node = net.myNodeId
  · simp [hown]
  by_cases hle : node ≤ zwMaxNodes
  · cases net.registered node with
    | false => simp [hown, hle, sent?]
    | true => cases hvirtual : net.isVirtual node <;> simp [hown, hle, hvirtual, List.filterMap_cons, sent?]
  · simp [hown, hle, sent?]

theorem posted_notMem_actsAt (net : Network) (node : Nat) : SucAct.posted ∉ actsAt net node := by
  unfold actsAt
  split
  · simp
  · cases net.rdNodeGetRaw node with
    | none => simp
    | some n =>
      dsimp only
      split <;> simp

theorem Accounts.congr (h : Accounts net base s) (hdest : t.dest = s.dest) (hlog : t.log = s.log) :
    Accounts net base t :=
  ⟨hdest ▸ h.le, by rw [hlog, hdest, h.sends], by rw [hlog, hdest]; exact h.posted⟩

theorem Accounts.round (hbehind : net.behind = none) (h : Accounts net base s) :
    Accounts net base (round net s).1 where
  le := by
    rw [round_dest]
    exact h.le.trans (Nat.le_succ _)
  sends := by
    have hle := h.le
    have hlast : base + 1 + (s.dest - base) = s.dest + 1 := by omega
    rw [round_dest, round_log, List.filterMap_append, h.sends, sends_actsAt hbehind (Nat.succ_pos _),
      Nat.succ_sub hle, List.range'_1_concat, List.filter_append, hlast]
  posted hposted := by
    rw [round_log, List.mem_append] at hposted
    rw [round_dest]
    exact Nat.lt_succ_of_lt (h.posted (hposted.resolve_right (posted_notMem_actsAt net _)))

theorem Accounts.post (h : Accounts net base s) (hend : zwMaxNodes < s.dest) : Accounts net base (s.record .posted) :=
  ⟨h.le, by rw [record, List.filterMap_append, h.sends]; exact List.append_nil _, fun _ => hend⟩

theorem Accounts.sendFrom (hbehind : net.behind = none) (h : Accounts net base s) :
    Accounts net base (sendFrom net fuel s) := by
  induction fuel generalizing s with
  | zero => exact h
  | succ fuel ih =>
    have hround := h.round hbehind
    rw [Announcer.sendFrom]
    split
    · rcases hnext : Announcer.round net s with ⟨t, stop⟩
      rw [hnext] at hround
      cases stop with
      | true => exact hround
      | false => exact ih hround
    · exact h.post (by omega)

theorem Accounts.answer (hbehind : net.behind = none) (h : Accounts net base s) (a : Answer) :
    Accounts net base (s.answer net a) := by
  cases a with
  | callback =>
    rw [Announcer.answer]
    split
    · exact h
    · exact Accounts.sendFrom hbehind (h.congr rfl rfl)
  | timeout =>
    rw [Announcer.answer]
    split
    · exact Accounts.sendFrom hbehind (h.congr rfl rfl)
    · exact h

/-- Where nothing is found behind the database, a chain tells the nodes behind the one it began at, whatever
the answers are. -/
theorem accounts_chain (hbehind : net.behind = none) (s : Announcer) (answers : List Answer) :
    Accounts net s.dest (chain net s answers) := by
  induction answers using List.reverseRecOn with
  | nil =>
    have hstart : Accounts net s.dest { s with sucChanged := false, log := [] } :=
      ⟨Nat.le_refl _, by simp, fun h => absurd h List.not_mem_nil⟩
    exact hstart.sendFrom hbehind
  | append_singleton answers a ih =>
    rw [chain_append]
    exact ih.answer hbehind a

theorem sends_of_posted (hbehind : net.behind = none) (hposted : .posted ∈ (chain net s answers).log) {node : Nat}
    (hnode : s.dest < node) (htold : net.Told node) : .send node ∈ (chain net s answers).log := by
  have haccounts := accounts_chain hbehind s answers
  have hend := haccounts.posted hposted
  have hmem : node ∈ (chain net s answers).log.filterMap sent? := by
    rw [haccounts.sends, List.mem_filter, List.mem_range'_1]
    have hle := htold.2.1
    exact ⟨⟨by omega, by omega⟩, decide_eq_true htold⟩
  obtain ⟨act, hact, heq⟩ := List.mem_filterMap.mp hmem
  cases act with
  | send n => exact Option.some.inj heq ▸ hact
  | read n => cases heq
  | posted => cases heq

end Told

end Announcer

end ZipGateway.Directory

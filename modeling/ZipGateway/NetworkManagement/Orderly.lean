import Mathlib.Data.List.Find
import ZipGateway.NetworkManagement.Queue

/-!
# The queue serves every command once

A command that was accepted is in the queue or has its one final answer, and the commands of a node are
passed on in the order in which they came. That holds as long as the end of a probe finds the node id it
was given, and nothing that happens while a command is executed ends it, starts another one or takes it
out of the queue.
-/

namespace ZipGateway.NmQueue

open Function (update update_of_ne update_self)

open Machine (Admissible)

section Log

def Out.final? : Out → Option Nat
  | .udpAck number _ .ack => some number
  | .udpAck number _ .nak => some number
  | _ => none

def Out.taken? : Out → Option (Nat × NodeId)
  | .answered number node false => some (number, node)
  | _ => none

def Out.acked? : Out → Option Nat
  | .udpAck number _ .ack => some number
  | _ => none

def underway (log : List Out) : Bool :=
  log.foldl (fun u x =>
    match x with
    | .passed _ => true
    | .done => false
    | _ => u) false

@[simp]
theorem underway_append (log : List Out) (x : Out) : underway (log ++ [x]) =
      match x with
      | .passed _ => true
      | .done => false
      | _ => underway log := by
  simp only [underway, List.foldl_append, List.foldl_cons, List.foldl_nil]

end Log

namespace State

variable (s : State)

def finals : List Nat :=
  s.log.filterMap Out.final?

def taken : List (Nat × NodeId) :=
  s.log.filterMap Out.taken?

def served (node : NodeId) : List Nat :=
  (s.taken.filter fun x => x.2 = node).map Prod.fst

def numbers : List Nat :=
  s.queue.map fun e => (s.elements e).number

end State

structure Orderly (s : State) : Prop where
  once : ∀ number, (s.taken.map Prod.fst).count number ≤ 1
  inOrder : ∀ node, (s.served node).Pairwise (· < ·)
  answered : ∀ number, number < s.accepted → s.finals.count number = if number ∈ s.numbers then 0 else 1
  noMisuse : ∀ e, .misused e ∉ s.log
  probed : ∀ probed node, .woken probed node ∈ s.log → node = probed
  idle : underway s.log = false → s.currentExecutingNode = 0

def Starts (s : State) (node : NodeId) : Prop :=
  (s.findElement node).isSome ∧ (s.currentExecutingNode = 0 ∨ s.currentExecutingNode = node)

instance (s : State) (node : NodeId) : Decidable (Starts s node) :=
  inferInstanceAs (Decidable (_ ∧ _))

def Harmless (node : NodeId) (s : State) : Event → Prop
  | .command _ cmd _ _ air _ _ => air = .ended transmitCompleteOk → ¬Starts s (getTargetNode cmd)
  | .wakeup other _ _ => ¬Starts s other
  | .probed k status slot _ _ =>
    status = transmitCompleteOk → s.probes[k]? = some slot ∧ ¬Starts s slot
  | .nmDone _ _ => False
  | .purgeNode other => other ≠ node
  | .purgeAll => False
  | .timeout _ => True

def Undisturbed (s : State) (node : NodeId) (nested : List Event) : Prop :=
  match s.findElement node with
  | some e => Starts s node →
      Admissible step (Harmless node) (s.put (.passed (s.elements e).number)) nested
  | none => True

/-- The end of a probe finds the node id that was probed, and calls are undisturbed. -/
def Allowed (s : State) : Event → Prop
  | .command _ cmd _ _ air nested _ => air = .ended transmitCompleteOk →
      Undisturbed ((s.put (.probeSent (getTargetNode cmd))).put
        (.woken (getTargetNode cmd) (getTargetNode cmd))) (getTargetNode cmd) nested
  | .wakeup node nested _ => Undisturbed s node nested
  | .probed k status slot nested _ => status = transmitCompleteOk → ∀ node, s.probes[k]? = some node →
      slot = node ∧ Undisturbed ({ s with probes := s.probes.eraseIdx k }.put (.woken node node)) node nested
  | .nmDone nested _ => Undisturbed (s.put .done) s.currentExecutingNode nested
  | _ => True

/-- The invariant, less what `currentExecutingNode` is. -/
structure Sound (s : State) : Prop where
  nodup : s.queue.Nodup
  used : ∀ e, s.used e = true ↔ e ∈ s.queue
  perm : (s.finals ++ s.numbers).Perm (List.range s.accepted)
  numbers : s.numbers.Pairwise (· < ·)
  acked : s.taken.map Prod.fst = s.log.filterMap Out.acked?
  inOrder : ∀ node, (s.served node).Pairwise (· < ·)
  earlier : ∀ x ∈ s.taken, ∀ e ∈ s.queue, (s.elements e).destinationNode = x.2 → x.1 < (s.elements e).number
  noMisuse : ∀ e, .misused e ∉ s.log
  probed : ∀ probed node, .woken probed node ∈ s.log → node = probed

theorem sound_init : Sound .init where
  nodup := by simp [State.init]
  used := by simp [State.init]
  perm := by simp [State.init, State.finals, State.numbers]
  numbers := by simp [State.init, State.numbers]
  acked := by simp [State.init, State.taken]
  inOrder := by simp [State.init, State.served, State.taken]
  earlier := by simp [State.init]
  noMisuse := by simp [State.init]
  probed := by simp [State.init]

variable {s t : State} {node : NodeId} {e : Block}

def Out.isNeutral : Out → Bool
  | .accepted _ _ => true
  | .udpAck _ _ .waiting => true
  | .passed _ => true
  | .answered _ _ true => true
  | .probeSent _ => true
  | .woken probed node => node = probed
  | .done => true
  | .mailboxWakeup _ => true
  | _ => false

theorem neutral_spec {x : Out} (h : x.isNeutral = true) :
    x.final? = none ∧ x.taken? = none ∧ x.acked? = none ∧ (∀ e, x ≠ .misused e) ∧ ∀ p n, x = .woken p n → n = p := by
  cases x with
  | accepted | passed | probeSent | done | mailboxWakeup =>
    exact ⟨rfl, rfl, rfl, nofun, nofun⟩
  | udpAck number conn status =>
    cases status with
    | waiting => exact ⟨rfl, rfl, rfl, nofun, nofun⟩
    | _ => nomatch h
  | answered number node busy =>
    cases busy with
    | true => exact ⟨rfl, rfl, rfl, nofun, nofun⟩
    | false => nomatch h
  | woken probed node =>
    refine ⟨rfl, rfl, rfl, nofun, fun p n hwoken => ?_⟩
    obtain ⟨rfl, rfl⟩ := Out.woken.inj hwoken
    exact of_decide_eq_true h
  | misused => nomatch h

theorem Sound.put (h : Sound s) {x : Out} (hx : x.isNeutral = true) : Sound (s.put x) := by
  obtain ⟨hfinal, htaken, hacked, hmisused, hwoken⟩ := neutral_spec hx
  have hfinals : (s.put x).finals = s.finals := by simp [State.finals, State.put, hfinal]
  have htakens : (s.put x).taken = s.taken := by simp [State.taken, State.put, htaken]
  have hserved : (s.put x).served = s.served := by
    funext node
    simp [State.served, htakens]
  refine ⟨h.nodup, h.used, ?_, h.numbers, ?_, ?_, ?_, ?_, ?_⟩
  · rw [hfinals]
    exact h.perm
  · rw [htakens, h.acked]
    simp [State.put, hacked]
  · rw [hserved]
    exact h.inOrder
  · rw [htakens]
    exact h.earlier
  · intro e he
    obtain he | he := List.mem_append.mp he
    · exact h.noMisuse e he
    · exact hmisused e (List.mem_singleton.mp he).symm
  · intro p n hp
    obtain hp | hp := List.mem_append.mp hp
    · exact h.probed p n hp
    · exact hwoken p n (List.mem_singleton.mp hp).symm

theorem Sound.setProbes (h : Sound s) (probes : List NodeId) : Sound { s with probes := probes } :=
  ⟨h.nodup, h.used, h.perm, h.numbers, h.acked, h.inOrder, h.earlier, h.noMisuse, h.probed⟩

theorem Sound.setExecuting (h : Sound s) (node : NodeId) : Sound { s with currentExecutingNode := node } :=
  ⟨h.nodup, h.used, h.perm, h.numbers, h.acked, h.inOrder, h.earlier, h.noMisuse, h.probed⟩

theorem acked_sublist_finals (log : List Out) : (log.filterMap Out.acked?).Sublist (log.filterMap Out.final?) := by
  induction log with
  | nil => exact .slnil
  | cons x log ih =>
    cases x with
    | udpAck number conn status =>
      cases status with
      | ack => exact ih.cons_cons number
      | nak => exact ih.cons number
      | waiting => exact ih
    | _ => exact ih

theorem Sound.taken_lt (h : Sound s) {x : Nat × NodeId} (hx : x ∈ s.taken) : x.1 < s.accepted := by
  have hacked : x.1 ∈ s.log.filterMap Out.acked? := by
    rw [← h.acked]
    exact List.mem_map_of_mem hx
  have hfinal : x.1 ∈ s.finals := (acked_sublist_finals s.log).subset hacked
  exact List.mem_range.mp (h.perm.subset (List.mem_append_left _ hfinal))

theorem Sound.number_lt (h : Sound s) (he : e ∈ s.queue) : (s.elements e).number < s.accepted := by
  have : (s.elements e).number ∈ s.numbers := List.mem_map_of_mem he
  exact List.mem_range.mp (h.perm.subset (List.mem_append_right _ this))

section Command

variable (conn : Conn) (cmd : Bytes)

theorem membAlloc_spec (he : s.membAlloc = some e) : s.used e = false := by
  have := List.find?_some he
  simpa using this

theorem Sound.queueCommand (h : Sound s) : Sound (s.queueCommand conn node cmd) := by
  unfold State.queueCommand
  split
  · exact h
  rename_i e he
  have hfree : e ∉ s.queue := by
    rw [← h.used, membAlloc_spec he]
    simp
  have hne : ∀ f ∈ s.queue, f ≠ e := fun f hf hfe => hfree (hfe ▸ hf)
  have herase : s.queue.erase e = s.queue := List.erase_of_not_mem hfree
  have hmap : s.queue.map (fun f =>
      (update s.elements e ⟨s.accepted, node, conn, cmd, true⟩ f).number) = s.numbers := by
    refine List.map_congr_left fun f hf => ?_
    rw [update_of_ne (hne f hf)]
  refine ⟨?_, ?_, ?_, ?_, ?_, ?_, ?_, ?_, ?_⟩
  · simp only [herase]
    exact List.nodup_append.mpr ⟨h.nodup, by simp, by simpa using hne⟩
  · intro f
    by_cases hfe : f = e
    · simp [hfe]
    · simp [hfe, herase, update_of_ne, h.used]
  · have hperm := h.perm.append_right [s.accepted]
    rw [State.numbers] at hperm
    simp only [State.finals, State.numbers, herase, List.map_append, hmap]
    simpa [Out.final?, List.filterMap_cons, List.range_succ, State.finals, List.append_assoc] using hperm
  · simp only [State.numbers, herase, List.map_append, hmap]
    refine List.pairwise_append.mpr ⟨h.numbers, by simp, ?_⟩
    intro x hx y hy
    obtain ⟨f, hf, rfl⟩ := List.mem_map.mp hx
    simp only [List.map_cons, update_self, List.map_nil, List.mem_singleton] at hy
    rw [hy]
    exact h.number_lt hf
  · simpa [State.taken, Out.taken?, Out.acked?, List.filterMap_cons] using h.acked
  · simpa [State.served, State.taken, Out.taken?, List.filterMap_cons] using h.inOrder
  · intro x hx f hf hdest
    have htaken : x ∈ s.taken := by simpa [State.taken, Out.taken?, List.filterMap_cons] using hx
    simp only [herase, List.mem_append, List.mem_singleton] at hf
    obtain hf | rfl := hf
    · simp only [update_of_ne (hne f hf)] at hdest ⊢
      exact h.earlier x htaken f hf hdest
    · simp only [update_self]
      exact h.taken_lt htaken
  · simpa using h.noMisuse
  · simpa using h.probed

theorem findElement_queueCommand (h : Sound s) {other : NodeId} (he : s.findElement other = some e) :
    (s.queueCommand conn node cmd).findElement other = some e ∧
      (s.queueCommand conn node cmd).elements e = s.elements e := by
  have hmem : e ∈ s.queue := List.mem_of_find?_eq_some he
  unfold State.queueCommand
  split
  · exact ⟨he, rfl⟩
  rename_i f hf
  have hfree : f ∉ s.queue := by
    rw [← h.used, membAlloc_spec hf]
    simp
  have hne : e ≠ f := fun heq => hfree (heq ▸ hmem)
  refine ⟨?_, update_of_ne hne _ _⟩
  have hsame : ∀ g ∈ s.queue,
      decide ((update s.elements f ⟨s.accepted, node, conn, cmd, true⟩ g).destinationNode =
        other) = decide ((s.elements g).destinationNode = other) := by
    intro g hg
    have hgf : g ≠ f := fun heq => hfree (heq ▸ hg)
    rw [update_of_ne hgf]
  rw [State.findElement] at he ⊢
  simp only [List.erase_of_not_mem hfree, List.find?_append]
  rw [List.find?_congr hsame, he, Option.some_or]

end Command

section Removal

theorem elements_removeElement (s : State) (e f : Block) (status : Response) :
    ((s.removeElement e status).elements f).number = (s.elements f).number ∧
      ((s.removeElement e status).elements f).destinationNode = (s.elements f).destinationNode := by
  by_cases hfe : f = e <;> simp [State.removeElement, hfe, update_of_ne]

theorem numbers_removeElement (s : State) (e : Block) (status : Response) :
    (s.removeElement e status).numbers = (s.queue.erase e).map fun f => (s.elements f).number := by
  refine List.map_congr_left fun f _ => ?_
  exact (elements_removeElement s e f status).1

theorem log_removeElement (h : s.used e = true) (status : Response) : (s.removeElement e status).log =
      s.log ++ [.udpAck (s.elements e).number (s.elements e).conn status] := by
  simp [State.removeElement, h]

theorem Sound.used_removeElement (h : Sound s) (he : e ∈ s.queue) (status : Response) (f : Block) :
    (s.removeElement e status).used f = true ↔ f ∈ (s.removeElement e status).queue := by
  by_cases hfe : f = e
  · subst hfe
    simp [State.removeElement, h.nodup.not_mem_erase]
  · simp [State.removeElement, hfe, update_of_ne, List.mem_erase_of_ne hfe, h.used]

theorem Sound.perm_removeElement (h : Sound s) (he : e ∈ s.queue) {status : Response} (hstatus : status ≠ .waiting) :
    ((s.removeElement e status).finals ++ (s.removeElement e status).numbers).Perm (List.range s.accepted) := by
  have hfinals : (s.removeElement e status).finals = s.finals ++ [(s.elements e).number] := by
    rw [State.finals, log_removeElement ((h.used e).mpr he)]
    cases status <;> simp_all [State.finals, Out.final?]
  have hnumbers : s.numbers.Perm ((s.elements e).number :: (s.removeElement e status).numbers) := by
    rw [numbers_removeElement]
    exact (List.perm_cons_erase he).map fun f => (s.elements f).number
  rw [hfinals, List.append_assoc]
  exact (hnumbers.symm.append_left s.finals).trans h.perm

theorem Sound.nak (h : Sound s) (he : e ∈ s.queue) : Sound (s.removeElement e .nak) := by
  have hlog := log_removeElement ((h.used e).mpr he) .nak
  have htaken : (s.removeElement e .nak).taken = s.taken := by
    simp [State.taken, hlog, Out.taken?]
  have hsub : ∀ f ∈ (s.removeElement e .nak).queue, f ∈ s.queue := fun f => List.mem_of_mem_erase
  refine ⟨h.nodup.erase e, h.used_removeElement he .nak, h.perm_removeElement he (by simp), ?_, ?_, ?_, ?_, ?_, ?_⟩
  · rw [numbers_removeElement]
    exact h.numbers.sublist (List.erase_sublist.map _)
  · rw [htaken, h.acked, hlog]
    simp [Out.acked?]
  · intro node
    rw [State.served, htaken]
    exact h.inOrder node
  · rw [htaken]
    intro x hx f hf hdest
    obtain ⟨hnumber, hnode⟩ := elements_removeElement s e f .nak
    rw [hnumber]
    exact h.earlier x hx f (hsub f hf) (hnode ▸ hdest)
  · simpa [hlog] using h.noMisuse
  · simpa [hlog] using h.probed

theorem findElement_removeElement {f : Block} (hnodup : s.queue.Nodup) (he : s.findElement node = some e)
    (hf : (s.elements f).destinationNode ≠ node) (status : Response) :
    (s.removeElement f status).findElement node = some e ∧ (s.removeElement f status).elements e = s.elements e := by
  have hne : e ≠ f := by
    rintro rfl
    exact hf (by simpa using List.find?_some he)
  refine ⟨?_, update_of_ne hne _ _⟩
  have hsame : (fun g => decide (((s.removeElement f status).elements g).destinationNode = node)) =
      fun g => decide ((s.elements g).destinationNode = node) := by
    funext g
    rw [(elements_removeElement s f g status).2]
  rw [State.findElement, hsame]
  rw [State.findElement] at he
  have hothers : ∀ g ∈ s.queue, decide (g != f ∧ decide ((s.elements g).destinationNode = node) = true) =
      decide ((s.elements g).destinationNode = node) := by
    intro g _
    by_cases hgf : g = f
    · simp [hgf, hf]
    · simp [hgf]
  show (s.queue.erase f).find? _ = some e
  rw [hnodup.erase_eq_filter, List.find?_filter, List.find?_congr hothers, he]

def State.finished (s : State) (e : Block) (node : NodeId) : State :=
  { s.put (.answered (s.elements e).number node false) with
    currentExecutingNode := node }.removeElement e .ack

theorem log_finished (hused : s.used e = true) :
    (s.finished e node).log = s.log ++ [.answered (s.elements e).number node false] ++
      [.udpAck (s.elements e).number (s.elements e).conn .ack] := by
  simp [State.finished, State.removeElement, State.put, hused]

theorem Sound.finish (h : Sound s) (he : s.findElement node = some e) : Sound (s.finished e node) := by
  have hmem : e ∈ s.queue := List.mem_of_find?_eq_some he
  have hnode : (s.elements e).destinationNode = node := by simpa using List.find?_some he
  have hfirst : ∀ f ∈ s.queue, f ≠ e → (s.elements f).destinationNode = node →
      (s.elements e).number < (s.elements f).number := by
    intro f hf hfe hdest
    obtain ⟨_, front, back, hqueue, hfront⟩ := List.find?_eq_some_iff_append.mp he
    have hsorted := h.numbers
    rw [State.numbers, hqueue, List.map_append, List.map_cons] at hsorted
    have hbehind := (List.pairwise_cons.mp (List.pairwise_append.mp hsorted).2.1).1
    rw [hqueue] at hf
    obtain hf | hf := List.mem_append.mp hf
    · have := hfront f hf
      simp [hdest] at this
    · obtain rfl | hf := List.mem_cons.mp hf
      · exact absurd rfl hfe
      · exact hbehind _ (List.mem_map_of_mem hf)
  have hused := (h.used e).mpr hmem
  have hlog : (s.finished e node).log = _ := log_finished hused
  have htaken : (s.finished e node).taken = s.taken ++ [((s.elements e).number, node)] := by
    simp [State.taken, hlog, Out.taken?, List.filterMap_cons]
  have hfinals : (s.finished e node).finals = (s.removeElement e .ack).finals := by
    simp [State.finals, hlog, log_removeElement hused, Out.final?, List.filterMap_cons]
  have hperm := h.perm_removeElement hmem (show Response.ack ≠ .waiting by simp)
  rw [← hfinals] at hperm
  refine ⟨h.nodup.erase e, h.used_removeElement hmem .ack, hperm, ?_, ?_, ?_, ?_, ?_, ?_⟩
  · exact h.numbers.sublist (numbers_removeElement s e .ack ▸ List.erase_sublist.map _)
  · rw [htaken, hlog, List.map_append, h.acked]
    simp [Out.acked?, List.filterMap_cons]
  · intro other
    rw [State.served, htaken, List.filter_append, List.map_append]
    refine List.pairwise_append.mpr ⟨h.inOrder other, ?_, ?_⟩
    · by_cases hother : node = other <;> simp [hother]
    · intro x hx y hy
      obtain ⟨⟨x, other'⟩, hxs, rfl⟩ := List.mem_map.mp hx
      obtain ⟨hin, hother'⟩ := List.mem_filter.mp hxs
      by_cases hother : node = other
      · subst hother
        simp only [decide_true, List.filter_cons_of_pos, List.filter_nil, List.map_cons, List.map_nil,
          List.mem_singleton] at hy
        rw [hy]
        refine h.earlier _ hin e hmem ?_
        simpa [hnode, eq_comm] using hother'
      · simp [hother] at hy
  · rw [htaken]
    intro x hx f hf hdest
    obtain ⟨hnumber, hdest'⟩ := elements_removeElement s e f .ack
    have hdest : (s.elements f).destinationNode = x.2 := hdest' ▸ hdest
    have hf : f ∈ s.queue.erase e := hf
    obtain ⟨hfe, hf⟩ := (h.nodup.mem_erase_iff).mp hf
    show x.1 < ((s.removeElement e .ack).elements f).number
    rw [hnumber]
    obtain hx | hx := List.mem_append.mp hx
    · exact h.earlier x hx f hf hdest
    · rw [List.mem_singleton.mp hx] at hdest ⊢
      exact hfirst f hf hfe hdest
  · simpa [hlog] using h.noMisuse
  · simpa [hlog] using h.probed

end Removal

theorem removeWhile_induction {P : State → Prop} {find : State → Option Block}
    (hremove : ∀ s e, find s = some e → P s → P (s.removeElement e .nak)) (n : Nat) (h : P s) :
    P (State.removeWhile find n s) := by
  induction n generalizing s with
  | zero => exact h
  | succ n ih =>
    unfold State.removeWhile
    split
    · exact ih (hremove s _ (by assumption) h)
    · exact h

theorem underway_removeElement (h : Sound s) (he : e ∈ s.queue) (status : Response) :
    underway (s.removeElement e status).log = underway s.log := by
  rw [log_removeElement ((h.used e).mpr he), underway_append]

structure Steady (s t : State) : Prop where
  sound : Sound t
  executing : t.currentExecutingNode = s.currentExecutingNode
  underway : NmQueue.underway t.log = NmQueue.underway s.log

theorem Sound.steady (h : Sound s) : Steady s s :=
  ⟨h, rfl, rfl⟩

theorem Steady.trans {u : State} (h : Steady s t) (h' : Steady t u) : Steady s u :=
  ⟨h'.sound, h'.executing.trans h.executing, h'.underway.trans h.underway⟩

theorem Sound.steady_nak (h : Sound s) (he : e ∈ s.queue) : Steady s (s.removeElement e .nak) :=
  ⟨h.nak he, rfl, underway_removeElement h he .nak⟩

theorem Sound.steady_purge (h : Sound s) {find : State → Option Block}
    (hfind : ∀ s e, find s = some e → e ∈ s.queue) (n : Nat) :
    Steady s (State.removeWhile find n s) := by
  refine removeWhile_induction (P := Steady s) ?_ n h.steady
  intro t e he ht
  exact ht.trans (ht.sound.steady_nak (hfind t e he))

theorem Sound.steady_put (h : Sound s) {x : Out} (hx : x.isNeutral = true)
    (hpassed : ∀ number, x ≠ .passed number) (hdone : x ≠ .done) : Steady s (s.put x) := by
  refine ⟨h.put hx, rfl, ?_⟩
  rw [State.put, underway_append]
  cases x with
  | passed number => exact absurd rfl (hpassed number)
  | done => exact absurd rfl hdone
  | _ => rfl

theorem Sound.steady_queueCommand (h : Sound s) (conn : Conn) (cmd : Bytes) :
    Steady s (s.queueCommand conn node cmd) := by
  refine ⟨h.queueCommand conn cmd, ?_, ?_⟩
  · unfold State.queueCommand
    split <;> rfl
  · unfold State.queueCommand
    split
    · rfl
    · simp [underway, List.foldl_append]

theorem queueWakeupEvent_of_not_starts {call : State → State} {busy : Bool} (h : ¬Starts s node) :
    s.queueWakeupEvent call busy node = (s, false) := by
  unfold State.queueWakeupEvent
  split
  · rfl
  rename_i e he
  have hnot : ¬(s.currentExecutingNode = 0 ∨ s.currentExecutingNode = node) := by
    intro hexec
    exact h ⟨by simp [he], hexec⟩
  rw [if_neg hnot]

theorem Sound.steady_nakWaitingTimeout (h : Sound s) (e : Block) : Steady s (s.nakWaitingTimeout e) := by
  unfold State.nakWaitingTimeout
  split
  · exact h.steady_put rfl (by simp) (by simp)
  · exact h.steady

section Harmless

variable {other : NodeId} (call : State → State) (busy : Bool)

theorem Sound.steady_checkIfAwakeCb (h : Sound s) {status : UInt8}
    (hstarts : status = transmitCompleteOk → ¬Starts s other) :
    Steady s (s.checkIfAwakeCb call busy status other other) ∧
      (s.checkIfAwakeCb call busy status other other).findElement = s.findElement ∧
      (s.checkIfAwakeCb call busy status other other).elements = s.elements := by
  unfold State.checkIfAwakeCb
  split
  · rename_i hstatus
    have hnot : ¬Starts (s.put (.woken other other)) other := hstarts hstatus
    rw [queueWakeupEvent_of_not_starts hnot]
    exact ⟨h.steady_put (decide_eq_true rfl) (by simp) (by simp), rfl, rfl⟩
  · exact ⟨h.steady, rfl, rfl⟩

theorem Sound.steady_checkIfAwake (h : Sound s) {air : Air}
    (hstarts : air = .ended transmitCompleteOk → ¬Starts s other) :
    Steady s (s.checkIfAwake call busy other air) ∧ (s.checkIfAwake call busy other air).findElement = s.findElement ∧
      (s.checkIfAwake call busy other air).elements = s.elements := by
  have hput : Steady s (s.put (.probeSent other)) := h.steady_put rfl (by simp) (by simp)
  cases air with
  | refused => exact h.steady_checkIfAwakeCb call busy fun hstatus => by cases hstatus
  | sent => exact ⟨⟨hput.sound.setProbes _, rfl, hput.underway⟩, rfl, rfl⟩
  | ended status =>
    have hnot : status = transmitCompleteOk → ¬Starts (s.put (.probeSent other)) other := by
      rintro rfl
      exact hstarts rfl
    obtain ⟨hsteady, hfind, helements⟩ := hput.sound.steady_checkIfAwakeCb call busy hnot
    exact ⟨hput.trans hsteady, hfind, helements⟩

end Harmless

section Nested

theorem steps_eq (s : State) (events : List Event) : steps s events = Machine.run step s events := by
  induction events generalizing s with
  | nil => rw [steps, Machine.run_nil]
  | cons e events ih => rw [steps, ih, Machine.run_cons]

structure Waits (node : NodeId) (e : Block) (s t : State) : Prop extends Steady s t where
  first : t.findElement node = some e
  number : (t.elements e).number = (s.elements e).number

theorem Waits.trans {u : State} (h : Waits node e s t) (h' : Waits node e t u) : Waits node e s u :=
  ⟨h.toSteady.trans h'.toSteady, h'.first, h'.number.trans h.number⟩

theorem Sound.waits (h : Sound s) (he : s.findElement node = some e) : Waits node e s s :=
  ⟨h.steady, he, rfl⟩

theorem mem_queue_of_findElement {s : State} {node : NodeId} {e : Block}
    (h : s.findElement node = some e) : e ∈ s.queue :=
  List.mem_of_find?_eq_some h

theorem destinationNode_of_findElement {s : State} {node : NodeId} {e : Block}
    (h : s.findElement node = some e) : (s.elements e).destinationNode = node := by
  simpa using List.find?_some h

theorem waits_step (h : Sound s) (he : s.findElement node = some e) {event : Event}
    (hevent : Harmless node s event) : Waits node e s (step s event) := by
  cases event with
  | command conn cmd active isMailbox air nested busy =>
    simp only [step, State.queueIfTargetIsMailbox]
    split
    · obtain ⟨hsteady, hfind, helements⟩ := h.steady_checkIfAwake (fun t => steps t nested) busy hevent
      have he' := he
      rw [← hfind] at he'
      obtain ⟨hfirst, hsame⟩ := findElement_queueCommand conn cmd hsteady.sound he'
      exact ⟨hsteady.trans (hsteady.sound.steady_queueCommand conn cmd), hfirst, by rw [hsame, helements]⟩
    · exact h.waits he
  | wakeup other nested busy =>
    simp only [step, queueWakeupEvent_of_not_starts hevent]
    exact h.waits he
  | probed k status slot nested busy =>
    simp only [step]
    split
    · rename_i probed hk
      by_cases hstatus : status = transmitCompleteOk
      · obtain ⟨hslot, hnot⟩ := hevent hstatus
        obtain rfl := Option.some.inj (hslot.symm.trans hk)
        obtain ⟨hsteady, hfind, helements⟩ :=
          (h.setProbes (s.probes.eraseIdx k)).steady_checkIfAwakeCb (fun t => steps t nested) busy
            fun _ : status = transmitCompleteOk => hnot
        exact ⟨⟨hsteady.sound, hsteady.executing, hsteady.underway⟩, by rw [hfind]; exact he, by rw [helements]⟩
      · simp only [State.checkIfAwakeCb, if_neg hstatus]
        exact ⟨⟨h.setProbes _, rfl, rfl⟩, he, rfl⟩
    · exact h.waits he
  | nmDone => exact hevent.elim
  | purgeNode other =>
    simp only [step, State.queuePurgeNode]
    refine removeWhile_induction (P := Waits node e s) ?_ _ (h.waits he)
    intro t f hf ht
    have hdest : (t.elements f).destinationNode ≠ node := by
      rw [destinationNode_of_findElement hf]
      exact hevent
    obtain ⟨hfirst, hsame⟩ := findElement_removeElement ht.sound.nodup ht.first hdest .nak
    exact ht.trans ⟨ht.sound.steady_nak (mem_queue_of_findElement hf), hfirst, by rw [hsame]⟩
  | purgeAll => exact hevent.elim
  | timeout f =>
    have hsteady := h.steady_nakWaitingTimeout f
    simp only [step]
    refine ⟨hsteady, ?_, ?_⟩
    · unfold State.nakWaitingTimeout
      split <;> exact he
    · unfold State.nakWaitingTimeout
      split <;> rfl

theorem waits_steps (h : Sound s) (he : s.findElement node = some e) {events : List Event}
    (hevents : Admissible step (Harmless node) s events) : Waits node e s (steps s events) := by
  rw [steps_eq]
  induction events generalizing s with
  | nil => exact h.waits he
  | cons event events ih =>
    have hstep := waits_step h he hevents.1
    exact hstep.trans (ih hstep.sound hstep.first hevents.2)

end Nested

section Events

structure Woken (s : State) (node : NodeId) (r : State × Bool) : Prop where
  sound : Sound r.1
  executing : r.1.currentExecutingNode = if r.2 then node else s.currentExecutingNode
  underway : NmQueue.underway s.log = true ∨ r.2 = true → NmQueue.underway r.1.log = true

theorem Sound.wakeup (h : Sound s) {nested : List Event} (busy : Bool) (hnested : Undisturbed s node nested) :
    Woken s node (s.queueWakeupEvent (fun t => steps t nested) busy node) := by
  by_cases hstarts : Starts s node
  · obtain ⟨e, he⟩ := Option.isSome_iff_exists.mp hstarts.1
    have hpassed : Sound (s.put (.passed (s.elements e).number)) := h.put rfl
    have hcall : Admissible step (Harmless node) (s.put (.passed (s.elements e).number)) nested := by
      simp only [Undisturbed, he] at hnested
      exact hnested hstarts
    have hwaits := waits_steps hpassed he hcall
    simp only [State.queueWakeupEvent, he, if_pos hstarts.2]
    generalize steps (s.put (.passed (s.elements e).number)) nested = t at hwaits ⊢
    have hunderway : NmQueue.underway t.log = true := by
      rw [hwaits.underway, State.put, underway_append]
    cases busy with
    | true =>
      refine ⟨hwaits.sound.put rfl, hwaits.executing, fun _ => ?_⟩
      simpa [State.put] using hunderway
    | false =>
      have hnumber : (t.elements e).number = (s.elements e).number := hwaits.number
      rw [← hnumber]
      refine ⟨hwaits.sound.finish hwaits.first, rfl, fun _ => ?_⟩
      have hused := (hwaits.sound.used e).mpr (mem_queue_of_findElement hwaits.first)
      show NmQueue.underway (t.finished e node).log = true
      rw [log_finished hused, underway_append, underway_append]
      exact hunderway
  · rw [queueWakeupEvent_of_not_starts hstarts]
    exact ⟨h, by simp, by simp⟩

structure Inv (s : State) : Prop extends Sound s where
  idle : underway s.log = false → s.currentExecutingNode = 0

theorem Steady.inv (h : Steady s t) (hs : Inv s) : Inv t := by
  refine ⟨h.sound, fun hidle => ?_⟩
  rw [h.executing]
  exact hs.idle (h.underway ▸ hidle)

theorem Woken.inv {r : State × Bool} (h : Woken s node r) (hs : Inv s) : Inv r.1 := by
  refine ⟨h.sound, fun hidle => ?_⟩
  cases hr : r.2 with
  | true => simp [h.underway (.inr hr)] at hidle
  | false =>
    rw [h.executing, hr]
    refine hs.idle ?_
    cases hu : NmQueue.underway s.log with
    | true => simp [h.underway (.inl hu)] at hidle
    | false => rfl

theorem Inv.checkIfAwakeCb (h : Inv s) {status : UInt8} {nested : List Event} {busy : Bool}
    (hnested : status = transmitCompleteOk → Undisturbed (s.put (.woken node node)) node nested) :
    Inv (s.checkIfAwakeCb (fun t => steps t nested) busy status node node) := by
  unfold State.checkIfAwakeCb
  split
  · rename_i hstatus
    have hput : Steady s (s.put (.woken node node)) :=
      h.toSound.steady_put (decide_eq_true rfl) (by simp) (by simp)
    exact (hput.sound.wakeup busy (hnested hstatus)).inv (hput.inv h)
  · exact h

theorem inv_step (h : Inv s) {event : Event} (hevent : Allowed s event) : Inv (step s event) := by
  cases event with
  | command conn cmd active isMailbox air nested busy =>
    simp only [step, State.queueIfTargetIsMailbox]
    split
    · have hput : Steady s (s.put (.probeSent (getTargetNode cmd))) :=
        h.toSound.steady_put rfl (by simp) (by simp)
      have hawake : Inv (s.checkIfAwake (fun t => steps t nested) busy (getTargetNode cmd) air) := by
        cases air with
        | refused => exact h.checkIfAwakeCb fun hstatus => by cases hstatus
        | sent => exact ⟨hput.sound.setProbes _, (hput.inv h).idle⟩
        | ended status =>
          refine (hput.inv h).checkIfAwakeCb ?_
          rintro rfl
          exact hevent rfl
      exact (hawake.toSound.steady_queueCommand conn cmd).inv hawake
    · exact h
  | wakeup node nested busy => exact (h.toSound.wakeup busy hevent).inv h
  | probed k status slot nested busy =>
    simp only [step]
    split
    · rename_i probed hk
      have hprobes : Inv { s with probes := s.probes.eraseIdx k } := ⟨h.toSound.setProbes _, h.idle⟩
      by_cases hstatus : status = transmitCompleteOk
      · obtain ⟨rfl, hnested⟩ := hevent hstatus probed hk
        exact hprobes.checkIfAwakeCb fun _ => hnested
      · simp only [State.checkIfAwakeCb, if_neg hstatus]
        exact hprobes
    · exact h
  | nmDone nested busy =>
    have hdone : Sound (s.put .done) := h.toSound.put rfl
    simp only [step, State.queueNmDoneEvent]
    split
    · have hwoken := hdone.wakeup busy hevent
      split
      · rename_i hr
        refine ⟨hwoken.sound, fun hidle => ?_⟩
        have := hwoken.underway (.inr hr)
        exact absurd (this.symm.trans hidle) (by simp)
      · exact ⟨(hwoken.sound.setExecuting 0).put rfl, fun _ => rfl⟩
    · rename_i hzero
      exact ⟨hdone, fun _ => by simpa using hzero⟩
  | purgeNode node =>
    exact (h.toSound.steady_purge (fun _ _ => mem_queue_of_findElement) _).inv h
  | purgeAll =>
    exact (h.toSound.steady_purge (fun _ _ => List.mem_of_head?) _).inv h
  | timeout e => exact (h.toSound.steady_nakWaitingTimeout e).inv h

theorem inv_init : Inv .init :=
  ⟨sound_init, fun _ => rfl⟩

theorem Inv.orderly (h : Inv s) : Orderly s := by
  have hfinals : (s.finals ++ s.numbers).Nodup := (h.perm.nodup_iff).mpr List.nodup_range
  refine ⟨?_, h.inOrder, ?_, h.noMisuse, h.probed, h.idle⟩
  · intro number
    have hsublist : (s.log.filterMap Out.acked?).Sublist (s.finals ++ s.numbers) :=
      (acked_sublist_finals s.log).trans (List.sublist_append_left _ _)
    rw [h.acked]
    exact (hsublist.count_le number).trans (List.nodup_iff_count_le_one.mp hfinals number)
  · intro number hlt
    have hone : (s.finals ++ s.numbers).count number = 1 := by
      rw [h.perm.count_eq, List.count_eq_one_of_mem List.nodup_range (List.mem_range.mpr hlt)]
    rw [List.count_append] at hone
    split_ifs with hqueued
    · have := List.one_le_count_iff.mpr hqueued
      omega
    · have := List.count_eq_zero_of_not_mem hqueued
      omega

/-- In every run whose probes find the id they were given, and whose calls of network management are
undisturbed, the queue serves every command once, in order, and is idle when it is done. -/
theorem queue_orderly (events : List Event) (h : Admissible step Allowed .init events) : Orderly (run events) := by
  have hstep : ∀ s event, Allowed s event → Inv s → Inv (step s event) :=
    fun _ _ hevent hs => inv_step hs hevent
  exact (Machine.run_invariant_of_admissible hstep h inv_init).orderly

def neighborUpdate (node : UInt8) : Bytes :=
  [commandClassNetworkManagementInclusion, nodeNeighborUpdateRequest, 1, node]

def client : Conn := ⟨1, 41230⟩

/-- Two commands for node 5; the node wakes up while another node is deleted. -/
def servedNode : List Event :=
  [.command client (neighborUpdate 5) 0 true .sent [] false,
    .command client (neighborUpdate 5) 0 true .refused [] false,
    .wakeup 5 [.purgeNode 7] false, .nmDone [] false, .nmDone [] false]

theorem servedNode_orderly : Orderly (run servedNode) := by
  refine queue_orderly servedNode ⟨?_, ?_, ?_, ?_, ?_, trivial⟩
  · rintro ⟨⟩
  · rintro ⟨⟩
  · intro _
    exact ⟨show (7 : NodeId) ≠ 5 by decide, trivial⟩
  · intro _
    trivial
  · trivial

def twoProbes : List Event :=
  [.command client (neighborUpdate 5) 0 true .sent [] false, .command client (neighborUpdate 7) 0 true .sent [] false,
    .probed 0 transmitCompleteOk 7 [] false]

def purgedInCall : List Event :=
  [.command client (neighborUpdate 5) 0 true .sent [] false, .wakeup 5 [.purgeAll] false]

theorem queue_not_orderly : ¬Orderly (run twoProbes) ∧ ¬Orderly (run purgedInCall) ∧
      (run twoProbes).taken = [(1, 7)] ∧ (run purgedInCall).finals = [0, 0] := by
  have hwoken : Out.woken 5 7 ∈ (run twoProbes).log := by decide
  have hfinals : (run purgedInCall).finals = [0, 0] := by decide
  refine ⟨fun h => ?_, fun h => ?_, by decide, hfinals⟩
  · have := h.probed 5 7 hwoken
    exact absurd this (by decide)
  · have := h.answered 0 (by decide)
    rw [hfinals] at this
    revert this
    decide

end Events

end ZipGateway.NmQueue

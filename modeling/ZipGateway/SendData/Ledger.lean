import Mathlib.Data.List.Sort
import ZipGateway.SendData.Context

/-!
# The log of the sessions

Sessions of the application are numbered by their frame buffers, in the order in which they are
accepted. `SendLedger` compares the log with the sessions that are left: `ids` are those not
completed, `waiting` those of them not started, and `n` is above all numbers so far.
-/

namespace ZipGateway

namespace SendOut

def isCompleted (fb : Nat) : SendOut → Bool
  | .completed n _ => n == fb
  | _ => false

def acceptedId? : SendOut → Option Nat
  | .accepted fb _ => some fb
  | _ => none

def startedId? : SendOut → Option Nat
  | .started fb => some fb
  | _ => none

def ofSession : SendOut → Bool
  | .transmitted _ => false
  | .result .. => false
  | _ => true

end SendOut

namespace SendLog

def completions (out : List SendOut) (fb : Nat) : Nat :=
  out.countP (SendOut.isCompleted fb)

def acceptedIds (out : List SendOut) : List Nat :=
  out.filterMap SendOut.acceptedId?

def startedIds (out : List SendOut) : List Nat :=
  out.filterMap SendOut.startedId?

end SendLog

open SendLog

structure SendLedger (ids waiting : List Nat) (n : Nat) (out : List SendOut) : Prop where
  sorted : ids.Pairwise (· < ·)
  queued : (acceptedIds out).Pairwise (· > ·)
  below : ∀ a ∈ acceptedIds out, a < n
  known : ∀ a ∈ ids, a ∈ acceptedIds out
  settled : ∀ a ∈ acceptedIds out, a ∈ ids ∨ completions out a = 1
  pending : ∀ a ∈ ids, completions out a = 0
  completed : ∀ a, completions out a ≠ 0 → a ∈ acceptedIds out
  order : (startedIds out).Pairwise (· > ·)
  started : ∀ a ∈ startedIds out, a ∈ acceptedIds out ∧ ∀ w ∈ waiting, a < w

namespace SendLedger

variable {ids waiting : List Nat} {n a : Nat} {out : List SendOut}

theorem empty : SendLedger [] [] 0 [] where
  sorted := .nil
  queued := .nil
  below := fun _ h => by cases h
  known := fun _ h => by cases h
  settled := fun _ h => by cases h
  pending := fun _ h => by cases h
  completed := fun _ h => absurd rfl h
  order := .nil
  started := fun _ h => by cases h

theorem mono (h : SendLedger ids waiting n out) {m : Nat} (hnm : n ≤ m) : SendLedger ids waiting m out :=
  { h with below := fun a ha => Nat.lt_of_lt_of_le (h.below a ha) hnm }

theorem logOther (h : SendLedger ids waiting n out) {o : SendOut} (ho : o.ofSession = false) :
    SendLedger ids waiting n (o :: out) := by
  cases o with
  | transmitted fb => exact ⟨h.1, h.2, h.3, h.4, h.5, h.6, h.7, h.8, h.9⟩
  | result fb popped status => exact ⟨h.1, h.2, h.3, h.4, h.5, h.6, h.7, h.8, h.9⟩
  | _ => exact absurd ho (by simp [SendOut.ofSession])

theorem accept (h : SendLedger ids waiting n out) (handle : Nat) :
    SendLedger (ids ++ [n]) (waiting ++ [n]) (n + 1) (.accepted n handle :: out) := by
  have hids : ∀ b ∈ ids, b < n := fun b hb => h.below b (h.known b hb)
  have hnew : completions out n = 0 := by
    by_contra hne
    exact absurd (h.below n (h.completed n hne)) (Nat.lt_irrefl n)
  refine ⟨?_, List.pairwise_cons.mpr ⟨h.below, h.queued⟩, ?_, ?_, ?_, ?_, ?_, h.order, ?_⟩
  · refine List.pairwise_append.mpr ⟨h.sorted, List.pairwise_singleton _ _, ?_⟩
    intro b hb c hc
    rw [List.mem_singleton.mp hc]
    exact hids b hb
  · intro b hb
    rcases List.mem_cons.mp hb with rfl | hb
    · exact Nat.lt_succ_self _
    · exact Nat.lt_succ_of_lt (h.below b hb)
  · intro b hb
    rcases List.mem_append.mp hb with hb | hb
    · exact List.mem_cons_of_mem _ (h.known b hb)
    · rw [List.mem_singleton.mp hb]
      exact List.mem_cons_self
  · intro b hb
    rcases List.mem_cons.mp hb with rfl | hb
    · exact .inl (List.mem_append_right _ List.mem_cons_self)
    · rcases h.settled b hb with hb | hdone
      · exact .inl (List.mem_append_left _ hb)
      · exact .inr hdone
  · intro b hb
    rcases List.mem_append.mp hb with hb | hb
    · exact h.pending b hb
    · rw [List.mem_singleton.mp hb]
      exact hnew
  · exact fun b hb => List.mem_cons_of_mem _ (h.completed b hb)
  · intro b hb
    obtain ⟨hacc, hbefore⟩ := h.started b hb
    refine ⟨List.mem_cons_of_mem _ hacc, fun w hw => ?_⟩
    rcases List.mem_append.mp hw with hw | hw
    · exact hbefore w hw
    · rw [List.mem_singleton.mp hw]
      exact h.below b hacc

theorem start (h : SendLedger ids (a :: waiting) n out) (hids : ids = a :: waiting) :
    SendLedger ids waiting n (.started a :: out) := by
  have hsorted := h.sorted
  rw [hids, List.pairwise_cons] at hsorted
  refine ⟨h.sorted, h.queued, h.below, h.known, h.settled, h.pending, h.completed, ?_, ?_⟩
  · refine List.pairwise_cons.mpr ⟨fun b hb => ?_, h.order⟩
    exact (h.started b hb).2 a List.mem_cons_self
  · intro b hb
    rcases List.mem_cons.mp hb with rfl | hb
    · exact ⟨h.known b (by rw [hids]; exact List.mem_cons_self), hsorted.1⟩
    · obtain ⟨hacc, hbefore⟩ := h.started b hb
      exact ⟨hacc, fun w hw => hbefore w (List.mem_cons_of_mem _ hw)⟩

theorem complete (h : SendLedger ids waiting n out) {ids' waiting' : List Nat}
    (hperm : ids.Perm (a :: ids')) (hsub : ids'.Sublist ids) (hwait : ∀ w ∈ waiting', w ∈ waiting)
    (status : UInt8) : SendLedger ids' waiting' n (.completed a status :: out) := by
  have ha : a ∈ ids := hperm.mem_iff.mpr List.mem_cons_self
  have hnot : a ∉ ids' := by
    have hnodup : (a :: ids').Nodup := hperm.nodup_iff.mp (h.sorted.imp Nat.ne_of_lt)
    exact (List.nodup_cons.mp hnodup).1
  have hself : completions (.completed a status :: out) a = 1 := by
    rw [completions, List.countP_cons_of_pos (by simp [SendOut.isCompleted])]
    exact congrArg (· + 1) (h.pending a ha)
  have hother : ∀ b, b ≠ a → completions (.completed a status :: out) b = completions out b := by
    intro b hb
    rw [completions, List.countP_cons_of_neg (by simp [SendOut.isCompleted, hb.symm]), completions]
  refine ⟨h.sorted.sublist hsub, h.queued, h.below, fun b hb => h.known b (hsub.subset hb), ?_, ?_, ?_, h.order, ?_⟩
  · intro b hb
    by_cases hba : b = a
    · rw [hba]
      exact .inr hself
    · rw [hother b hba]
      rcases h.settled b hb with hmem | hdone
      · rcases List.mem_cons.mp (hperm.mem_iff.mp hmem) with heq | hmem
        · exact absurd heq hba
        · exact .inl hmem
      · exact .inr hdone
  · intro b hb
    have hba : b ≠ a := by
      rintro rfl
      exact hnot hb
    rw [hother b hba]
    exact h.pending b (hsub.subset hb)
  · intro b hb
    by_cases hba : b = a
    · rw [hba]
      exact h.known a ha
    · rw [hother b hba] at hb
      exact h.completed b hb
  · intro b hb
    obtain ⟨hacc, hbefore⟩ := h.started b hb
    exact ⟨hacc, fun w hw => hbefore w (hwait w hw)⟩

theorem startedIds_sublist (h : SendLedger ids waiting n out) : (startedIds out).Sublist (acceptedIds out) := by
  have hsubperm : (startedIds out).Subperm (acceptedIds out) :=
    List.subperm_of_subset (h.order.imp Nat.ne_of_gt) fun a ha => (h.started a ha).1
  exact List.sublist_of_subperm_of_pairwise hsubperm h.order h.queued

end SendLedger

end ZipGateway

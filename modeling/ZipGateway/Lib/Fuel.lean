import Mathlib.Logic.Relation
import Mathlib.Tactic.Common

/-!
# Loops that may not end

A loop whose end is in doubt is given the number of rounds it may take. It *settles* on a result when it
has that result for every large enough number of rounds.

`loop` repeats a body until a test stops it. Where a relation describes what the body does, and a measure
goes down with it, the loop ends exactly if the body has a result in every state that the loop comes to.
-/

open Relation (ReflTransGen)

universe u

namespace Fuel

variable {ε : Type*} {α β : Type u}

def Settles (x : Nat → Except ε α) (a : α) : Prop :=
  ∃ k, ∀ n, k ≤ n → x n = .ok a

variable {x : Nat → Except ε α} {a : α}

theorem Settles.of_forall (h : ∀ n, x n = .ok a) : Settles x a :=
  ⟨0, fun n _ => h n⟩

theorem Settles.succ (h : Settles (fun n => x (n + 1)) a) : Settles x a := by
  obtain ⟨k, h⟩ := h
  refine ⟨k + 1, fun n hn => ?_⟩
  obtain ⟨m, rfl⟩ : ∃ m, n = m + 1 := ⟨n - 1, by omega⟩
  exact h m (by omega)

theorem Settles.bind {f : Nat → α → Except ε β} {b : β} (hx : Settles x a)
    (hf : Settles (fun n => f n a) b) : Settles (fun n => x n >>= f n) b := by
  obtain ⟨k, hx⟩ := hx
  obtain ⟨l, hf⟩ := hf
  refine ⟨max k l, fun n hn => ?_⟩
  show x n >>= f n = .ok b
  rw [hx n (by omega)]
  exact hf n (by omega)

theorem Settles.exists (h : Settles x a) : ∃ n, x n = .ok a := by
  obtain ⟨k, h⟩ := h
  exact ⟨k, h k (Nat.le_refl k)⟩

theorem Settles.unique {a b : α} (ha : Settles x a) (hb : Settles x b) : a = b := by
  obtain ⟨k, ha⟩ := ha
  obtain ⟨l, hb⟩ := hb
  have h := (ha (max k l) (by omega)).symm.trans (hb (max k l) (by omega))
  exact Except.ok.inj h

theorem bind_eq_ok {x : Except ε α} {f : α → Except ε β} {b : β} : x >>= f = .ok b ↔ ∃ a, x = .ok a ∧ f a = .ok b := by
  cases x with
  | error e =>
    constructor
    · intro h
      cases h
    · rintro ⟨_, h, _⟩
      cases h
  | ok a =>
    constructor
    · intro h
      exact ⟨a, rfl, h⟩
    · rintro ⟨_, h, h'⟩
      cases h
      exact h'

section Loop

variable (late : ε) (stop : α → Bool) (body : Nat → α → Except ε α)

/-- The body, until `stop`; `late` is the error when the rounds are used up. -/
def loop : Nat → α → Except ε α
  | 0, _ => .error late
  | n + 1, s => if stop s then .ok s else body n s >>= loop n

structure Describes (Does : α → α → Prop) : Prop where
  sound : ∀ {n s t}, body n s = .ok t → Does s t
  complete : ∀ {s t}, Does s t → Settles (fun n => body n s) t

variable {late stop body} {Does : α → α → Prop}

theorem Describes.unique (h : Describes body Does) {s t t' : α} (ht : Does s t) (ht' : Does s t') : t = t' :=
  (h.complete ht).unique (h.complete ht')

def Turn (stop : α → Bool) (Does : α → α → Prop) (s t : α) : Prop :=
  stop s = false ∧ Does s t

theorem loop_settles (h : Describes body Does) (μ : α → Nat) (hμ : ∀ s t, Turn stop Does s t → μ t < μ s) {s : α}
    (hall : ∀ x, ReflTransGen (Turn stop Does) s x → stop x = false → ∃ y, Does x y) :
    ∃ t, Settles (fun n => loop late stop body n s) t ∧ ReflTransGen (Turn stop Does) s t ∧ stop t = true := by
  induction hm : μ s using Nat.strongRecOn generalizing s with
  | ind m ih =>
    cases hs : stop s with
    | true =>
      refine ⟨s, .succ (.of_forall fun n => ?_), .refl, hs⟩
      simp [loop, hs]
    | false =>
      obtain ⟨y, hy⟩ := hall s .refl hs
      have turn : Turn stop Does s y := ⟨hs, hy⟩
      obtain ⟨t, ht, hreach, hstop⟩ :=
        ih (μ y) (hm ▸ hμ s y turn) (fun x hx => hall x (.head turn hx)) rfl
      refine ⟨t, .succ ?_, .head turn hreach, hstop⟩
      simp only [loop, hs, Bool.false_eq_true, if_false]
      exact (h.complete hy).bind ht

theorem loop_eq_ok (h : Describes body Does) {n : Nat} {s t : α}
    (hok : loop late stop body n s = .ok t) {x : α} (hx : ReflTransGen (Turn stop Does) s x) :
    (stop x = false → ∃ y, Does x y) ∧ (stop x = true → x = t) := by
  induction n generalizing s with
  | zero => cases hok
  | succ n ih =>
    unfold loop at hok
    cases hs : stop s with
    | true =>
      simp only [hs, if_true] at hok
      cases hok
      -- A state that stops the loop leads nowhere else.
      obtain rfl | ⟨y, ⟨hy, _⟩, _⟩ := hx.cases_head
      · simp [hs]
      · simp [hs] at hy
    | false =>
      simp only [hs, Bool.false_eq_true, if_false] at hok
      obtain ⟨y, hbody, hrest⟩ := bind_eq_ok.mp hok
      obtain rfl | ⟨y', ⟨_, hy'⟩, hx⟩ := hx.cases_head
      · exact ⟨fun _ => ⟨y, h.sound hbody⟩, by simp [hs]⟩
      · rw [h.unique hy' (h.sound hbody)] at hx
        exact ih hrest hx

end Loop

end Fuel

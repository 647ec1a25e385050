import Mathlib.Tactic.Common

/-!
# Event-driven machines

A machine is a step function on states, and a run is a fold of it over the events that arrive. An
invariant every step keeps holds after every run, and one that only *admissible* steps keep holds
after every run whose events are admissible in the states they arrive in.

The second half is about code that calls back into its environment. A callback may call the machine
again before it returns: `reenter` ties that knot at a given nesting depth, and by its rule it is
enough to check one call, for callbacks that keep the invariant.
-/

namespace Machine

variable {σ ε : Type*}

section Run

variable (step : σ → ε → σ)

def run (s : σ) (events : List ε) : σ :=
  events.foldl step s

@[simp]
theorem run_nil (s : σ) : run step s [] = s := rfl

@[simp]
theorem run_cons (s : σ) (e : ε) (events : List ε) : run step s (e :: events) = run step (step s e) events := rfl

theorem run_append (s : σ) (first second : List ε) :
    run step s (first ++ second) = run step (run step s first) second := by
  simp [run, List.foldl_append]

def Admissible (ok : σ → ε → Prop) : σ → List ε → Prop
  | _, [] => True
  | s, e :: events => ok s e ∧ Admissible ok (step s e) events

instance decidableAdmissible (ok : σ → ε → Prop) [∀ s e, Decidable (ok s e)] :
    ∀ (s : σ) (events : List ε), Decidable (Admissible step ok s events)
  | _, [] => isTrue trivial
  | s, e :: events =>
    haveI := decidableAdmissible ok (step s e) events
    inferInstanceAs (Decidable (ok s e ∧ Admissible step ok (step s e) events))

variable {step}

theorem admissible_of_forall {ok : σ → ε → Prop} (hok : ∀ s e, ok s e) (s : σ)
    (events : List ε) : Admissible step ok s events := by
  induction events generalizing s with
  | nil => trivial
  | cons e events ih => exact ⟨hok s e, ih (step s e)⟩

theorem Admissible.mono {ok ok' : σ → ε → Prop} (hmono : ∀ s e, ok s e → ok' s e) {s : σ}
    {events : List ε} (h : Admissible step ok s events) : Admissible step ok' s events := by
  induction events generalizing s with
  | nil => trivial
  | cons e events ih => exact ⟨hmono s e h.1, ih h.2⟩

theorem admissible_iff {Inv : σ → Prop} {ok ok' : σ → ε → Prop} (hiff : ∀ s e, Inv s → (ok s e ↔ ok' s e))
    (hstep : ∀ s e, ok' s e → Inv s → Inv (step s e)) {s : σ} (hs : Inv s) (events : List ε) :
    Admissible step ok s events ↔ Admissible step ok' s events := by
  induction events generalizing s with
  | nil => exact Iff.rfl
  | cons e events ih =>
    constructor
    · rintro ⟨he, hrest⟩
      have he' := (hiff s e hs).mp he
      exact ⟨he', (ih (hstep s e he' hs)).mp hrest⟩
    · rintro ⟨he', hrest⟩
      exact ⟨(hiff s e hs).mpr he', (ih (hstep s e he' hs)).mpr hrest⟩

theorem run_invariant {Inv : σ → Prop} (hstep : ∀ s e, Inv s → Inv (step s e))
    {s : σ} (hs : Inv s) (events : List ε) : Inv (run step s events) := by
  induction events generalizing s with
  | nil => exact hs
  | cons e events ih => exact ih (hstep s e hs)

theorem run_invariant_of_admissible {Inv : σ → Prop} {ok : σ → ε → Prop}
    (hstep : ∀ s e, ok s e → Inv s → Inv (step s e)) {s : σ} {events : List ε}
    (hok : Admissible step ok s events) (hs : Inv s) : Inv (run step s events) := by
  induction events generalizing s with
  | nil => exact hs
  | cons e events ih => exact ih hok.2 (hstep s e hok.1 hs)

theorem forall_run_iff {Inv : σ → Prop} {ok : σ → ε → Prop} {s : σ} {events : List ε} : (∀ done, done <+: events →
        Inv (run step s done) ∧ ∀ e, done ++ [e] <+: events → ok (run step s done) e) ↔
      Inv s ∧ Admissible step (fun s e => ok s e ∧ Inv (step s e)) s events := by
  induction events generalizing s with
  | nil =>
    constructor
    · intro h
      exact ⟨(h [] (List.prefix_refl _)).1, trivial⟩
    · rintro ⟨hs, -⟩ done hdone
      obtain rfl := List.prefix_nil.mp hdone
      refine ⟨hs, fun e he => ?_⟩
      cases List.prefix_nil.mp he
  | cons e events ih =>
    constructor
    · intro h
      obtain ⟨hs, hok⟩ := h [] List.nil_prefix
      obtain ⟨hnext, hrest⟩ := ih.mp fun done hdone => by
        obtain ⟨hdone', hok'⟩ := h (e :: done) ((List.prefix_cons_inj e).mpr hdone)
        exact ⟨hdone', fun e' he' => hok' e' ((List.prefix_cons_inj e).mpr he')⟩
      exact ⟨hs, ⟨hok e ((List.prefix_cons_inj e).mpr List.nil_prefix), hnext⟩, hrest⟩
    · rintro ⟨hs, ⟨hok, hnext⟩, hrest⟩ done hdone
      cases done with
      | nil =>
        refine ⟨hs, fun e' he' => ?_⟩
        obtain rfl := (List.cons_prefix_cons.mp he').1
        exact hok
      | cons e' done =>
        obtain ⟨rfl, htail⟩ := List.cons_prefix_cons.mp hdone
        obtain ⟨hdone', hok'⟩ := ih.mpr ⟨hnext, hrest⟩ done htail
        exact ⟨hdone', fun e' he' => hok' e' (List.cons_prefix_cons.mp he').2⟩

end Run

section Callback

variable {ι γ : Type*}

def Keeps (Inv : ι → σ → Prop) (callback : σ → σ) : Prop :=
  ∀ i s, Inv i s → Inv i (callback s)

/-- What a callback does at nesting depth `depth`: it takes the calls it is going to make from the
state and makes them one by one, each of them calling back at the next smaller depth. -/
def reenter (calls : σ → List γ × σ) (call : (σ → σ) → σ → γ → σ) : Nat → σ → σ
  | 0 => fun s => s
  | depth + 1 => fun s => (calls s).1.foldl (call (reenter calls call depth)) (calls s).2

theorem keeps_reenter {Inv : ι → σ → Prop} {calls : σ → List γ × σ}
    {call : (σ → σ) → σ → γ → σ} (hcalls : ∀ i s, Inv i s → Inv i (calls s).2)
    (hcall : ∀ callback, Keeps Inv callback → ∀ c i s, Inv i s → Inv i (call callback s c))
    (depth : Nat) : Keeps Inv (reenter calls call depth) := by
  induction depth with
  | zero => exact fun i s hs => hs
  | succ depth ih =>
    intro i s hs
    have hfold : ∀ (cs : List γ) (t : σ), Inv i t → Inv i (cs.foldl (call (reenter calls call depth)) t) := by
      intro cs
      induction cs with
      | nil => exact fun t ht => ht
      | cons c cs ihcs => exact fun t ht => ihcs _ (hcall _ ih c i t ht)
    exact hfold _ _ (hcalls i s hs)

def reenterWith (call : (List γ → σ → σ) → σ → γ → σ) : Nat → List γ → σ → σ
  | 0 => fun _ s => s
  | depth + 1 => fun calls s => calls.foldl (call (reenterWith call depth)) s

/-- What holds between the states before and after no call, and is kept by a sequence of calls whose
own callbacks have it, holds at every depth. -/
theorem reenterWith_rule {R : List γ → σ → σ → Prop} {call : (List γ → σ → σ) → σ → γ → σ}
    (hzero : ∀ calls s, R calls s s)
    (hcalls : ∀ callback, (∀ calls s, R calls s (callback calls s)) →
      ∀ calls s, R calls s (calls.foldl (call callback) s))
    (depth : Nat) (calls : List γ) (s : σ) : R calls s (reenterWith call depth calls s) := by
  induction depth generalizing calls s with
  | zero => exact hzero calls s
  | succ depth ih => exact hcalls _ ih calls s

end Callback

end Machine

import Mathlib.Tactic.Common

/-!
# Tables that are searched from the front

A table of a fixed number of entries, in which the code takes the first entry that satisfies some
test.
-/

namespace Table

variable {α : Type*}

def updateFirst (p : α → Bool) (f : α → α) : List α → Option (List α)
  | [] => none
  | a :: as => if p a then some (f a :: as) else (updateFirst p f as).map (a :: ·)

variable {p : α → Bool} {f : α → α} {as as' : List α}

theorem mem_of_updateFirst (h : updateFirst p f as = some as') {b : α} (hb : b ∈ as') :
    b ∈ as ∨ ∃ a ∈ as, p a = true ∧ b = f a := by
  induction as generalizing as' with
  | nil => simp [updateFirst] at h
  | cons a as ih =>
    unfold updateFirst at h
    split at h
    · rename_i hp
      obtain rfl := Option.some.inj h
      rcases List.mem_cons.mp hb with rfl | hb
      · exact .inr ⟨a, List.mem_cons_self, hp, rfl⟩
      · exact .inl (List.mem_cons_of_mem _ hb)
    · obtain ⟨rest, hrest, rfl⟩ := Option.map_eq_some_iff.mp h
      rcases List.mem_cons.mp hb with rfl | hb
      · exact .inl List.mem_cons_self
      · rcases ih hrest hb with hmem | ⟨c, hc, hp, heq⟩
        · exact .inl (List.mem_cons_of_mem _ hmem)
        · exact .inr ⟨c, List.mem_cons_of_mem _ hc, hp, heq⟩

end Table

import Mathlib
import ZipGateway.Lib.Memory

/-!
# Numbers in decimal

The digits of a number as bytes of text, and the number that a text of digits stands for.
-/

namespace Decimal

def isDigit (c : UInt8) : Bool :=
  decide (48 ≤ c.toNat) && decide (c.toNat ≤ 57)

def value (digits : Bytes) : Nat :=
  digits.foldl (fun x c => 10 * x + (c.toNat - 48)) 0

def text (n : Nat) : Bytes :=
  (Nat.toDigits 10 n).map fun c => UInt8.ofNat c.toNat

theorem toNat_digit {n : Nat} (h : n < 10) : (UInt8.ofNat n.digitChar.toNat).toNat = 48 + n := by
  rw [Nat.toNat_digitChar_of_lt_ten h]
  exact UInt8.toNat_ofNat_of_lt' (Nat.lt_trans (Nat.add_lt_add_left h 48) (by decide))

theorem text_eq (n : Nat) :
    text n = (if n < 10 then [] else text (n / 10)) ++ [UInt8.ofNat (n % 10).digitChar.toNat] := by
  rw [text, Nat.toDigits_eq_if (by decide)]
  split
  · rename_i h
    rw [Nat.mod_eq_of_lt h]
    rfl
  · rw [List.map_append]
    rfl

theorem value_append (l : Bytes) (c : UInt8) : value (l ++ [c]) = 10 * value l + (c.toNat - 48) := by
  rw [value, List.foldl_append]
  rfl

theorem value_text (n : Nat) : value (text n) = n := by
  induction n using Nat.strongRecOn with
  | ind n ih =>
    rw [text_eq, value_append, toNat_digit (Nat.mod_lt n (by decide))]
    split
    · rename_i h
      rw [Nat.mod_eq_of_lt h]
      simp [value]
    · rename_i h
      rw [ih (n / 10) (by omega)]
      omega

theorem text_injective {n m : Nat} (h : text n = text m) : n = m := by
  have hvalue := congrArg value h
  rwa [value_text, value_text] at hvalue

theorem isDigit_of_mem_text {n : Nat} {c : UInt8} (h : c ∈ text n) : isDigit c = true := by
  induction n using Nat.strongRecOn with
  | ind n ih =>
    rw [text_eq] at h
    rcases List.mem_append.mp h with h | h
    · split at h
      · cases h
      · exact ih (n / 10) (by omega) h
    · have hlt := Nat.mod_lt n (by decide : 0 < 10)
      rw [List.mem_singleton.mp h, isDigit, toNat_digit hlt]
      simp only [Bool.and_eq_true, decide_eq_true_eq]
      omega

theorem length_text_le_iff {n k : Nat} (hk : 0 < k) : (text n).length ≤ k ↔ n < 10 ^ k := by
  rw [text, List.length_map]
  exact Nat.length_toDigits_le_iff (by decide) hk

theorem length_text_pos (n : Nat) : 0 < (text n).length := by
  rw [text, List.length_map]
  exact Nat.length_toDigits_pos

theorem length_text_mono {n m : Nat} (h : n ≤ m) : (text n).length ≤ (text m).length := by
  have hpos := length_text_pos m
  rw [length_text_le_iff hpos]
  exact Nat.lt_of_le_of_lt h ((length_text_le_iff hpos).mp (Nat.le_refl _))

section Trailing

variable {l digits : Bytes}

theorem rtakeWhile_append (hdigits : ∀ c ∈ digits, isDigit c = true)
    (hlast : ∀ c, l.getLast? = some c → isDigit c = false) :
    (l ++ digits).rtakeWhile isDigit = digits ∧ (l ++ digits).rdropWhile isDigit = l := by
  have hreverse : ∀ c ∈ digits.reverse, isDigit c = true := fun c hc => hdigits c (List.mem_reverse.mp hc)
  have hstop : l.reverse.takeWhile isDigit = [] ∧ l.reverse.dropWhile isDigit = l.reverse := by
    rcases hl : l.reverse with _ | ⟨c, rest⟩
    · exact ⟨rfl, rfl⟩
    · have hc := hlast c (by rw [← List.head?_reverse, hl]; rfl)
      rw [List.takeWhile_cons_of_neg (by simp [hc]), List.dropWhile_cons_of_neg (by simp [hc])]
      exact ⟨rfl, rfl⟩
  rw [List.rtakeWhile, List.rdropWhile, List.reverse_append, List.takeWhile_append_of_pos hreverse,
    List.dropWhile_append_of_pos hreverse, hstop.1, hstop.2, List.append_nil, List.reverse_reverse,
    List.reverse_reverse]
  exact ⟨rfl, rfl⟩

end Trailing

end Decimal

import ZipGateway.Lib.Byte
import ZipGateway.Lib.Utf8

/-!
# The validation of UTF-8 strings

`is_valid_utf8_string` stops at the length or at a NUL, whichever comes first. What it accepts is what
is made of characters up to there, with two characters left out.
-/

set_option maxRecDepth 8000

namespace ZipGateway

/-- The length of a sequence, from its first byte. -/
def utf8Sequence (s : Mem) (len : Nat) : Option Nat :=
  if (s 0).toNat ≤ 127 ∧ 1 ≤ len then some 1
  else if s 0 &&& 0xE0 = 0xC0 ∧ 2 ≤ len then
    if s 0 &&& 0xFE = 0xC0 ∨ s 1 &&& 0xC0 ≠ 0x80 then none else some 2
  else if s 0 &&& 0xF0 = 0xE0 ∧ 3 ≤ len then
    if (s 0 = 0xE0 ∧ s 1 &&& 0xE0 = 0x80) ∨ s 1 &&& 0xC0 ≠ 0x80 ∨ s 2 &&& 0xC0 ≠ 0x80 ∨
        (s 0 = 0xED ∧ s 1 &&& 0xE0 = 0xA0) ∨ (s 0 = 0xEF ∧ s 1 = 0xBF ∧ s 2 &&& 0xFE = 0xBE) then none
    else some 3
  else if s 0 &&& 0xF8 = 0xF0 ∧ 4 ≤ len then
    if (s 0 = 0xF0 ∧ s 1 &&& 0xF0 = 0x80) ∨ s 1 &&& 0xC0 ≠ 0x80 ∨ s 2 &&& 0xC0 ≠ 0x80 ∨
        s 3 &&& 0xC0 ≠ 0x80 ∨ (s 0 = 0xF4 ∧ (s 1).toNat > 0x8F) ∨ (s 0).toNat > 0xF4 then none
    else some 4
  else none

/-- The loop of `is_valid_utf8_string` from `p` on: the verdict, and the pointer and the length it is reached
at. -/
def utf8Loop (s : Mem) : Nat → Nat → Nat → Bool × Nat × Nat
  | 0, p, len => (true, p, len)
  | fuel + 1, p, len =>
    if s p ≠ 0 ∧ 0 < len then
      match utf8Sequence (fun i => s (p + i)) len with
      | some n => utf8Loop s fuel (p + n) (len - n)
      | none => (false, p, len)
    else (true, p, len)

def isValidUtf8String (ss : Option Mem) (len : Nat) : Bool :=
  match ss with
  | none => false
  | some s => (utf8Loop s len 0 len).1

def noncharacter (n : Nat) : Prop :=
  n = 0xFFFE ∨ n = 0xFFFF

def WellFormed (bytes : Bytes) : Prop :=
  Utf8.Text (fun c => ¬ noncharacter c.toNat) bytes

def beforeNul (bytes : Bytes) : Bytes :=
  bytes.takeWhile (· ≠ 0)

variable (x : UInt8)

section Bits

def MaskedTo (mask lo hi x : UInt8) : Prop :=
  x &&& mask = lo ↔ lo.toNat ≤ x.toNat ∧ x.toNat ≤ hi.toNat

instance (mask lo hi x : UInt8) : Decidable (MaskedTo mask lo hi x) :=
  inferInstanceAs (Decidable (_ ↔ _))

theorem lead_masks : ∀ x : UInt8, MaskedTo 0xC0 0x80 0xBF x ∧ MaskedTo 0xE0 0xC0 0xDF x ∧
    MaskedTo 0xF0 0xE0 0xEF x ∧ MaskedTo 0xF8 0xF0 0xF7 x := by
  decide

theorem refused_masks : ∀ x : UInt8, MaskedTo 0xFE 0xC0 0xC1 x ∧ MaskedTo 0xE0 0x80 0x9F x ∧
    MaskedTo 0xE0 0xA0 0xBF x ∧ MaskedTo 0xFE 0xBE 0xBF x ∧ MaskedTo 0xF0 0x80 0x8F x := by
  decide

theorem and_c0_iff : x &&& 0xC0 = 0x80 ↔ Utf8.Tail x :=
  (lead_masks x).1

theorem lead_two_iff : x &&& 0xE0 = 0xC0 ↔ 0xC0 ≤ x.toNat ∧ x.toNat ≤ 0xDF :=
  (lead_masks x).2.1

theorem lead_three_iff : x &&& 0xF0 = 0xE0 ↔ 0xE0 ≤ x.toNat ∧ x.toNat ≤ 0xEF :=
  (lead_masks x).2.2.1

theorem lead_four_iff : x &&& 0xF8 = 0xF0 ↔ 0xF0 ≤ x.toNat ∧ x.toNat ≤ 0xF7 :=
  (lead_masks x).2.2.2

theorem overlong_two_iff : x &&& 0xFE = 0xC0 ↔ 0xC0 ≤ x.toNat ∧ x.toNat ≤ 0xC1 :=
  (refused_masks x).1

theorem overlong_three_iff : x &&& 0xE0 = 0x80 ↔ 0x80 ≤ x.toNat ∧ x.toNat ≤ 0x9F :=
  (refused_masks x).2.1

theorem surrogate_iff : x &&& 0xE0 = 0xA0 ↔ 0xA0 ≤ x.toNat ∧ x.toNat ≤ 0xBF :=
  (refused_masks x).2.2.1

theorem noncharacter_iff : x &&& 0xFE = 0xBE ↔ 0xBE ≤ x.toNat ∧ x.toNat ≤ 0xBF :=
  (refused_masks x).2.2.2.1

theorem overlong_four_iff : x &&& 0xF0 = 0x80 ↔ 0x80 ≤ x.toNat ∧ x.toNat ≤ 0x8F :=
  (refused_masks x).2.2.2.2

theorem byte_eq_iff (x y : UInt8) : x = y ↔ x.toNat = y.toNat :=
  UInt8.toNat_inj.symm

end Bits

section Sequence

variable {s : Mem} {p len n : Nat}

theorem beforeNul_slice_iff {b : UInt8} {l : Bytes} : beforeNul (s.slice p len) = b :: l ↔
    0 < len ∧ s p ≠ 0 ∧ b = s p ∧ l = beforeNul (s.slice (p + 1) (len - 1)) := by
  cases len with
  | zero =>
    constructor
    · intro h
      cases h
    · exact fun h => absurd h.1 (Nat.lt_irrefl 0)
  | succ len =>
    have hcons : s.slice p (len + 1) = s p :: s.slice (p + 1) len := by
      rw [Nat.add_comm, Mem.slice_add]
      rfl
    rw [hcons, beforeNul, Nat.add_sub_cancel]
    by_cases hzero : s p = 0
    · rw [List.takeWhile_cons_of_neg (by simp [hzero])]
      constructor
      · intro h
        cases h
      · exact fun h => absurd hzero h.2.1
    · rw [List.takeWhile_cons_of_pos (by simp [hzero]), List.cons.injEq]
      constructor
      · rintro ⟨rfl, rfl⟩
        exact ⟨Nat.succ_pos _, hzero, rfl, rfl⟩
      · rintro ⟨-, -, rfl, rfl⟩
        exact ⟨rfl, rfl⟩

theorem beforeNul_slice (hzero : s p ≠ 0) (hlen : 0 < len) :
    beforeNul (s.slice p len) = s p :: beforeNul (s.slice (p + 1) (len - 1)) :=
  beforeNul_slice_iff.mpr ⟨hlen, hzero, rfl, rfl⟩

theorem ne_zero_of_tail {b : UInt8} (h : Utf8.Tail b) : b ≠ 0 := by
  rintro rfl
  exact absurd h.1 (by decide)

theorem utf8Sequence_zero (s : Mem) : utf8Sequence s 0 = none := by
  unfold utf8Sequence
  rw [if_neg (by omega), if_neg (by omega), if_neg (by omega), if_neg (by omega)]

theorem utf8Sequence_one (ha : (s 0).toNat ≤ 0x7F) (hlen : 0 < len) : utf8Sequence s len = some 1 :=
  if_pos ⟨ha, hlen⟩

theorem utf8Sequence_two (ha : 0xC0 ≤ (s 0).toNat) (ha' : (s 0).toNat ≤ 0xDF) :
    utf8Sequence s len = some n ↔ n = 2 ∧ 2 ≤ len ∧ 0xC2 ≤ (s 0).toNat ∧ Utf8.Tail (s 1) := by
  have hlead := (lead_two_iff (s 0)).mpr ⟨ha, ha'⟩
  unfold utf8Sequence
  rw [if_neg (by omega)]
  by_cases hlen : 2 ≤ len
  · rw [if_pos ⟨hlead, hlen⟩]
    split
    · rename_i hbad
      rw [overlong_two_iff, ne_eq, and_c0_iff] at hbad
      refine ⟨fun h => (by cases h), fun ⟨_, _, hlow, htail⟩ => ?_⟩
      rcases hbad with hbad | hbad
      · omega
      · exact absurd htail hbad
    · rename_i hok
      rw [overlong_two_iff, ne_eq, and_c0_iff, not_or, not_not] at hok
      rw [Option.some.injEq]
      exact ⟨fun h => ⟨h.symm, hlen, by omega, hok.2⟩, fun h => h.1.symm⟩
  · rw [if_neg (fun h => hlen h.2), if_neg (by rw [lead_three_iff]; omega), if_neg (by rw [lead_four_iff]; omega)]
    exact ⟨fun h => (by cases h), fun h => absurd h.2.1 hlen⟩

theorem utf8Sequence_three (ha : 0xE0 ≤ (s 0).toNat) (ha' : (s 0).toNat ≤ 0xEF) :
    utf8Sequence s len = some n ↔ n = 3 ∧ 3 ≤ len ∧ Utf8.Tail (s 1) ∧ Utf8.Tail (s 2) ∧
      ((s 0).toNat = 0xE0 → 0xA0 ≤ (s 1).toNat) ∧ ((s 0).toNat = 0xED → (s 1).toNat ≤ 0x9F) ∧
      ¬ noncharacter (Utf8.value₃ (s 0) (s 1) (s 2)) := by
  have hlead := (lead_three_iff (s 0)).mpr ⟨ha, ha'⟩
  have hb := (s 1).toNat_lt
  have hd := (s 2).toNat_lt
  unfold utf8Sequence
  rw [if_neg (by omega), if_neg (by rw [lead_two_iff]; omega)]
  by_cases hlen : 3 ≤ len
  · rw [if_pos ⟨hlead, hlen⟩]
    split
    · rename_i hbad
      rw [overlong_three_iff, surrogate_iff, noncharacter_iff, ne_eq, and_c0_iff, ne_eq, and_c0_iff,
        byte_eq_iff, byte_eq_iff, byte_eq_iff, byte_eq_iff] at hbad
      refine ⟨fun h => (by cases h), fun ⟨_, _, htail, htail', hmin, hmax, hchar⟩ => ?_⟩
      unfold noncharacter Utf8.value₃ at hchar
      unfold Utf8.Tail at hbad htail htail'
      simp only [UInt8.reduceToNat] at hbad
      omega
    · rename_i hok
      rw [overlong_three_iff, surrogate_iff, noncharacter_iff, ne_eq, and_c0_iff, ne_eq, and_c0_iff,
        byte_eq_iff, byte_eq_iff, byte_eq_iff, byte_eq_iff] at hok
      rw [Option.some.injEq]
      unfold noncharacter Utf8.value₃ Utf8.Tail
      unfold Utf8.Tail at hok
      simp only [UInt8.reduceToNat] at hok
      refine ⟨fun h => ⟨h.symm, hlen, ⟨?_, ?_⟩, ⟨?_, ?_⟩, ?_, ?_, ?_⟩, fun h => h.1.symm⟩
      all_goals omega
  · rw [if_neg (fun h => hlen h.2), if_neg (by rw [lead_four_iff]; omega)]
    exact ⟨fun h => (by cases h), fun h => absurd h.2.1 hlen⟩

theorem utf8Sequence_four (ha : 0xF0 ≤ (s 0).toNat) :
    utf8Sequence s len = some n ↔ n = 4 ∧ 4 ≤ len ∧ (s 0).toNat ≤ 0xF4 ∧ Utf8.Tail (s 1) ∧
      Utf8.Tail (s 2) ∧ Utf8.Tail (s 3) ∧ ((s 0).toNat = 0xF0 → 0x90 ≤ (s 1).toNat) ∧
      ((s 0).toNat = 0xF4 → (s 1).toNat ≤ 0x8F) := by
  unfold utf8Sequence
  rw [if_neg (by omega), if_neg (by rw [lead_two_iff]; omega), if_neg (by rw [lead_three_iff]; omega)]
  by_cases hlen : 4 ≤ len
  · by_cases hlead : (s 0).toNat ≤ 0xF7
    · rw [if_pos ⟨(lead_four_iff (s 0)).mpr ⟨ha, hlead⟩, hlen⟩]
      split
      · rename_i hbad
        rw [overlong_four_iff, ne_eq, and_c0_iff, ne_eq, and_c0_iff, ne_eq, and_c0_iff, byte_eq_iff,
          byte_eq_iff] at hbad
        refine ⟨fun h => (by cases h), fun ⟨_, _, hhigh, htail, htail', htail'', hmin, hmax⟩ => ?_⟩
        unfold Utf8.Tail at hbad htail htail' htail''
        simp only [UInt8.reduceToNat] at hbad
        omega
      · rename_i hok
        rw [overlong_four_iff, ne_eq, and_c0_iff, ne_eq, and_c0_iff, ne_eq, and_c0_iff, byte_eq_iff, byte_eq_iff] at hok
        rw [Option.some.injEq]
        unfold Utf8.Tail
        unfold Utf8.Tail at hok
        simp only [UInt8.reduceToNat] at hok
        refine ⟨fun h => ⟨h.symm, hlen, ?_, ⟨?_, ?_⟩, ⟨?_, ?_⟩, ⟨?_, ?_⟩, ?_, ?_⟩, fun h => h.1.symm⟩
        all_goals omega
    · rw [if_neg (by rw [lead_four_iff]; omega)]
      exact ⟨fun h => (by cases h), fun ⟨_, _, h, _⟩ => absurd h (by omega)⟩
  · rw [if_neg (fun h => hlen h.2)]
    exact ⟨fun h => (by cases h), fun h => absurd h.2.1 hlen⟩

theorem utf8Sequence_tail (ha : 0x80 ≤ (s 0).toNat) (ha' : (s 0).toNat < 0xC0) : utf8Sequence s len = none := by
  unfold utf8Sequence
  rw [if_neg (by omega), if_neg (by rw [lead_two_iff]; omega), if_neg (by rw [lead_three_iff]; omega),
    if_neg (by rw [lead_four_iff]; omega)]

theorem wellFormed_iff_sequence (hzero : s p ≠ 0) (hlen : 0 < len) :
    WellFormed (beforeNul (s.slice p len)) ↔ ∃ n, utf8Sequence (fun i => s (p + i)) len = some n ∧
      WellFormed (beforeNul (s.slice (p + n) (len - n))) := by
  have hlt := (s p).toNat_lt
  have hall : ∀ {P : Prop}, (∃ c : Char, ¬ noncharacter c.toNat ∧ P) → P := fun ⟨_, _, h⟩ => h
  rw [beforeNul_slice hzero hlen]
  unfold WellFormed
  rcases (by omega : (s p).toNat ≤ 0x7F ∨ (0x80 ≤ (s p).toNat ∧ (s p).toNat < 0xC0) ∨
    (0xC0 ≤ (s p).toNat ∧ (s p).toNat ≤ 0xDF) ∨ (0xE0 ≤ (s p).toNat ∧ (s p).toNat ≤ 0xEF) ∨
    0xF0 ≤ (s p).toNat) with ha | ⟨ha, ha'⟩ | ⟨ha, ha'⟩ | ⟨ha, ha'⟩ | ha
  · have hascii : ∀ c : Char, c.toNat ≤ 0x7F → ¬ noncharacter c.toNat := by
      unfold noncharacter
      omega
    rw [Utf8.text_one_iff hascii ha, utf8Sequence_one (s := fun i => s (p + i)) ha hlen]
    constructor
    · exact fun h => ⟨1, rfl, h⟩
    · rintro ⟨n, hn, h⟩
      rw [← Option.some.inj hn] at h
      exact h
  · rw [utf8Sequence_tail (s := fun i => s (p + i)) ha ha']
    constructor
    · exact fun h => absurd h (Utf8.not_text_of_tail ha ha')
    · rintro ⟨n, hn, -⟩
      cases hn
  · rw [Utf8.text_two_iff ha ha']
    constructor
    · rintro ⟨b, rest, hl, ⟨c, -, hc⟩, htext⟩
      obtain ⟨hlen', -, rfl, rfl⟩ := beforeNul_slice_iff.mp hl
      obtain ⟨hlow, -, htail⟩ := Utf8.exists_two_iff.mp ⟨c, hc⟩
      refine ⟨2, (utf8Sequence_two (s := fun i => s (p + i)) ha ha').mpr ⟨rfl, by omega, hlow, htail⟩, ?_⟩
      exact htext
    · rintro ⟨n, hn, htext⟩
      obtain ⟨rfl, hlen', hlow, htail⟩ := (utf8Sequence_two (s := fun i => s (p + i)) ha ha').mp hn
      refine ⟨s (p + 1), _, beforeNul_slice (ne_zero_of_tail htail) (by omega), ?_, htext⟩
      obtain ⟨c, hc⟩ := Utf8.exists_two_iff.mpr ⟨hlow, ha', htail⟩
      obtain ⟨-, -, -, hvalue⟩ := Utf8.encode_two_iff.mp hc
      have hb := (s (p + 1)).toNat_lt
      have hfirst : (s (p + 0)).toNat ≤ 0xDF := ha'
      refine ⟨c, ?_, hc⟩
      unfold noncharacter
      omega
  · rw [Utf8.text_three_iff ha ha']
    have hiff := @Utf8.exists_three_iff (s p) (s (p + 1)) (s (p + 2)) (fun c => ¬ noncharacter c.toNat)
      (fun n => ¬ noncharacter n) fun _ => Iff.rfl
    constructor
    · rintro ⟨b, d, rest, hl, hchar, htext⟩
      obtain ⟨-, -, rfl, hl'⟩ := beforeNul_slice_iff.mp hl
      obtain ⟨hlen', -, rfl, rfl⟩ := beforeNul_slice_iff.mp hl'.symm
      obtain ⟨-, -, htail, htail', hmin, hmax, hnumber⟩ := hiff.mp hchar
      exact ⟨3, (utf8Sequence_three (s := fun i => s (p + i)) ha ha').mpr
        ⟨rfl, by omega, htail, htail', hmin, hmax, hnumber⟩, htext⟩
    · rintro ⟨n, hn, htext⟩
      obtain ⟨rfl, hlen', htail, htail', hmin, hmax, hnumber⟩ :=
        (utf8Sequence_three (s := fun i => s (p + i)) ha ha').mp hn
      refine ⟨s (p + 1), s (p + 2), _, ?_, hiff.mpr ⟨ha, ha', htail, htail', hmin, hmax, hnumber⟩, htext⟩
      rw [beforeNul_slice (ne_zero_of_tail htail) (by omega), beforeNul_slice (ne_zero_of_tail htail') (by omega)]
      rfl
  · rw [Utf8.text_four_iff ha]
    constructor
    · rintro ⟨b, d, e, rest, hl, ⟨c, -, hc⟩, htext⟩
      obtain ⟨-, -, rfl, hl'⟩ := beforeNul_slice_iff.mp hl
      obtain ⟨-, -, rfl, hl''⟩ := beforeNul_slice_iff.mp hl'.symm
      obtain ⟨hlen', -, rfl, rfl⟩ := beforeNul_slice_iff.mp hl''.symm
      obtain ⟨-, hhigh, htail, htail', htail'', hmin, hmax⟩ := Utf8.exists_four_iff.mp ⟨c, hc⟩
      exact ⟨4, (utf8Sequence_four (s := fun i => s (p + i)) ha).mpr
        ⟨rfl, by omega, hhigh, htail, htail', htail'', hmin, hmax⟩, htext⟩
    · rintro ⟨n, hn, htext⟩
      obtain ⟨rfl, hlen', hhigh, htail, htail', htail'', hmin, hmax⟩ :=
        (utf8Sequence_four (s := fun i => s (p + i)) ha).mp hn
      refine ⟨s (p + 1), s (p + 2), s (p + 3), _, ?_, ?_, htext⟩
      · rw [beforeNul_slice (ne_zero_of_tail htail) (by omega), beforeNul_slice (ne_zero_of_tail htail') (by omega),
          beforeNul_slice (ne_zero_of_tail htail'') (by omega)]
        rfl
      · obtain ⟨c, hc⟩ :=
          Utf8.exists_four_iff.mpr ⟨ha, hhigh, htail, htail', htail'', hmin, hmax⟩
        obtain ⟨-, -, -, -, -, hmin', -⟩ := Utf8.encode_four_iff.mp hc
        refine ⟨c, ?_, hc⟩
        unfold noncharacter
        omega

theorem utf8Sequence_spec (hzero : s p ≠ 0) (h : utf8Sequence (fun i => s (p + i)) len = some n) :
    0 < n ∧ n ≤ len ∧ ∀ i < n, s (p + i) ≠ 0 := by
  have hlt := (s p).toNat_lt
  have hfirst : s (p + 0) ≠ 0 := hzero
  rcases (by omega : (s p).toNat ≤ 0x7F ∨ (0x80 ≤ (s p).toNat ∧ (s p).toNat < 0xC0) ∨
    (0xC0 ≤ (s p).toNat ∧ (s p).toNat ≤ 0xDF) ∨ (0xE0 ≤ (s p).toNat ∧ (s p).toNat ≤ 0xEF) ∨
    0xF0 ≤ (s p).toNat) with ha | ⟨ha, ha'⟩ | ⟨ha, ha'⟩ | ⟨ha, ha'⟩ | ha
  · by_cases hlen : 0 < len
    · rw [utf8Sequence_one (s := fun i => s (p + i)) ha hlen] at h
      obtain rfl := Option.some.inj h
      refine ⟨Nat.one_pos, hlen, fun i hi => ?_⟩
      rw [Nat.lt_one_iff.mp hi]
      exact hzero
    · rw [Nat.eq_zero_of_not_pos hlen, utf8Sequence_zero] at h
      cases h
  · rw [utf8Sequence_tail (s := fun i => s (p + i)) ha ha'] at h
    cases h
  · obtain ⟨rfl, hlen, -, htail⟩ := (utf8Sequence_two (s := fun i => s (p + i)) ha ha').mp h
    refine ⟨by decide, hlen, fun i hi => ?_⟩
    rcases (by omega : i = 0 ∨ i = 1) with rfl | rfl
    · exact hfirst
    · exact ne_zero_of_tail htail
  · obtain ⟨rfl, hlen, htail, htail', -⟩ := (utf8Sequence_three (s := fun i => s (p + i)) ha ha').mp h
    refine ⟨by decide, hlen, fun i hi => ?_⟩
    rcases (by omega : i = 0 ∨ i = 1 ∨ i = 2) with rfl | rfl | rfl
    · exact hfirst
    · exact ne_zero_of_tail htail
    · exact ne_zero_of_tail htail'
  · obtain ⟨rfl, hlen, -, htail, htail', htail'', -⟩ :=
      (utf8Sequence_four (s := fun i => s (p + i)) ha).mp h
    refine ⟨by decide, hlen, fun i hi => ?_⟩
    rcases (by omega : i = 0 ∨ i = 1 ∨ i = 2 ∨ i = 3) with rfl | rfl | rfl | rfl
    · exact hfirst
    · exact ne_zero_of_tail htail
    · exact ne_zero_of_tail htail'
    · exact ne_zero_of_tail htail''

end Sequence

section Loop

variable (s : Mem)

theorem beforeNul_stop {p len : Nat} (h : ¬ (s p ≠ 0 ∧ 0 < len)) : beforeNul (s.slice p len) = [] := by
  rcases hl : beforeNul (s.slice p len) with _ | ⟨b, l⟩
  · rfl
  · obtain ⟨hlen, hzero, -⟩ := beforeNul_slice_iff.mp hl
    exact absurd ⟨hzero, hlen⟩ h

theorem utf8Loop_iff (fuel p len : Nat) (hfuel : len ≤ fuel) :
    (utf8Loop s fuel p len).1 = true ↔ WellFormed (beforeNul (s.slice p len)) := by
  induction fuel generalizing p len with
  | zero =>
    rw [beforeNul_stop s (by omega)]
    exact ⟨fun _ => Utf8.text_nil _, fun _ => rfl⟩
  | succ fuel ih =>
    unfold utf8Loop
    split
    · rename_i hcond
      rw [wellFormed_iff_sequence hcond.1 hcond.2]
      cases hseq : utf8Sequence (fun i => s (p + i)) len with
      | none =>
        constructor
        · intro h
          cases h
        · rintro ⟨n, hn, -⟩
          cases hn
      | some n =>
        obtain ⟨hpos, hle, -⟩ := utf8Sequence_spec hcond.1 hseq
        dsimp only
        rw [ih (p + n) (len - n) (by omega)]
        constructor
        · exact fun h => ⟨n, rfl, h⟩
        · rintro ⟨n', hn, h⟩
          rw [← Option.some.inj hn] at h
          exact h
    · rename_i hcond
      rw [beforeNul_stop s hcond]
      exact ⟨fun _ => Utf8.text_nil _, fun _ => rfl⟩

theorem utf8Loop_stays (fuel p len : Nat) : p ≤ (utf8Loop s fuel p len).2.1 ∧
    (utf8Loop s fuel p len).2.1 + (utf8Loop s fuel p len).2.2 = p + len ∧
    ∀ i, p ≤ i → i < (utf8Loop s fuel p len).2.1 → s i ≠ 0 := by
  induction fuel generalizing p len with
  | zero => exact ⟨Nat.le_refl p, rfl, fun i hi hi' => absurd hi (Nat.not_le.mpr hi')⟩
  | succ fuel ih =>
    unfold utf8Loop
    split
    · rename_i hcond
      cases hseq : utf8Sequence (fun i => s (p + i)) len with
      | none => exact ⟨Nat.le_refl p, rfl, fun i hi hi' => absurd hi (Nat.not_le.mpr hi')⟩
      | some n =>
        obtain ⟨-, hle, hall⟩ := utf8Sequence_spec hcond.1 hseq
        obtain ⟨hfrom, hsum, hnul⟩ := ih (p + n) (len - n)
        dsimp only
        refine ⟨by omega, by omega, fun i hi hi' => ?_⟩
        by_cases hin : i < p + n
        · have hne := hall (i - p) (by omega)
          rw [Nat.add_sub_cancel' hi] at hne
          exact hne
        · exact hnul i (by omega) hi'
    · exact ⟨Nat.le_refl p, rfl, fun i hi hi' => absurd hi (Nat.not_le.mpr hi')⟩

end Loop

/-- `is_valid_utf8_string` accepts what is well formed up to a NUL or the end. It passes neither. -/
theorem isValidUtf8String_iff (s : Mem) (len : Nat) :
    (isValidUtf8String (some s) len = true ↔ WellFormed (beforeNul (s.slice 0 len))) ∧
      (utf8Loop s len 0 len).2.1 ≤ len ∧ ∀ i < (utf8Loop s len 0 len).2.1, s i ≠ 0 := by
  obtain ⟨-, hsum, hnul⟩ := utf8Loop_stays s len 0 len
  refine ⟨utf8Loop_iff s len 0 len (Nat.le_refl len), by omega, fun i hi => ?_⟩
  exact hnul i (Nat.zero_le i) hi

end ZipGateway

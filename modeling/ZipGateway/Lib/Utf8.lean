import ZipGateway.Lib.Memory

/-!
# UTF-8

The encoding of a character is that of the language. The lemmas say which one, two, three or four bytes
are the encoding of some character, and that the first byte tells how many there are.
-/

namespace Utf8

open String (utf8EncodeChar)

def Tail (b : UInt8) : Prop :=
  0x80 ≤ b.toNat ∧ b.toNat ≤ 0xBF

def Text (kind : Char → Prop) (bytes : Bytes) : Prop :=
  ∃ cs : List Char, (∀ c ∈ cs, kind c) ∧ cs.flatMap utf8EncodeChar = bytes

section Encoding

variable {a b d e : UInt8} {c : Char}

theorem toNat_lt (c : Char) : c.toNat < 0x110000 := by
  rcases c.valid with h | ⟨-, h⟩
  · exact Nat.lt_trans h (by decide)
  · exact h

theorem not_surrogate (c : Char) : c.toNat < 0xD800 ∨ 0xDFFF < c.toNat := by
  rcases c.valid with h | ⟨h, -⟩
  · exact .inl h
  · exact .inr h

theorem ofNat_eq_iff {n : Nat} (hn : n < 256) : UInt8.ofNat n = a ↔ n = a.toNat := by
  rw [← UInt8.toNat_inj, UInt8.toNat_ofNat_of_lt' hn]

theorem encode_one_iff : utf8EncodeChar c = [a] ↔ a.toNat ≤ 0x7F ∧ c.toNat = a.toNat := by
  unfold utf8EncodeChar
  change (if c.toNat ≤ 0x7F then [UInt8.ofNat c.toNat] else _) = _ ↔ _
  have ha := a.toNat_lt
  split
  · rename_i h
    rw [List.cons.injEq, ofNat_eq_iff (by omega), and_iff_left rfl]
    omega
  · rename_i h
    refine ⟨fun heq => ?_, fun ⟨_, _⟩ => by omega⟩
    split at heq
    · cases heq
    · split at heq
      · cases heq
      · cases heq

theorem encode_two_iff : utf8EncodeChar c = [a, b] ↔
    0xC2 ≤ a.toNat ∧ a.toNat ≤ 0xDF ∧ Tail b ∧ c.toNat = (a.toNat - 0xC0) * 64 + (b.toNat - 0x80) := by
  unfold utf8EncodeChar Tail
  change (if c.toNat ≤ 0x7F then _ else (if c.toNat ≤ 0x7FF then
    [UInt8.ofNat (c.toNat / 64 % 0x20 + 0xC0), UInt8.ofNat (c.toNat % 0x40 + 0x80)] else _)) = _ ↔ _
  split
  · refine ⟨fun heq => ?_, fun _ => by omega⟩
    injection heq with _ heq
    cases heq
  · split
    · rw [List.cons.injEq, List.cons.injEq, ofNat_eq_iff (by omega), ofNat_eq_iff (by omega), and_iff_left rfl]
      omega
    · refine ⟨fun heq => ?_, fun _ => by omega⟩
      split at heq
      · cases heq
      · cases heq

theorem encode_three_iff : utf8EncodeChar c = [a, b, d] ↔
    0xE0 ≤ a.toNat ∧ a.toNat ≤ 0xEF ∧ Tail b ∧ Tail d ∧ 0x800 ≤ c.toNat ∧
      c.toNat = (a.toNat - 0xE0) * 4096 + (b.toNat - 0x80) * 64 + (d.toNat - 0x80) := by
  unfold utf8EncodeChar Tail
  change (if c.toNat ≤ 0x7F then _ else (if c.toNat ≤ 0x7FF then _ else (if c.toNat ≤ 0xFFFF then
    [UInt8.ofNat (c.toNat / 4096 % 0x10 + 0xE0), UInt8.ofNat (c.toNat / 64 % 0x40 + 0x80),
      UInt8.ofNat (c.toNat % 0x40 + 0x80)] else _))) = _ ↔ _
  split
  · refine ⟨fun heq => ?_, fun _ => by omega⟩
    injection heq with _ heq
    cases heq
  · split
    · refine ⟨fun heq => ?_, fun _ => by omega⟩
      injection heq with _ heq
      injection heq with _ heq
      cases heq
    · split
      · rw [List.cons.injEq, List.cons.injEq, List.cons.injEq, ofNat_eq_iff (by omega),
          ofNat_eq_iff (by omega), ofNat_eq_iff (by omega), and_iff_left rfl]
        omega
      · refine ⟨fun heq => ?_, fun _ => by omega⟩
        cases heq

theorem encode_four_iff : utf8EncodeChar c = [a, b, d, e] ↔
    0xF0 ≤ a.toNat ∧ a.toNat ≤ 0xF4 ∧ Tail b ∧ Tail d ∧ Tail e ∧ 0x10000 ≤ c.toNat ∧
      c.toNat = (a.toNat - 0xF0) * 262144 + (b.toNat - 0x80) * 4096 + (d.toNat - 0x80) * 64 + (e.toNat - 0x80) := by
  unfold utf8EncodeChar Tail
  have hlt := toNat_lt c
  change (if c.toNat ≤ 0x7F then _ else (if c.toNat ≤ 0x7FF then _ else (if c.toNat ≤ 0xFFFF then _ else
    [UInt8.ofNat (c.toNat / 262144 % 0x08 + 0xF0), UInt8.ofNat (c.toNat / 4096 % 0x40 + 0x80),
      UInt8.ofNat (c.toNat / 64 % 0x40 + 0x80), UInt8.ofNat (c.toNat % 0x40 + 0x80)]))) = _ ↔ _
  split
  · refine ⟨fun heq => ?_, fun _ => by omega⟩
    injection heq with _ heq
    cases heq
  · split
    · refine ⟨fun heq => ?_, fun _ => by omega⟩
      injection heq with _ heq
      injection heq with _ heq
      cases heq
    · split
      · refine ⟨fun heq => ?_, fun _ => by omega⟩
        injection heq with _ heq
        injection heq with _ heq
        injection heq with _ heq
        cases heq
      · rw [List.cons.injEq, List.cons.injEq, List.cons.injEq, List.cons.injEq, ofNat_eq_iff (by omega),
          ofNat_eq_iff (by omega), ofNat_eq_iff (by omega), ofNat_eq_iff (by omega), and_iff_left rfl]
        omega

theorem exists_char {n : Nat} (h : n < 0xD800 ∨ (0xDFFF < n ∧ n < 0x110000)) : ∃ c : Char, c.toNat = n :=
  ⟨Char.ofNatAux n h, by rfl⟩

theorem exists_two_iff : (∃ c, utf8EncodeChar c = [a, b]) ↔ 0xC2 ≤ a.toNat ∧ a.toNat ≤ 0xDF ∧ Tail b := by
  constructor
  · rintro ⟨c, hc⟩
    rw [encode_two_iff] at hc
    obtain ⟨hlow, hhigh, htail, -⟩ := hc
    exact ⟨hlow, hhigh, htail⟩
  · rintro ⟨hlow, hhigh, htail⟩
    obtain ⟨hb, hb'⟩ := htail
    obtain ⟨c, hc⟩ := exists_char (n := (a.toNat - 0xC0) * 64 + (b.toNat - 0x80)) (by omega)
    refine ⟨c, ?_⟩
    rw [encode_two_iff]
    exact ⟨hlow, hhigh, ⟨hb, hb'⟩, hc⟩

def value₃ (a b d : UInt8) : Nat :=
  (a.toNat - 0xE0) * 4096 + (b.toNat - 0x80) * 64 + (d.toNat - 0x80)

theorem exists_three_iff {kind : Char → Prop} {number : Nat → Prop} (hkind : ∀ c, kind c ↔ number c.toNat) :
    (∃ c, kind c ∧ utf8EncodeChar c = [a, b, d]) ↔
      0xE0 ≤ a.toNat ∧ a.toNat ≤ 0xEF ∧ Tail b ∧ Tail d ∧ (a.toNat = 0xE0 → 0xA0 ≤ b.toNat) ∧
        (a.toNat = 0xED → b.toNat ≤ 0x9F) ∧ number (value₃ a b d) := by
  constructor
  · rintro ⟨c, hk, hc⟩
    rw [encode_three_iff] at hc
    obtain ⟨hlow, hhigh, hb, hd, hmin, hvalue⟩ := hc
    have hscalar := not_surrogate c
    rw [hkind, hvalue] at hk
    obtain ⟨hb₁, hb₂⟩ := hb
    obtain ⟨hd₁, hd₂⟩ := hd
    exact ⟨hlow, hhigh, ⟨hb₁, hb₂⟩, ⟨hd₁, hd₂⟩, by omega, by omega, hk⟩
  · rintro ⟨hlow, hhigh, ⟨hb₁, hb₂⟩, ⟨hd₁, hd₂⟩, hmin, hsurrogate, hk⟩
    obtain ⟨c, hc⟩ := exists_char (n := value₃ a b d) (by unfold value₃; omega)
    refine ⟨c, (hkind c).mpr (hc ▸ hk), ?_⟩
    rw [encode_three_iff]
    unfold value₃ at hc
    exact ⟨hlow, hhigh, ⟨hb₁, hb₂⟩, ⟨hd₁, hd₂⟩, by omega, hc⟩

theorem exists_four_iff : (∃ c, utf8EncodeChar c = [a, b, d, e]) ↔
    0xF0 ≤ a.toNat ∧ a.toNat ≤ 0xF4 ∧ Tail b ∧ Tail d ∧ Tail e ∧ (a.toNat = 0xF0 → 0x90 ≤ b.toNat) ∧
      (a.toNat = 0xF4 → b.toNat ≤ 0x8F) := by
  constructor
  · rintro ⟨c, hc⟩
    rw [encode_four_iff] at hc
    obtain ⟨hlow, hhigh, ⟨hb₁, hb₂⟩, ⟨hd₁, hd₂⟩, ⟨he₁, he₂⟩, hmin, hvalue⟩ := hc
    have hlt := toNat_lt c
    exact ⟨hlow, hhigh, ⟨hb₁, hb₂⟩, ⟨hd₁, hd₂⟩, ⟨he₁, he₂⟩, by omega, by omega⟩
  · rintro ⟨hlow, hhigh, ⟨hb₁, hb₂⟩, ⟨hd₁, hd₂⟩, ⟨he₁, he₂⟩, hmin, hmax⟩
    obtain ⟨c, hc⟩ := exists_char (n := (a.toNat - 0xF0) * 262144 + (b.toNat - 0x80) * 4096 +
      (d.toNat - 0x80) * 64 + (e.toNat - 0x80)) (by omega)
    refine ⟨c, ?_⟩
    rw [encode_four_iff]
    exact ⟨hlow, hhigh, ⟨hb₁, hb₂⟩, ⟨hd₁, hd₂⟩, ⟨he₁, he₂⟩, by omega, hc⟩

theorem encode_cases (c : Char) : (∃ a, utf8EncodeChar c = [a] ∧ a.toNat ≤ 0x7F) ∨
    (∃ a b, utf8EncodeChar c = [a, b] ∧ 0xC2 ≤ a.toNat ∧ a.toNat ≤ 0xDF) ∨
    (∃ a b d, utf8EncodeChar c = [a, b, d] ∧ 0xE0 ≤ a.toNat ∧ a.toNat ≤ 0xEF) ∨
    ∃ a b d e, utf8EncodeChar c = [a, b, d, e] ∧ 0xF0 ≤ a.toNat ∧ a.toNat ≤ 0xF4 := by
  have hlength := String.length_utf8EncodeChar c
  have hpos := Char.utf8Size_pos c
  have hfour := Char.utf8Size_le_four c
  rw [← hlength] at hpos hfour
  rcases henc : utf8EncodeChar c with _ | ⟨a, _ | ⟨b, _ | ⟨d, _ | ⟨e, _ | ⟨f, rest⟩⟩⟩⟩⟩
  · rw [henc] at hpos
    exact absurd hpos (Nat.lt_irrefl 0)
  · rw [encode_one_iff] at henc
    exact .inl ⟨a, rfl, henc.1⟩
  · rw [encode_two_iff] at henc
    obtain ⟨hlow, hhigh, -⟩ := henc
    exact .inr (.inl ⟨a, b, rfl, hlow, hhigh⟩)
  · rw [encode_three_iff] at henc
    obtain ⟨hlow, hhigh, -⟩ := henc
    exact .inr (.inr (.inl ⟨a, b, d, rfl, hlow, hhigh⟩))
  · rw [encode_four_iff] at henc
    obtain ⟨hlow, hhigh, -⟩ := henc
    exact .inr (.inr (.inr ⟨a, b, d, e, rfl, hlow, hhigh⟩))
  · rw [henc] at hfour
    exact absurd hfour (by simp)

end Encoding

section Text

variable {kind : Char → Prop} {a : UInt8} {l : Bytes}

theorem text_nil (kind : Char → Prop) : Text kind [] :=
  ⟨[], fun _ h => absurd h List.not_mem_nil, rfl⟩

theorem text_cons_iff : Text kind (a :: l) ↔ ∃ c rest, kind c ∧ a :: l = utf8EncodeChar c ++ rest ∧ Text kind rest := by
  constructor
  · rintro ⟨cs, hkind, heq⟩
    cases cs with
    | nil => cases heq
    | cons c cs =>
      refine ⟨c, cs.flatMap utf8EncodeChar, hkind c List.mem_cons_self, heq.symm, cs, ?_, rfl⟩
      exact fun c' hc' => hkind c' (List.mem_cons_of_mem _ hc')
  · rintro ⟨c, rest, hc, heq, cs, hkind, rfl⟩
    refine ⟨c :: cs, fun c' hc' => ?_, heq.symm⟩
    rcases List.mem_cons.mp hc' with rfl | hc'
    · exact hc
    · exact hkind c' hc'

theorem text_one_iff (hkind : ∀ c : Char, c.toNat ≤ 0x7F → kind c) (ha : a.toNat ≤ 0x7F) :
    Text kind (a :: l) ↔ Text kind l := by
  rw [text_cons_iff]
  constructor
  · rintro ⟨c, rest, -, heq, htext⟩
    rcases encode_cases c with ⟨a', hc, -⟩ | ⟨a', b, hc, hlow, -⟩ | ⟨a', b, d, hc, hlow, -⟩ | ⟨a', b, d, e, hc, hlow, -⟩
    · rw [hc] at heq
      injection heq with _ hl
      exact hl ▸ htext
    all_goals
      rw [hc] at heq
      injection heq with hhead _
      rw [← hhead] at hlow
      omega
  · intro htext
    obtain ⟨c, hc⟩ := exists_char (n := a.toNat) (by omega)
    refine ⟨c, l, hkind c (hc ▸ ha), ?_, htext⟩
    rw [encode_one_iff.mpr ⟨ha, hc⟩]
    rfl

theorem text_two_iff (ha : 0xC0 ≤ a.toNat) (ha' : a.toNat ≤ 0xDF) : Text kind (a :: l) ↔
    ∃ b rest, l = b :: rest ∧ (∃ c, kind c ∧ utf8EncodeChar c = [a, b]) ∧ Text kind rest := by
  rw [text_cons_iff]
  constructor
  · rintro ⟨c, rest, hk, heq, htext⟩
    rcases encode_cases c with ⟨a', hc, hhigh⟩ | ⟨a', b, hc, -⟩ | ⟨a', b, d, hc, hlow, -⟩ | ⟨a', b, d, e, hc, hlow, -⟩
    · rw [hc] at heq
      injection heq with hhead _
      rw [← hhead] at hhigh
      omega
    · have hc' := hc
      rw [hc] at heq
      injection heq with hhead hl
      rw [← hhead] at hc'
      exact ⟨b, rest, hl, ⟨c, hk, hc'⟩, htext⟩
    all_goals
      rw [hc] at heq
      injection heq with hhead _
      rw [← hhead] at hlow
      omega
  · rintro ⟨b, rest, rfl, ⟨c, hk, hc⟩, htext⟩
    exact ⟨c, rest, hk, by rw [hc]; rfl, htext⟩

theorem text_three_iff (ha : 0xE0 ≤ a.toNat) (ha' : a.toNat ≤ 0xEF) : Text kind (a :: l) ↔
    ∃ b d rest, l = b :: d :: rest ∧ (∃ c, kind c ∧ utf8EncodeChar c = [a, b, d]) ∧ Text kind rest := by
  rw [text_cons_iff]
  constructor
  · rintro ⟨c, rest, hk, heq, htext⟩
    rcases encode_cases c with ⟨a', hc, hhigh⟩ | ⟨a', b, hc, -, hhigh⟩ | ⟨a', b, d, hc, -⟩ | ⟨a', b, d, e, hc, hlow, -⟩
    · rw [hc] at heq
      injection heq with hhead _
      rw [← hhead] at hhigh
      omega
    · rw [hc] at heq
      injection heq with hhead _
      rw [← hhead] at hhigh
      omega
    · have hc' := hc
      rw [hc] at heq
      injection heq with hhead hl
      rw [← hhead] at hc'
      exact ⟨b, d, rest, hl, ⟨c, hk, hc'⟩, htext⟩
    · rw [hc] at heq
      injection heq with hhead _
      rw [← hhead] at hlow
      omega
  · rintro ⟨b, d, rest, rfl, ⟨c, hk, hc⟩, htext⟩
    exact ⟨c, rest, hk, by rw [hc]; rfl, htext⟩

theorem text_four_iff (ha : 0xF0 ≤ a.toNat) : Text kind (a :: l) ↔ ∃ b d e rest,
    l = b :: d :: e :: rest ∧ (∃ c, kind c ∧ utf8EncodeChar c = [a, b, d, e]) ∧ Text kind rest := by
  rw [text_cons_iff]
  constructor
  · rintro ⟨c, rest, hk, heq, htext⟩
    rcases encode_cases c with ⟨a', hc, hhigh⟩ | ⟨a', b, hc, -, hhigh⟩ | ⟨a', b, d, hc, -, hhigh⟩ | ⟨a', b, d, e, hc, -⟩
    · rw [hc] at heq
      injection heq with hhead _
      rw [← hhead] at hhigh
      omega
    · rw [hc] at heq
      injection heq with hhead _
      rw [← hhead] at hhigh
      omega
    · rw [hc] at heq
      injection heq with hhead _
      rw [← hhead] at hhigh
      omega
    · have hc' := hc
      rw [hc] at heq
      injection heq with hhead hl
      rw [← hhead] at hc'
      exact ⟨b, d, e, rest, hl, ⟨c, hk, hc'⟩, htext⟩
  · rintro ⟨b, d, e, rest, rfl, ⟨c, hk, hc⟩, htext⟩
    exact ⟨c, rest, hk, by rw [hc]; rfl, htext⟩

theorem not_text_of_tail (ha : 0x80 ≤ a.toNat) (ha' : a.toNat < 0xC0) : ¬ Text kind (a :: l) := by
  rw [text_cons_iff]
  rintro ⟨c, rest, -, heq, -⟩
  rcases encode_cases c with ⟨a', hc, hbound⟩ | ⟨a', b, hc, hbound, -⟩ | ⟨a', b, d, hc, hbound, -⟩ |
    ⟨a', b, d, e, hc, hbound, -⟩
  all_goals
    rw [hc] at heq
    injection heq with hhead _
    rw [← hhead] at hbound
    omega

theorem Text.append {c : Char} (hc : kind c) (h : Text kind l) : Text kind (utf8EncodeChar c ++ l) := by
  obtain ⟨cs, hkind, rfl⟩ := h
  refine ⟨c :: cs, fun c' hc' => ?_, rfl⟩
  rcases List.mem_cons.mp hc' with rfl | hc'
  · exact hc
  · exact hkind c' hc'

theorem encode_of_zero_mem {c : Char} (h : 0 ∈ utf8EncodeChar c) : utf8EncodeChar c = [0] := by
  have htail : ∀ {b : UInt8}, Tail b → (0 : UInt8) ≠ b := by
    rintro b htail rfl
    exact absurd htail.1 (by decide)
  have hlead : ∀ {a : UInt8}, 0xC2 ≤ a.toNat → (0 : UInt8) ≠ a := by
    rintro a hlow rfl
    exact absurd hlow (by decide)
  rcases encode_cases c with ⟨a, hc, -⟩ | ⟨a, b, hc, -⟩ | ⟨a, b, d, hc, -⟩ | ⟨a, b, d, e, hc, -⟩
  · rw [hc] at h ⊢
    rw [← List.mem_singleton.mp h]
  · obtain ⟨hlow, -, hb, -⟩ := encode_two_iff.mp hc
    rw [hc] at h
    simp [hlead hlow, htail hb] at h
  · obtain ⟨hlow, -, hb, hd, -⟩ := encode_three_iff.mp hc
    rw [hc] at h
    simp [hlead (Nat.le_trans (by decide) hlow), htail hb, htail hd] at h
  · obtain ⟨hlow, -, hb, hd, he, -⟩ := encode_four_iff.mp hc
    rw [hc] at h
    simp [hlead (Nat.le_trans (by decide) hlow), htail hb, htail hd, htail he] at h

theorem Text.takeWhile (h : Text kind l) : Text kind (l.takeWhile (· ≠ 0)) := by
  obtain ⟨cs, hkind, rfl⟩ := h
  induction cs with
  | nil => exact text_nil kind
  | cons c cs ih =>
    rw [List.flatMap_cons]
    by_cases hzero : 0 ∈ utf8EncodeChar c
    · rw [encode_of_zero_mem hzero]
      exact text_nil kind
    · have hall : ∀ b ∈ utf8EncodeChar c, decide (b ≠ 0) = true := by
        intro b hb
        refine decide_eq_true ?_
        rintro rfl
        exact hzero hb
      rw [List.takeWhile_append_of_pos hall]
      exact (ih fun c' hc' => hkind c' (List.mem_cons_of_mem _ hc')).append (hkind c List.mem_cons_self)

end Text

end Utf8

import ZipGateway.Lib.Decimal
import ZipGateway.Names.Grammar

/-!
# The renaming after a conflict

`add_or_increment_trailing_digit` works in the buffer of its caller: it walks back over the digits at the
end of the name, reads the number with `atoi`, and prints the next number over it. The bytes that are read
and written are kept, as offsets from the beginning of the buffer.
-/

namespace ZipGateway

open Decimal (isDigit)

def plus : UInt8 := 0x2B

def isSpace (c : UInt8) : Bool :=
  c == 0x20 || (decide (9 ≤ c.toNat) && decide (c.toNat ≤ 13))

def atoi (text : Bytes) : Int × Nat :=
  let spaces := text.takeWhile isSpace
  let text := text.drop spaces.length
  let sign := if text.head? = some dash ∨ text.head? = some plus then 1 else 0
  let digits := (text.drop sign).takeWhile isDigit
  let value : Int := Decimal.value digits
  (if text.head? = some dash then max (-value) (-2 ^ 63) else min value (2 ^ 63 - 1),
    spaces.length + sign + digits.length)

/-- The loop back over the digits, with the offsets it reads, from 255 on below 0; it does not end when all
are digits. -/
def walkBack (s : Mem) : Nat → UInt8 → Option (UInt8 × List Nat)
  | 0, _ => none
  | fuel + 1, k =>
    if isDigit (s k.toNat) then (walkBack s fuel (k - 1)).map fun r => (r.1, k.toNat :: r.2)
    else some (k, [k.toNat])

structure Renamed where
  s : Mem
  k : UInt8
  reads : List Nat
  writes : List Nat

/-- What `snprintf` writes of a text into a buffer of `maxlen - k` bytes; a negative size is a large one. -/
def snprintfBytes (maxlen k : Nat) (text : Bytes) : Bytes :=
  if maxlen < k then text ++ [0]
  else if maxlen = k then []
  else text.take (maxlen - k - 1) ++ [0]

def printNumber (s : Mem) (k d maxlen : Nat) (reads : List Nat) : Renamed :=
  let text := dash :: Decimal.text d
  let written := snprintfBytes maxlen k text
  let k' := UInt8.ofNat (k + text.length)
  { s := (s.write k written).write k'.toNat [0]
    k := k'
    reads := reads
    writes := List.range' k written.length ++ [k'.toNat] }

def addOrIncrementTrailingDigit (stop : Nat) (s : Mem) (ilen maxlen : UInt8) : Option Renamed :=
  (walkBack s 256 (ilen - 1)).map fun r =>
    let k := r.1.toNat
    if s k = dash then
      let number := atoi (s.slice (k + 1) (stop - (k + 1)))
      let d := ((number.1 + 1) % 256).toNat
      printNumber s k d maxlen.toNat (r.2 ++ k :: List.range' (k + 1) (number.2 + 1))
    else printNumber s ilen.toNat 1 maxlen.toNat (r.2 ++ [k])

structure NameBuffer where
  s : Mem
  len : UInt8

namespace NameBuffer

def name (b : NameBuffer) : Bytes :=
  b.s.slice 0 b.len.toNat

def Numbered (name : Bytes) : Prop :=
  (name.rdropWhile isDigit).getLast? = some dash

instance decidableNumbered (name : Bytes) : Decidable (Numbered name) :=
  inferInstanceAs (Decidable ((name.rdropWhile isDigit).getLast? = some dash))

def stem (name : Bytes) : Bytes :=
  if Numbered name then name.rdropWhile isDigit else name ++ [dash]

def number (name : Bytes) : Nat :=
  if Numbered name then Decimal.value (name.rtakeWhile isDigit) else 0

def nextName (name : Bytes) : Bytes :=
  stem name ++ Decimal.text (number name + 1)

def rename (stop : Nat) (b : NameBuffer) : Option Renamed :=
  addOrIncrementTrailingDigit stop b.s b.len 64

def renameTimes (stop : Nat) : Nat → NameBuffer → Option NameBuffer
  | 0, b => some b
  | n + 1, b => (renameTimes stop n b).bind fun c => (rename stop c).map fun r => ⟨r.s, r.k⟩

def RenamedRight (stop : Nat) (b : NameBuffer) : Prop :=
  ∃ r, rename stop b = some r ∧ name ⟨r.s, r.k⟩ = nextName b.name ∧ (∀ w ∈ r.writes, w < 64) ∧
    ∀ i ∈ r.reads, i < b.len.toNat ∨ (i = b.len.toNat ∧ b.s i = 0)

/-- A number of renamings one after the other are right, and all the names are different. -/
structure RenamedApart (stop : Nat) (b : NameBuffer) (n : Nat) : Prop where
  right : ∀ i < n, ∃ c, renameTimes stop i b = some c ∧ RenamedRight stop c
  apart : ∀ i j, i < j → j ≤ n → ∀ c d, renameTimes stop i b = some c → renameTimes stop j b = some d → c.name ≠ d.name

/-- The name is not all digits, the number at its end is terminated, it does not pass 255, and there is
room for it. -/
structure Room (b : NameBuffer) (n : Nat) : Prop where
  letter : ∃ c ∈ b.name, isDigit c = false
  terminated : Numbered b.name → b.s b.len.toNat = 0
  counter : number b.name + n ≤ 255
  room : (stem b.name).length + (Decimal.text (number b.name + n)).length ≤ 63

section WalkBack

variable {s : Mem} {fuel : Nat} {k : UInt8} {r : UInt8 × List Nat}

theorem mem_of_walkBack (h : walkBack s fuel k = some r) : k.toNat ∈ r.2 := by
  cases fuel with
  | zero => cases h
  | succ fuel =>
    rw [walkBack] at h
    split at h
    · obtain ⟨r', -, rfl⟩ := Option.map_eq_some_iff.mp h
      exact List.mem_cons_self
    · cases h
      exact List.mem_cons_self

theorem mem_walkBack_of_digits (hdigits : ∀ i ≤ k.toNat, isDigit (s i) = true)
    (h : walkBack s fuel k = some r) : 255 ∈ r.2 := by
  induction fuel generalizing k r with
  | zero => cases h
  | succ fuel ih =>
    rw [walkBack, if_pos (hdigits k.toNat (Nat.le_refl _))] at h
    obtain ⟨r', hr, rfl⟩ := Option.map_eq_some_iff.mp h
    apply List.mem_cons_of_mem
    by_cases hzero : k = 0
    · subst hzero
      exact mem_of_walkBack hr
    · have hpos : 0 < k.toNat := Nat.pos_of_ne_zero fun h => hzero (UInt8.toNat_inj.mp h)
      have hpred : (k - 1).toNat = k.toNat - 1 := UInt8.toNat_sub_of_le k 1 (UInt8.le_iff_toNat_le.mpr hpos)
      exact ih (fun i hi => hdigits i (by omega)) hr

theorem walkBack_eq {j m : Nat} (hlt : j + m < 256) (hfuel : m < fuel) (hstop : isDigit (s j) = false)
    (hdigits : ∀ i, j < i → i ≤ j + m → isDigit (s i) = true) :
    walkBack s fuel (UInt8.ofNat (j + m)) = some (UInt8.ofNat j, (List.range' j (m + 1)).reverse) := by
  induction m generalizing fuel with
  | zero =>
    obtain ⟨fuel, rfl⟩ := Nat.exists_eq_add_of_lt hfuel
    have htoNat : (UInt8.ofNat (j + 0)).toNat = j := UInt8.toNat_ofNat_of_lt' hlt
    rw [Nat.zero_add, walkBack, htoNat, if_neg (by simp [hstop])]
    rfl
  | succ m ih =>
    obtain ⟨fuel, rfl⟩ := Nat.exists_eq_add_of_lt hfuel
    have htoNat : (UInt8.ofNat (j + (m + 1))).toNat = j + (m + 1) := UInt8.toNat_ofNat_of_lt' hlt
    have hone : 1 ≤ UInt8.ofNat (j + (m + 1)) := by
      rw [UInt8.le_iff_toNat_le, htoNat]
      exact Nat.le_add_left 1 (j + m)
    have hpred : UInt8.ofNat (j + (m + 1)) - 1 = UInt8.ofNat (j + m) := by
      apply UInt8.toNat_inj.mp
      rw [UInt8.toNat_sub_of_le _ _ hone, htoNat, UInt8.toNat_ofNat_of_lt' (by omega : j + m < 256)]
      rfl
    have hrest : walkBack s (m + 1 + fuel) (UInt8.ofNat (j + m)) =
        some (UInt8.ofNat j, (List.range' j (m + 1)).reverse) :=
      ih (by omega) (by omega) fun i hj hi => hdigits i hj (by omega)
    rw [walkBack, htoNat, if_pos (hdigits _ (by omega) (Nat.le_refl _)), hpred, hrest, Option.map_some,
      List.range'_concat (n := m + 1), List.reverse_append, Nat.one_mul]
    rfl

end WalkBack

section Atoi

variable {digits rest : Bytes}

theorem not_isSpace_of_isDigit {c : UInt8} (h : isDigit c = true) : isSpace c = false := by
  rw [isDigit, Bool.and_eq_true, decide_eq_true_eq, decide_eq_true_eq] at h
  rw [isSpace, Bool.or_eq_false_iff, beq_eq_false_iff_ne, Bool.and_eq_false_iff, decide_eq_false_iff_not,
    decide_eq_false_iff_not]
  refine ⟨?_, .inr (by omega)⟩
  rintro rfl
  exact absurd h.1 (by decide)

theorem not_sign_of_isDigit {c : UInt8} (h : isDigit c = true) : c ≠ dash ∧ c ≠ plus := by
  constructor
  · rintro rfl
    cases h
  · rintro rfl
    cases h

theorem takeWhile_digits (hdigits : ∀ c ∈ digits, isDigit c = true) :
    (digits ++ rest).takeWhile isDigit = digits ++ rest.takeWhile isDigit :=
  List.takeWhile_append_of_pos hdigits

theorem atoi_cons {c : UInt8} (hc : isDigit c = true) : atoi (c :: rest) =
    (min (Decimal.value ((c :: rest).takeWhile isDigit) : Int) (2 ^ 63 - 1),
      ((c :: rest).takeWhile isDigit).length) := by
  have hsign : ¬((c :: rest).head? = some dash ∨ (c :: rest).head? = some plus) := by
    rintro (h | h)
    · exact (not_sign_of_isDigit hc).1 (Option.some.inj h)
    · exact (not_sign_of_isDigit hc).2 (Option.some.inj h)
  have hspaces : (c :: rest).takeWhile isSpace = [] :=
    List.takeWhile_cons_of_neg (by simp [not_isSpace_of_isDigit hc])
  dsimp only [atoi]
  rw [hspaces, List.length_nil, List.drop_zero, if_neg hsign, if_neg fun h => hsign (.inl h), List.drop_zero,
    Nat.add_zero, Nat.zero_add]

theorem length_le_atoi (hdigits : ∀ c ∈ digits, isDigit c = true) : digits.length ≤ (atoi (digits ++ rest)).2 := by
  cases digits with
  | nil => exact Nat.zero_le _
  | cons c digits =>
    rw [List.cons_append, atoi_cons (hdigits c List.mem_cons_self), ← List.cons_append,
      takeWhile_digits hdigits, List.length_append]
    exact Nat.le_add_right _ _

theorem atoi_terminated (hdigits : ∀ c ∈ digits, isDigit c = true) : atoi (digits ++ 0 :: rest) =
    (min (Decimal.value digits : Int) (2 ^ 63 - 1), digits.length) := by
  have hnul : (0 :: rest).takeWhile isDigit = [] := List.takeWhile_cons_of_neg (by decide)
  cases digits with
  | nil =>
    have hspaces : (0 :: rest).takeWhile isSpace = [] := List.takeWhile_cons_of_neg (by decide)
    have hdash : (0 :: rest).head? ≠ some dash := fun h => absurd (Option.some.inj h) (by decide)
    have hplus : (0 :: rest).head? ≠ some plus := fun h => absurd (Option.some.inj h) (by decide)
    dsimp only [atoi, List.nil_append]
    rw [hspaces, List.length_nil, List.drop_zero, if_neg (not_or.mpr ⟨hdash, hplus⟩), if_neg hdash,
      List.drop_zero, hnul]
    rfl
  | cons c digits =>
    rw [List.cons_append, atoi_cons (hdigits c List.mem_cons_self), ← List.cons_append,
      takeWhile_digits hdigits, hnul, List.append_nil]

end Atoi

section Split

variable {b : NameBuffer} {j stop : Nat}

/-- The last byte of a name that is no digit is at the offset `j`. -/
structure Split (b : NameBuffer) (j : Nat) : Prop where
  lt : j < b.len.toNat
  stop : isDigit (b.s j) = false
  digits : ∀ i, j < i → i < b.len.toNat → isDigit (b.s i) = true

theorem exists_split (h : ∃ c ∈ b.name, isDigit c = false) : ∃ j, Split b j := by
  obtain ⟨c, hmem, hc⟩ := h
  obtain ⟨i, hi, rfl⟩ := List.mem_map.mp hmem
  have hlt := List.mem_range.mp hi
  rw [Nat.zero_add] at hc
  have hspec := Nat.findGreatest_spec (P := fun i => isDigit (b.s i) = false) (Nat.le_sub_one_of_lt hlt) hc
  have hle := Nat.findGreatest_le (P := fun i => isDigit (b.s i) = false) (b.len.toNat - 1)
  refine ⟨_, by omega, hspec, fun k hk hklt => ?_⟩
  rw [← Bool.not_eq_false]
  exact Nat.findGreatest_is_greatest hk (Nat.le_sub_one_of_lt hklt)

namespace Split

variable (h : Split b j)
include h

theorem name_eq : b.name = b.s.slice 0 (j + 1) ++ b.s.slice (j + 1) (b.len.toNat - (j + 1)) := by
  have hlt := h.lt
  have hadd := Mem.slice_add b.s 0 (j + 1) (b.len.toNat - (j + 1))
  rwa [Nat.add_sub_cancel' hlt, Nat.zero_add] at hadd

theorem isDigit_of_mem {c : UInt8} (hc : c ∈ b.s.slice (j + 1) (b.len.toNat - (j + 1))) : isDigit c = true := by
  obtain ⟨i, hi, rfl⟩ := List.mem_map.mp hc
  have hlt := List.mem_range.mp hi
  exact h.digits _ (by omega) (by omega)

omit h in
theorem getLast_slice : (b.s.slice 0 (j + 1)).getLast? = some (b.s j) := by
  rw [Mem.slice_add, List.getLast?_append]
  simp [Mem.slice]

theorem parts : b.name.rtakeWhile isDigit = b.s.slice (j + 1) (b.len.toNat - (j + 1)) ∧
    b.name.rdropWhile isDigit = b.s.slice 0 (j + 1) := by
  rw [h.name_eq]
  refine Decimal.rtakeWhile_append (fun c => h.isDigit_of_mem) fun c hc => ?_
  rw [getLast_slice] at hc
  cases hc
  exact h.stop

theorem numbered_iff : Numbered b.name ↔ b.s j = dash := by
  rw [Numbered, h.parts.2, getLast_slice, Option.some.injEq]

theorem stem_eq (hdash : b.s j = dash) : stem b.name = b.s.slice 0 j ++ [dash] := by
  rw [stem, if_pos (h.numbered_iff.mpr hdash), h.parts.2, Mem.slice_add, Nat.zero_add, ← hdash]
  rfl

theorem stem_of_ne (hdash : b.s j ≠ dash) : stem b.name = b.s.slice 0 b.len.toNat ++ [dash] :=
  if_neg fun hn => hdash (h.numbered_iff.mp hn)

theorem number_eq (hdash : b.s j = dash) :
    number b.name = Decimal.value (b.s.slice (j + 1) (b.len.toNat - (j + 1))) := by
  rw [number, if_pos (h.numbered_iff.mpr hdash), h.parts.1]

theorem number_of_ne (hdash : b.s j ≠ dash) : number b.name = 0 :=
  if_neg fun hn => hdash (h.numbered_iff.mp hn)

theorem walkBack_eq : walkBack b.s 256 (b.len - 1) =
    some (UInt8.ofNat j, (List.range' j (b.len.toNat - j)).reverse) := by
  have hlt := h.lt
  have hbyte := UInt8.toNat_lt b.len
  have hpred : b.len - 1 = UInt8.ofNat (j + (b.len.toNat - 1 - j)) := by
    apply UInt8.toNat_inj.mp
    have hone : 1 ≤ b.len := UInt8.le_iff_toNat_le.mpr (Nat.zero_lt_of_lt hlt)
    rw [UInt8.toNat_sub_of_le _ _ hone, UInt8.toNat_ofNat_of_lt' (show j + (b.len.toNat - 1 - j) < 256 by omega)]
    change b.len.toNat - 1 = _
    omega
  have hwalk : walkBack b.s 256 (UInt8.ofNat (j + (b.len.toNat - 1 - j))) =
      some (UInt8.ofNat j, (List.range' j (b.len.toNat - 1 - j + 1)).reverse) :=
    NameBuffer.walkBack_eq (by omega) (by omega) h.stop fun i hj hi => h.digits i hj (by omega)
  rw [hpred, hwalk, show b.len.toNat - 1 - j + 1 = b.len.toNat - j by omega]

end Split

end Split

section Print

variable {s : Mem} {k d : Nat} {reads : List Nat}

theorem length_text_le_three (hd : d < 256) : (Decimal.text d).length ≤ 3 :=
  (Decimal.length_text_le_iff (by decide)).mpr (by omega)

theorem printNumber_k (hk : k ≤ 63) (hd : d < 256) :
    (printNumber s k d 64 reads).k.toNat = k + 1 + (Decimal.text d).length := by
  have hlen := length_text_le_three hd
  change (UInt8.ofNat (k + ((Decimal.text d).length + 1))).toNat = _
  rw [UInt8.toNat_ofNat_of_lt' (show k + ((Decimal.text d).length + 1) < 256 by omega)]
  omega

theorem snprintfBytes_of_room {text : Bytes} (h : k + text.length ≤ 63) : snprintfBytes 64 k text = text ++ [0] := by
  rw [snprintfBytes, if_neg (by omega), if_neg (by omega), List.take_of_length_le (by omega)]

theorem writes_printNumber_iff (hk : k ≤ 63) (hd : d < 256) :
    (∀ w ∈ (printNumber s k d 64 reads).writes, w < 64) ↔ k + 1 + (Decimal.text d).length ≤ 63 := by
  constructor
  · intro h
    have hlast := h _ (List.mem_append_right _ (List.mem_singleton.mpr rfl))
    have htoNat := @printNumber_k s k d reads hk hd
    exact Nat.le_of_lt_succ (htoNat ▸ hlast)
  · intro hroom w hw
    have hwritten : snprintfBytes 64 k (dash :: Decimal.text d) = dash :: Decimal.text d ++ [0] :=
      snprintfBytes_of_room (by rw [List.length_cons]; omega)
    rcases List.mem_append.mp hw with hw | hw
    · have hlt := (List.mem_range'_1.mp hw).2
      rw [hwritten, List.length_append, List.length_cons, List.length_singleton] at hlt
      omega
    · rw [List.mem_singleton.mp hw]
      exact Nat.lt_succ_of_le ((@printNumber_k s k d reads hk hd).symm ▸ hroom)

theorem name_printNumber (hd : d < 256) (hroom : k + 1 + (Decimal.text d).length ≤ 63) :
    name ⟨(printNumber s k d 64 reads).s, (printNumber s k d 64 reads).k⟩ = s.slice 0 k ++ dash :: Decimal.text d ∧
      (printNumber s k d 64 reads).s (printNumber s k d 64 reads).k.toNat = 0 := by
  have htoNat := @printNumber_k s k d reads (by omega) hd
  have hwritten : snprintfBytes 64 k (dash :: Decimal.text d) = dash :: Decimal.text d ++ [0] :=
    snprintfBytes_of_room (by rw [List.length_cons]; omega)
  have hs : (printNumber s k d 64 reads).s =
      (s.write k (dash :: Decimal.text d ++ [0])).write (k + 1 + (Decimal.text d).length) [0] := by
    rw [← htoNat, ← hwritten]
    rfl
  constructor
  · have hlength : k + 1 + (Decimal.text d).length = k + (dash :: Decimal.text d).length := by
      rw [List.length_cons]
      omega
    have hfull := Mem.slice_write_append s 0 k (dash :: Decimal.text d ++ [0])
    rw [name, htoNat, hs, Mem.slice_write_of_disjoint (.inl (Nat.le_of_eq (Nat.zero_add _))), hlength]
    rw [List.length_append, List.length_singleton, ← Nat.add_assoc, Mem.slice_add, ← List.append_assoc,
      Nat.zero_add] at hfull
    exact (List.append_inj' hfull rfl).1
  · rw [htoNat, hs, Mem.write_of_mem (Nat.le_refl _) (Nat.lt_succ_self _), Nat.sub_self]
    rfl

end Print

section Rename

variable {b : NameBuffer} {j stop : Nat}

theorem Split.text_eq (h : Split b j) (hstop : b.len.toNat < stop) :
    b.s.slice (j + 1) (stop - (j + 1)) = b.s.slice (j + 1) (b.len.toNat - (j + 1)) ++
      b.s b.len.toNat :: b.s.slice (b.len.toNat + 1) (stop - (b.len.toNat + 1)) := by
  have hlt := h.lt
  have hfirst := Mem.slice_add b.s (j + 1) (b.len.toNat - (j + 1)) (1 + (stop - (b.len.toNat + 1)))
  rw [Mem.slice_add b.s (j + 1 + (b.len.toNat - (j + 1))) 1, Nat.add_sub_cancel' hlt] at hfirst
  rw [show stop - (j + 1) = b.len.toNat - (j + 1) + (1 + (stop - (b.len.toNat + 1))) by omega]
  exact hfirst

theorem Split.rename_eq (h : Split b j) (hdash : b.s j = dash) : rename stop b = some (printNumber b.s j
      (((atoi (b.s.slice (j + 1) (stop - (j + 1)))).1 + 1) % 256).toNat 64
      ((List.range' j (b.len.toNat - j)).reverse ++
        j :: List.range' (j + 1) ((atoi (b.s.slice (j + 1) (stop - (j + 1)))).2 + 1))) := by
  have hj : (UInt8.ofNat j).toNat = j := UInt8.toNat_ofNat_of_lt' (Nat.lt_trans h.lt (UInt8.toNat_lt b.len))
  dsimp only [rename, addOrIncrementTrailingDigit]
  rw [h.walkBack_eq, Option.map_some]
  dsimp only
  rw [hj, if_pos hdash]
  rfl

theorem Split.rename_of_ne (h : Split b j) (hdash : b.s j ≠ dash) :
    rename stop b = some (printNumber b.s b.len.toNat 1 64 ((List.range' j (b.len.toNat - j)).reverse ++ [j])) := by
  have hj : (UInt8.ofNat j).toNat = j := UInt8.toNat_ofNat_of_lt' (Nat.lt_trans h.lt (UInt8.toNat_lt b.len))
  dsimp only [rename, addOrIncrementTrailingDigit]
  rw [h.walkBack_eq, Option.map_some]
  dsimp only
  rw [hj, if_neg hdash]
  rfl

theorem letter_of_renamedRight (hlen : b.len.toNat ≤ 63) (h : RenamedRight stop b) :
    ∃ c ∈ b.name, isDigit c = false := by
  obtain ⟨r, hr, -, -, hreads⟩ := h
  obtain ⟨w, hw, rfl⟩ := Option.map_eq_some_iff.mp hr
  by_contra hnone
  have hdigits : ∀ i < b.len.toNat, isDigit (b.s i) = true := by
    intro i hi
    rw [← Bool.not_eq_false]
    intro hstop
    exact hnone ⟨b.s (0 + i), List.mem_map.mpr ⟨i, List.mem_range.mpr hi, rfl⟩, (Nat.zero_add i).symm ▸ hstop⟩
  have hmem : 255 ∈ w.2 := by
    by_cases hzero : b.len = 0
    · have hwalk := mem_of_walkBack hw
      rwa [hzero] at hwalk
    · have hpos : 0 < b.len.toNat := Nat.pos_of_ne_zero fun h => hzero (UInt8.toNat_inj.mp h)
      have hpred : (b.len - 1).toNat = b.len.toNat - 1 :=
        UInt8.toNat_sub_of_le b.len 1 (UInt8.le_iff_toNat_le.mpr hpos)
      exact mem_walkBack_of_digits (fun i hi => hdigits i (by omega)) hw
  have hread : (255 : Nat) < b.len.toNat ∨ (255 : Nat) = b.len.toNat ∧ b.s 255 = 0 := by
    apply hreads
    dsimp only
    split
    · exact List.mem_append_left _ hmem
    · exact List.mem_append_left _ hmem
  omega

theorem Split.reads_iff (h : Split b j) (hstop : b.len.toNat < stop) :
    (∀ i ∈ (List.range' j (b.len.toNat - j)).reverse ++
        j :: List.range' (j + 1) ((atoi (b.s.slice (j + 1) (stop - (j + 1)))).2 + 1),
      i < b.len.toNat ∨ (i = b.len.toNat ∧ b.s i = 0)) ↔ b.s b.len.toNat = 0 := by
  have hlt := h.lt
  have hdigits : ∀ c ∈ b.s.slice (j + 1) (b.len.toNat - (j + 1)), isDigit c = true := fun c => h.isDigit_of_mem
  rw [h.text_eq hstop]
  constructor
  · intro hreads
    have hcount := @length_le_atoi _ (b.s b.len.toNat :: b.s.slice (b.len.toNat + 1) (stop - (b.len.toNat + 1))) hdigits
    rw [Mem.length_slice] at hcount
    have hread := hreads b.len.toNat (List.mem_append_right _ (List.mem_cons_of_mem _
      (List.mem_range'_1.mpr ⟨hlt, by omega⟩)))
    exact (hread.resolve_left (Nat.lt_irrefl _)).2
  · intro hnul i hi
    rw [hnul, atoi_terminated hdigits, Mem.length_slice] at hi
    rcases List.mem_append.mp hi with hi | hi
    · have hrange := List.mem_range'_1.mp (List.mem_reverse.mp hi)
      exact .inl (by omega)
    rcases List.mem_cons.mp hi with rfl | hi
    · exact .inl hlt
    have hrange := List.mem_range'_1.mp hi
    by_cases hlast : i = b.len.toNat
    · exact .inr ⟨hlast, hlast ▸ hnul⟩
    · exact .inl (by omega)

theorem Split.renamed (h : Split b j) (hdash : b.s j = dash) (hstop : b.len.toNat < stop)
    (hnul : b.s b.len.toNat = 0) (hcounter : number b.name + 1 ≤ 255) :
    ∃ reads, (∀ i ∈ reads, i < b.len.toNat ∨ (i = b.len.toNat ∧ b.s i = 0)) ∧
      rename stop b = some (printNumber b.s j (number b.name + 1) 64 reads) := by
  have hatoi : (atoi (b.s.slice (j + 1) (stop - (j + 1)))).1 = min (number b.name : Int) (2 ^ 63 - 1) := by
    rw [h.text_eq hstop, hnul, atoi_terminated fun c => h.isDigit_of_mem, h.number_eq hdash]
  have hd : (((atoi (b.s.slice (j + 1) (stop - (j + 1)))).1 + 1) % 256).toNat = number b.name + 1 := by
    rw [hatoi]
    omega
  refine ⟨_, (h.reads_iff hstop).mpr hnul, ?_⟩
  rw [h.rename_eq hdash, hd]

structure Renames (stop : Nat) (b : NameBuffer) (r : Renamed) : Prop where
  eq : rename stop b = some r
  name : name ⟨r.s, r.k⟩ = nextName b.name
  terminated : r.s r.k.toNat = 0
  writes : ∀ w ∈ r.writes, w < 64
  reads : ∀ i ∈ r.reads, i < b.len.toNat ∨ (i = b.len.toNat ∧ b.s i = 0)

theorem Renames.right {r : Renamed} (h : Renames stop b r) : RenamedRight stop b :=
  ⟨r, h.eq, h.name, h.writes, h.reads⟩

theorem exists_renames (hlen : b.len.toNat ≤ 63) (hstop : 64 ≤ stop) (h : Room b 1) : ∃ r, Renames stop b r := by
  obtain ⟨j, hsplit⟩ := exists_split h.letter
  have hlt := hsplit.lt
  have hcounter := h.counter
  have hroom := h.room
  by_cases hdash : b.s j = dash
  · have hnul := h.terminated (hsplit.numbered_iff.mpr hdash)
    obtain ⟨reads, hreads, heq⟩ := @Split.renamed b j stop hsplit hdash (by omega) hnul hcounter
    have hfits : j + 1 + (Decimal.text (number b.name + 1)).length ≤ 63 := by
      rwa [hsplit.stem_eq hdash, List.length_append, Mem.length_slice, List.length_singleton] at hroom
    obtain ⟨hname, hterminated⟩ := @name_printNumber b.s j (number b.name + 1) reads (by omega) hfits
    refine ⟨_, heq, ?_, hterminated, (writes_printNumber_iff (by omega) (by omega)).mpr hfits, hreads⟩
    rw [hname, nextName, hsplit.stem_eq hdash, List.append_assoc]
    rfl
  · have hreads : ∀ i ∈ (List.range' j (b.len.toNat - j)).reverse ++ [j],
        i < b.len.toNat ∨ (i = b.len.toNat ∧ b.s i = 0) := by
      intro i hi
      rcases List.mem_append.mp hi with hi | hi
      · have hrange := List.mem_range'_1.mp (List.mem_reverse.mp hi)
        exact .inl (by omega)
      · exact .inl (List.mem_singleton.mp hi ▸ hlt)
    have hnumber := hsplit.number_of_ne hdash
    have hfits : b.len.toNat + 1 + (Decimal.text 1).length ≤ 63 := by
      rwa [hsplit.stem_of_ne hdash, hnumber, List.length_append, Mem.length_slice, List.length_singleton] at hroom
    obtain ⟨hname, hterminated⟩ := @name_printNumber b.s b.len.toNat 1
      ((List.range' j (b.len.toNat - j)).reverse ++ [j]) (by decide) hfits
    refine ⟨_, hsplit.rename_of_ne hdash, ?_, hterminated, (writes_printNumber_iff hlen (by decide)).mpr hfits, hreads⟩
    rw [hname, nextName, hsplit.stem_of_ne hdash, hnumber, List.append_assoc]
    rfl

theorem room_of_renamedRight (hlen : b.len.toNat ≤ 63) (hstop : 64 ≤ stop) (h : RenamedRight stop b) : Room b 1 := by
  have hletter := letter_of_renamedRight hlen h
  obtain ⟨j, hsplit⟩ := exists_split hletter
  have hlt := hsplit.lt
  obtain ⟨r, hr, hname, hwrites, hreads⟩ := h
  by_cases hdash : b.s j = dash
  · rw [hsplit.rename_eq hdash] at hr
    cases hr
    have hnul := (hsplit.reads_iff (by omega)).mp hreads
    have hd : (((atoi (b.s.slice (j + 1) (stop - (j + 1)))).1 + 1) % 256).toNat < 256 := by omega
    have hfits := (writes_printNumber_iff (by omega) hd).mp hwrites
    rw [(name_printNumber hd hfits).1, nextName, hsplit.stem_eq hdash, List.append_assoc] at hname
    have htext := List.cons.inj (List.append_cancel_left hname)
    have hnumber := Decimal.text_injective htext.2
    rw [hnumber] at hd hfits
    refine ⟨hletter, fun _ => hnul, Nat.le_of_lt_succ hd, ?_⟩
    rwa [hsplit.stem_eq hdash, List.length_append, Mem.length_slice, List.length_singleton]
  · rw [hsplit.rename_of_ne hdash] at hr
    cases hr
    have hfits := (writes_printNumber_iff hlen (by decide)).mp hwrites
    have hnumber := hsplit.number_of_ne hdash
    refine ⟨hletter, fun hn => absurd (hsplit.numbered_iff.mp hn) hdash, by omega, ?_⟩
    rwa [hsplit.stem_of_ne hdash, hnumber, List.length_append, Mem.length_slice, List.length_singleton]

end Rename

section Next

variable {name : Bytes} {m : Nat}

theorem getLast_stem (name : Bytes) : (stem name).getLast? = some dash := by
  rw [stem]
  split
  · assumption
  · exact List.getLast?_concat

theorem parts_stem (name : Bytes) (m : Nat) : (stem name ++ Decimal.text m).rtakeWhile isDigit = Decimal.text m ∧
      (stem name ++ Decimal.text m).rdropWhile isDigit = stem name := by
  refine Decimal.rtakeWhile_append (fun c => Decimal.isDigit_of_mem_text) fun c hc => ?_
  rw [getLast_stem] at hc
  cases hc
  rfl

theorem numbered_stem (name : Bytes) (m : Nat) : Numbered (stem name ++ Decimal.text m) := by
  rw [Numbered, (parts_stem name m).2]
  exact getLast_stem name

theorem stem_stem (name : Bytes) (m : Nat) : stem (stem name ++ Decimal.text m) = stem name := by
  rw [stem, if_pos (numbered_stem name m), (parts_stem name m).2]

theorem number_stem (name : Bytes) (m : Nat) : number (stem name ++ Decimal.text m) = m := by
  rw [number, if_pos (numbered_stem name m), (parts_stem name m).1, Decimal.value_text]

end Next

section Times

variable {b c : NameBuffer} {i n stop : Nat}

structure Reached (stop : Nat) (b : NameBuffer) (i : Nat) (c : NameBuffer) : Prop where
  eq : renameTimes stop i b = some c
  len : c.len.toNat ≤ 63
  stem : stem c.name = stem b.name
  number : number c.name = number b.name + i
  letter : ∃ x ∈ c.name, isDigit x = false
  terminated : Numbered c.name → c.s c.len.toNat = 0

theorem Reached.start (hlen : b.len.toNat ≤ 63) (hroom : Room b 1) : Reached stop b 0 b :=
  ⟨rfl, hlen, rfl, rfl, hroom.letter, hroom.terminated⟩

theorem Reached.room_iff (h : Reached stop b i c) (hroom : Room b 1) : Room c 1 ↔ Room b (i + 1) := by
  constructor
  · intro hc
    have hcounter := hc.counter
    have hfits := hc.room
    rw [h.number, Nat.add_assoc] at hcounter hfits
    rw [h.stem] at hfits
    exact ⟨hroom.letter, hroom.terminated, hcounter, hfits⟩
  · intro hb
    have hcounter := hb.counter
    have hfits := hb.room
    rw [← Nat.add_assoc, ← h.number] at hcounter hfits
    rw [← h.stem] at hfits
    exact ⟨h.letter, h.terminated, hcounter, hfits⟩

theorem Reached.next (hstop : 64 ≤ stop) (h : Reached stop b i c) (hroom : Room c 1) :
    ∃ d, Reached stop b (i + 1) d := by
  obtain ⟨r, hr⟩ := exists_renames h.len hstop hroom
  have hname : name ⟨r.s, r.k⟩ = NameBuffer.stem c.name ++ Decimal.text (NameBuffer.number c.name + 1) :=
    hr.name
  refine ⟨⟨r.s, r.k⟩, ?_, ?_, ?_, ?_, ?_, fun _ => hr.terminated⟩
  · rw [renameTimes, h.eq, Option.bind_some, hr.eq, Option.map_some]
  · have hlength := congrArg List.length hname
    rw [name, Mem.length_slice, List.length_append] at hlength
    exact hlength ▸ hroom.room
  · rw [hname, stem_stem, h.stem]
  · rw [hname, number_stem, h.number, Nat.add_assoc]
  · rw [hname]
    exact ⟨dash, List.mem_append_left _ (List.mem_of_getLast? (getLast_stem _)), rfl⟩

theorem Room.mono {m : Nat} (h : Room b n) (hle : m ≤ n) : Room b m := by
  have hcounter := h.counter
  have hroom := h.room
  have hmono := Decimal.length_text_mono (Nat.add_le_add_left hle (number b.name))
  exact ⟨h.letter, h.terminated, by omega, by omega⟩

theorem Room.reached (hlen : b.len.toNat ≤ 63) (hstop : 64 ≤ stop) (hpos : 0 < n) (h : Room b n) (hi : i ≤ n) :
    ∃ c, Reached stop b i c := by
  induction i with
  | zero => exact ⟨b, .start hlen (h.mono hpos)⟩
  | succ i ih =>
    obtain ⟨c, hc⟩ := ih (Nat.le_of_succ_le hi)
    exact hc.next hstop ((hc.room_iff (h.mono hpos)).mpr (h.mono hi))

theorem RenamedApart.room (hlen : b.len.toNat ≤ 63) (hstop : 64 ≤ stop) (h : RenamedApart stop b n)
    (hi : i < n) : Room b (i + 1) ∧ ∃ c, Reached stop b (i + 1) c := by
  have hfirst : Room b 1 := by
    obtain ⟨c, hc, hright⟩ := h.right 0 (Nat.zero_lt_of_lt hi)
    cases hc
    exact room_of_renamedRight hlen hstop hright
  have hstep : ∀ j < n, (∃ c, Reached stop b j c) → Room b (j + 1) ∧ ∃ c, Reached stop b (j + 1) c := by
    rintro j hj ⟨c, hc⟩
    obtain ⟨d, hd, hright⟩ := h.right j hj
    rw [hc.eq] at hd
    cases hd
    have hroom := room_of_renamedRight hc.len hstop hright
    exact ⟨(hc.room_iff hfirst).mp hroom, hc.next hstop hroom⟩
  induction i with
  | zero => exact hstep 0 hi ⟨b, .start hlen hfirst⟩
  | succ i ih => exact hstep (i + 1) hi (ih (Nat.lt_of_succ_lt hi)).2

/-- The renamings of a name are right, and never come back to a name, exactly as long as there is room. -/
theorem renamedApart_iff (stop : Nat) (b : NameBuffer) (n : Nat) (hlen : b.len.toNat ≤ 63) (hstop : 64 ≤ stop) :
    RenamedApart stop b n ↔ n = 0 ∨ Room b n := by
  constructor
  · intro h
    rcases n with _ | n
    · exact .inl rfl
    · exact .inr (h.room hlen hstop (Nat.lt_succ_self n)).1
  · intro h
    by_cases hzero : n = 0
    · subst hzero
      exact ⟨fun i hi => absurd hi (Nat.not_lt_zero i), fun i j hij hj => by omega⟩
    have hpos := Nat.pos_of_ne_zero hzero
    have hroom := h.resolve_left hzero
    refine ⟨fun i hi => ?_, fun i j hij hj c d hc hd hname => ?_⟩
    · obtain ⟨c, hc⟩ := hroom.reached hlen hstop hpos (Nat.le_of_lt hi)
      obtain ⟨r, hr⟩ := exists_renames hc.len hstop ((hc.room_iff (hroom.mono hpos)).mpr (hroom.mono hi))
      exact ⟨c, hc.eq, hr.right⟩
    · obtain ⟨c', hc'⟩ := hroom.reached hlen hstop hpos (Nat.le_trans (Nat.le_of_lt hij) hj)
      obtain ⟨d', hd'⟩ := hroom.reached hlen hstop hpos hj
      rw [hc'.eq] at hc
      rw [hd'.eq] at hd
      cases hc
      cases hd
      have hnumber := hc'.number
      rw [hname, hd'.number] at hnumber
      omega

def aDashOne : NameBuffer :=
  ⟨Mem.ofBytes [0x61, 0x2D, 0x31], 3⟩

theorem aDashOne_renamedApart : RenamedApart 64 aDashOne 2 := by
  have hroom : Room aDashOne 2 :=
    ⟨by decide, fun _ => by decide, by decide, by decide⟩
  exact (renamedApart_iff 64 aDashOne 2 (by decide) (by decide)).mpr (.inr hroom)

theorem aDash255_not_renamedApart : ¬ ∀ n, RenamedApart 64 ⟨Mem.ofBytes [0x61, 0x2D, 0x32, 0x35, 0x35], 5⟩ n := by
  intro h
  obtain ⟨c, hc, r, hr, hname, -, -⟩ := (h 1).right 0 (by decide)
  cases hc
  have hzero : (rename 64 ⟨Mem.ofBytes [0x61, 0x2D, 0x32, 0x35, 0x35], 5⟩).map (fun r => name ⟨r.s, r.k⟩) =
      some [0x61, 0x2D, 0x30] := by decide
  rw [hr, Option.map_some, hname] at hzero
  exact absurd (Option.some.inj hzero) (by decide)

end Times

end NameBuffer

end ZipGateway

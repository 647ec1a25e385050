import Mathlib.Data.List.TakeWhile
import ZipGateway.Names.Validation

/-!
# The grammar of mDNS names and locations

`is_valid_mdns_name` and `is_valid_mdns_location` look at the whole array for the characters that are not
allowed, but at what comes before a NUL only for UTF-8. A dash is looked for at the end of a name, and
before the dots of a location, but not at its end.
-/

namespace ZipGateway

def dot : UInt8 := 0x2E
def underscore : UInt8 := 0x5F
def dash : UInt8 := 0x2D

def isValidMdnsName (name : Mem) (len : Nat) : Bool :=
  if len = 0 then true
  else if (List.range len).any fun i => name i == dot || name i == underscore then false
  else if name (len - 1) = dash then false
  else if name (len - 1) = 0 then false
  else isValidUtf8String (some name) len

def isValidMdnsLocation (location : Mem) (len : Nat) : Bool :=
  if len = 0 then true
  else if location 0 = dot ∨ location (len - 1) = dot then false
  else if (List.range len).any fun i => location i == underscore ||
      (decide (1 ≤ i) && decide (i ≤ len - 1) && location i == dot && location (i - 1) == dash) then false
  else isValidUtf8String (some location) len

structure MdnsName (name : Bytes) : Prop where
  dot : dot ∉ name
  underscore : underscore ∉ name
  dash : name.getLast? ≠ some dash
  text : WellFormed name

structure MdnsLocation (location : Bytes) : Prop where
  first : location.head? ≠ some dot
  last : location.getLast? ≠ some dot
  underscore : underscore ∉ location
  dash : ∀ part ∈ location.splitOn dot, part.getLast? ≠ some dash
  text : WellFormed location

def DashDot (bytes : Bytes) : Prop :=
  ∃ i, bytes[i]? = some dash ∧ bytes[i + 1]? = some dot

section Parts

variable {x y : UInt8} {l : Bytes}

theorem not_dashDot_nil : ¬ DashDot [] := by
  rintro ⟨i, hi, -⟩
  cases hi

theorem dashDot_cons : DashDot (x :: l) ↔ (x = dash ∧ l.head? = some dot) ∨ DashDot l := by
  constructor
  · rintro ⟨i, hdash, hdot⟩
    cases i with
    | zero =>
      left
      rw [List.head?_eq_getElem?]
      exact ⟨Option.some.inj hdash, hdot⟩
    | succ i => exact .inr ⟨i, hdash, hdot⟩
  · rintro (⟨rfl, hdot⟩ | ⟨i, hdash, hdot⟩)
    · rw [List.head?_eq_getElem?] at hdot
      exact ⟨0, rfl, hdot⟩
    · exact ⟨i + 1, hdash, hdot⟩

theorem splitOn_cons (x : UInt8) (l : Bytes) : (x :: l).splitOn dot =
    if x = dot then [] :: l.splitOn dot else (l.splitOn dot).modifyHead (x :: ·) := by
  rw [List.splitOn, List.splitOnP_cons_eq_if_modifyHead, List.splitOn]
  by_cases h : x = dot
  · simp [h]
  · simp [h]

theorem head_splitOn_eq_nil_iff {part : Bytes} {parts : List Bytes} (h : l.splitOn dot = part :: parts) :
    part = [] ↔ l = [] ∨ l.head? = some dot := by
  cases l with
  | nil =>
    rw [List.splitOn_nil] at h
    injection h with hpart _
    exact ⟨fun _ => .inl rfl, fun _ => hpart.symm⟩
  | cons x l =>
    rw [splitOn_cons] at h
    by_cases hx : x = dot
    · rw [if_pos hx] at h
      injection h with hpart _
      exact ⟨fun _ => .inr (congrArg some hx), fun _ => hpart.symm⟩
    · rw [if_neg hx] at h
      rcases hl : l.splitOn dot with _ | ⟨part', parts'⟩
      · exact absurd hl (List.splitOnP_ne_nil _ _)
      · rw [hl] at h
        injection h with hpart _
        constructor
        · intro hnil
          rw [hnil] at hpart
          cases hpart
        · rintro (hnil | hhead)
          · cases hnil
          · exact absurd (Option.some.inj hhead) hx

theorem parts_iff (l : Bytes) : (∀ part ∈ l.splitOn dot, part.getLast? ≠ some dash) ↔
    ¬ DashDot l ∧ l.getLast? ≠ some dash := by
  induction l with
  | nil =>
    rw [List.splitOn_nil]
    refine ⟨fun _ => ⟨not_dashDot_nil, fun h => by cases h⟩, fun _ part hpart => ?_⟩
    rw [List.mem_singleton.mp hpart]
    exact fun h => by cases h
  | cons x l ih =>
    rw [splitOn_cons, dashDot_cons]
    by_cases hx : x = dot
    · have hne : x ≠ dash := by
        rw [hx]
        decide
      have hlast : (x :: l).getLast? ≠ some dash ↔ l.getLast? ≠ some dash := by
        cases l with
        | nil => simp [hne]
        | cons y l => rw [List.getLast?_cons_cons]
      rw [if_pos hx, List.forall_mem_cons, ih, hlast]
      constructor
      · rintro ⟨-, hdd, hend⟩
        exact ⟨fun h => h.elim (fun h => hne h.1) hdd, hend⟩
      · rintro ⟨hdd, hend⟩
        exact ⟨fun h => (by cases h), fun h => hdd (.inr h), hend⟩
    · rw [if_neg hx]
      rcases hl : l.splitOn dot with _ | ⟨part, parts⟩
      · exact absurd hl (List.splitOnP_ne_nil _ _)
      · have hnil := head_splitOn_eq_nil_iff hl
        rw [hl, List.forall_mem_cons] at ih
        rw [List.modifyHead_cons, List.forall_mem_cons]
        by_cases hpart : part = []
        · -- The character is a sub-string of its own.
          have hlast : (x :: l).getLast? ≠ some dash ↔ (l = [] → x ≠ dash) ∧ l.getLast? ≠ some dash := by
            cases l with
            | nil => simp
            | cons y l => simp
          have hdash : (x :: part).getLast? = some dash ↔ x = dash := by
            rw [hpart]
            simp
          have hempty : part.getLast? ≠ some dash := by
            rw [hpart]
            exact fun h => by cases h
          rw [ne_eq, hdash, hlast]
          constructor
          · rintro ⟨hne, hparts⟩
            obtain ⟨hdd, hend⟩ := ih.mp ⟨hempty, hparts⟩
            exact ⟨fun h => h.elim (fun h => hne h.1) hdd, fun _ => hne, hend⟩
          · rintro ⟨hdd, hne, hend⟩
            refine ⟨fun h => ?_, (ih.mpr ⟨fun h => hdd (.inr h), hend⟩).2⟩
            rcases hnil.mp hpart with hl' | hhead
            · exact hne hl' h
            · exact hdd (.inl ⟨h, hhead⟩)
        · have hl' : l ≠ [] := fun h => hpart (hnil.mpr (.inl h))
          have hhead : l.head? ≠ some dot := fun h => hpart (hnil.mpr (.inr h))
          rw [List.getLast?_cons_of_ne_nil hpart, ih, List.getLast?_cons_of_ne_nil hl']
          constructor
          · rintro ⟨hdd, hend⟩
            exact ⟨fun h => h.elim (fun h => hhead h.2) hdd, hend⟩
          · rintro ⟨hdd, hend⟩
            exact ⟨fun h => hdd (.inr h), hend⟩

end Parts

section Accepts

variable (s : Mem) (len : Nat)

theorem mem_slice_iff {x : UInt8} : x ∈ s.slice 0 len ↔ ∃ i < len, s i = x := by
  rw [List.mem_iff_getElem]
  constructor
  · rintro ⟨i, hi, rfl⟩
    rw [Mem.length_slice] at hi
    exact ⟨i, hi, by rw [Mem.getElem_slice, Nat.zero_add]⟩
  · rintro ⟨i, hi, rfl⟩
    exact ⟨i, by rw [Mem.length_slice]; exact hi, by rw [Mem.getElem_slice, Nat.zero_add]⟩

theorem getLast?_slice (hlen : len ≠ 0) : (s.slice 0 len).getLast? = some (s (len - 1)) := by
  rw [List.getLast?_eq_getElem?, Mem.length_slice, Mem.getElem?_slice (by omega), Nat.zero_add]

theorem head?_slice (hlen : len ≠ 0) : (s.slice 0 len).head? = some (s 0) := by
  rw [List.head?_eq_getElem?, Mem.getElem?_slice (by omega)]

theorem dashDot_slice_iff : DashDot (s.slice 0 len) ↔
    ∃ i < len, 1 ≤ i ∧ i ≤ len - 1 ∧ s i = dot ∧ s (i - 1) = dash := by
  constructor
  · rintro ⟨i, hdash, hdot⟩
    have hlt : i + 1 < len := by
      obtain ⟨hlt, -⟩ := List.getElem?_eq_some_iff.mp hdot
      rw [Mem.length_slice] at hlt
      exact hlt
    rw [Mem.getElem?_slice (by omega), Nat.zero_add] at hdash
    rw [Mem.getElem?_slice hlt, Nat.zero_add] at hdot
    refine ⟨i + 1, hlt, by omega, by omega, Option.some.inj hdot, ?_⟩
    rw [Nat.add_sub_cancel]
    exact Option.some.inj hdash
  · rintro ⟨i, hlt, hpos, -, hdot, hdash⟩
    refine ⟨i - 1, ?_, ?_⟩
    · rw [Mem.getElem?_slice (by omega), Nat.zero_add, hdash]
    · rw [Nat.sub_add_cancel hpos, Mem.getElem?_slice hlt, Nat.zero_add, hdot]

theorem isValidMdnsName_iff : isValidMdnsName s len = true ↔ dot ∉ s.slice 0 len ∧
    underscore ∉ s.slice 0 len ∧ (s.slice 0 len).getLast? ≠ some dash ∧
    (s.slice 0 len).getLast? ≠ some 0 ∧ WellFormed (beforeNul (s.slice 0 len)) := by
  by_cases hlen : len = 0
  · rw [hlen]
    refine ⟨fun _ => ⟨List.not_mem_nil, List.not_mem_nil, fun h => (by cases h), fun h => (by cases h),
      Utf8.text_nil _⟩, fun _ => rfl⟩
  · unfold isValidMdnsName
    rw [if_neg hlen, getLast?_slice s len hlen, ← (isValidUtf8String_iff s len).1, mem_slice_iff,
      mem_slice_iff, ne_eq, ne_eq, Option.some.injEq, Option.some.injEq]
    by_cases hany : ((List.range len).any fun i => s i == dot || s i == underscore) = true
    · rw [if_pos hany]
      obtain ⟨i, hi, hx⟩ := List.any_eq_true.mp hany
      rw [Bool.or_eq_true, beq_iff_eq, beq_iff_eq] at hx
      have hi' := List.mem_range.mp hi
      refine ⟨fun h => (by cases h), fun ⟨hdot, hunder, _⟩ => ?_⟩
      rcases hx with hx | hx
      · exact absurd ⟨i, hi', hx⟩ hdot
      · exact absurd ⟨i, hi', hx⟩ hunder
    · have hno : ∀ i < len, s i ≠ dot ∧ s i ≠ underscore := by
        intro i hi
        have hx := fun h => hany (List.any_eq_true.mpr ⟨i, List.mem_range.mpr hi, h⟩)
        rw [Bool.or_eq_true, beq_iff_eq, beq_iff_eq] at hx
        exact not_or.mp hx
      rw [if_neg hany]
      by_cases hdash : s (len - 1) = dash
      · rw [if_pos hdash]
        exact ⟨fun h => (by cases h), fun h => absurd hdash h.2.2.1⟩
      · rw [if_neg hdash]
        by_cases hnul : s (len - 1) = 0
        · rw [if_pos hnul]
          exact ⟨fun h => (by cases h), fun h => absurd hnul h.2.2.2.1⟩
        · rw [if_neg hnul]
          refine ⟨fun h => ⟨?_, ?_, hdash, hnul, h⟩, fun h => h.2.2.2.2⟩
          · rintro ⟨i, hi, hx⟩
            exact (hno i hi).1 hx
          · rintro ⟨i, hi, hx⟩
            exact (hno i hi).2 hx

theorem isValidMdnsLocation_iff : isValidMdnsLocation s len = true ↔
    (s.slice 0 len).head? ≠ some dot ∧ (s.slice 0 len).getLast? ≠ some dot ∧
    underscore ∉ s.slice 0 len ∧ ¬ DashDot (s.slice 0 len) ∧ WellFormed (beforeNul (s.slice 0 len)) := by
  by_cases hlen : len = 0
  · rw [hlen]
    refine ⟨fun _ => ⟨fun h => (by cases h), fun h => (by cases h), List.not_mem_nil, not_dashDot_nil,
      Utf8.text_nil _⟩, fun _ => rfl⟩
  · unfold isValidMdnsLocation
    rw [if_neg hlen, getLast?_slice s len hlen, head?_slice s len hlen, ← (isValidUtf8String_iff s len).1,
      mem_slice_iff, dashDot_slice_iff, ne_eq, ne_eq, Option.some.injEq, Option.some.injEq]
    by_cases hends : s 0 = dot ∨ s (len - 1) = dot
    · rw [if_pos hends]
      refine ⟨fun h => (by cases h), fun h => ?_⟩
      rcases hends with hend | hend
      · exact absurd hend h.1
      · exact absurd hend h.2.1
    · obtain ⟨hfirst, hlast⟩ := not_or.mp hends
      rw [if_neg hends]
      by_cases hany : ((List.range len).any fun i => s i == underscore ||
          (decide (1 ≤ i) && decide (i ≤ len - 1) && s i == dot && s (i - 1) == dash)) = true
      · rw [if_pos hany]
        obtain ⟨i, hi, hx⟩ := List.any_eq_true.mp hany
        have hi' := List.mem_range.mp hi
        simp only [Bool.or_eq_true, Bool.and_eq_true, beq_iff_eq, decide_eq_true_eq] at hx
        refine ⟨fun h => (by cases h), fun ⟨_, _, hunder, hdd, _⟩ => ?_⟩
        rcases hx with hx | ⟨⟨⟨hpos, hle⟩, hdot⟩, hdash⟩
        · exact absurd ⟨i, hi', hx⟩ hunder
        · exact absurd ⟨i, hi', hpos, hle, hdot, hdash⟩ hdd
      · rw [if_neg hany]
        refine ⟨fun h => ⟨hfirst, hlast, ?_, ?_, h⟩, fun h => h.2.2.2.2⟩
        · rintro ⟨i, hi, hx⟩
          refine hany (List.any_eq_true.mpr ⟨i, List.mem_range.mpr hi, ?_⟩)
          simp [hx]
        · rintro ⟨i, hi, hpos, hle, hdot, hdash⟩
          refine hany (List.any_eq_true.mpr ⟨i, List.mem_range.mpr hi, ?_⟩)
          simp [hpos, hle, hdot, hdash]

end Accepts

def AcceptsGrammar (s : Mem) (len : Nat) : Prop :=
  (isValidMdnsName s len = true ↔ MdnsName (s.slice 0 len)) ∧
    (isValidMdnsLocation s len = true ↔ MdnsLocation (s.slice 0 len))

/-- A name with a NUL in it that is all right before it and keeps to the other rules: it ends with a NUL
if, and only if, it is not well formed as a whole. -/
def NameAgrees (name : Bytes) : Prop :=
  0 ∈ name → dot ∉ name → underscore ∉ name → name.getLast? ≠ some dash → WellFormed (beforeNul name) →
    (name.getLast? = some 0 ↔ ¬ WellFormed name)

/-- A location that is all right before a NUL and keeps to the rules for dots, for underscores and for
dashes before dots does not end with a dash, and it is well formed as a whole. -/
def LocationAgrees (location : Bytes) : Prop :=
  location.head? ≠ some dot → location.getLast? ≠ some dot → underscore ∉ location → ¬ DashDot location →
    WellFormed (beforeNul location) → location.getLast? ≠ some dash ∧ WellFormed location

theorem beforeNul_of_not_mem {l : Bytes} (h : (0 : UInt8) ∉ l) : beforeNul l = l := by
  refine List.takeWhile_eq_self_iff.mpr fun x hx => decide_eq_true ?_
  rintro rfl
  exact h hx

/-- For which arrays the functions keep to the grammar: names and locations in which a NUL hides
nothing, and locations that do not end with a dash. -/
theorem acceptsGrammar_iff (s : Mem) (len : Nat) :
    AcceptsGrammar s len ↔ NameAgrees (s.slice 0 len) ∧ LocationAgrees (s.slice 0 len) := by
  unfold AcceptsGrammar
  rw [isValidMdnsName_iff, isValidMdnsLocation_iff]
  generalize s.slice 0 len = l
  have hbefore : WellFormed l → WellFormed (beforeNul l) := Utf8.Text.takeWhile
  refine and_congr ⟨fun hiff hnul hdot hunder hdash htext => ?_, fun hagrees => ?_⟩
    ⟨fun hiff hfirst hlast hunder hdd htext => ?_, fun hagrees => ?_⟩
  · constructor
    · intro hend hall
      exact (hiff.mpr ⟨hdot, hunder, hdash, hall⟩).2.2.2.1 hend
    · intro hill
      by_contra hend
      exact hill (hiff.mp ⟨hdot, hunder, hdash, hend, htext⟩).text
  · constructor
    · rintro ⟨hdot, hunder, hdash, hend, htext⟩
      refine ⟨hdot, hunder, hdash, ?_⟩
      by_cases hnul : 0 ∈ l
      · by_contra hill
        exact hend ((hagrees hnul hdot hunder hdash htext).mpr hill)
      · exact beforeNul_of_not_mem hnul ▸ htext
    · rintro ⟨hdot, hunder, hdash, hall⟩
      refine ⟨hdot, hunder, hdash, fun hend => ?_, hbefore hall⟩
      have hnul : 0 ∈ l := List.mem_of_getLast? hend
      exact (hagrees hnul hdot hunder hdash (hbefore hall)).mp hend hall
  · have hloc := hiff.mp ⟨hfirst, hlast, hunder, hdd, htext⟩
    exact ⟨((parts_iff l).mp hloc.dash).2, hloc.text⟩
  · constructor
    · rintro ⟨hfirst, hlast, hunder, hdd, htext⟩
      obtain ⟨hend, hall⟩ := hagrees hfirst hlast hunder hdd htext
      exact ⟨hfirst, hlast, hunder, (parts_iff l).mpr ⟨hdd, hend⟩, hall⟩
    · intro hloc
      exact ⟨hloc.first, hloc.last, hloc.underscore, ((parts_iff l).mp hloc.dash).1, hbefore hloc.text⟩

theorem endDash_not_grammar : ¬ ∀ (s : Mem) (len : Nat), len ≤ 255 → AcceptsGrammar s len := by
  intro h
  have hloc := (h (Mem.ofBytes [0x61, 0x2E, 0x62, 0x2D]) 4 (by decide)).2.mp (by decide)
  exact hloc.dash [0x62, 0x2D] (by decide) (by decide)

end ZipGateway

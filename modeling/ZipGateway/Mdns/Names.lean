import ZipGateway.Lib.Fuel
import ZipGateway.Lib.Memory

/-!
# Domain names in a message

A name is a sequence of labels, each with its length before it, and ends with an empty label or with a
pointer: two bytes with the offset, from the header of the message, at which the name goes on. The
functions that walk a name trust what they read. A read outside the bytes they were given is a `Fault`
here, and so is a walk that is not over after the rounds it was given.
-/

namespace ZipGateway.Mdns

open Fuel (Settles)

inductive Fault where
  | outside
  | unfinished
  | full
deriving DecidableEq, Repr

def maxLabelSize : Nat := 63
def maxDomainSize : Nat := 255

section Reading

variable (mem : Bytes)

def byteAt (p : Nat) : Except Fault UInt8 :=
  match mem[p]? with
  | some b => .ok b
  | none => .error .outside

def bytesAt (p n : Nat) : Except Fault Bytes :=
  if p + n ≤ mem.length then .ok ((mem.drop p).take n) else .error .outside

def isPointer (b : UInt8) : Bool :=
  b &&& 0xC0 = 0xC0

def offsetOf (b c : UInt8) : Nat :=
  (b &&& 0x3F).toNat <<< 8 ||| c.toNat

def domainNameEnd (p : Nat) : Except Fault Nat :=
  match h : mem[p]? with
  | none => .error .outside
  | some b =>
    if b = 0 then .ok (p + 1)
    else if isPointer b then .ok (p + 2)
    else domainNameEnd (p + b.toNat + 1)
termination_by mem.length - p
decreasing_by
  have := (List.getElem?_eq_some_iff.mp h).1
  omega

def domainNameNextLabel (p : Nat) : Except Fault Nat := do
  let len ← byteAt mem p
  if isPointer len then
    let low ← byteAt mem (p + 1)
    return offsetOf len low
  else
    return p + 1 + len.toNat

def labelSize (b : UInt8) : Nat :=
  if b < 0x80 then b.toNat + 1 else b.toNat + 65281

def copyLabels (maxlen : Nat) : Nat → Nat → Bytes → Except Fault Bytes
  | 0, _, _ => .error .unfinished
  | fuel + 1, p, s => do
    let b ← byteAt mem p
    if b = 0 then
      return s
    else if isPointer b then
      let q ← domainNameNextLabel mem p
      copyLabels maxlen fuel q s
    else if maxlen - 1 < s.length + labelSize b then
      return s
    else
      let label ← bytesAt mem p (labelSize b)
      let q ← domainNameNextLabel mem p
      copyLabels maxlen fuel q (s ++ label)

def domainNameCopy (p maxlen fuel : Nat) : Except Fault Bytes :=
  copyLabels mem maxlen fuel p []

end Reading

section Shape

variable (mem : Bytes)

inductive Delimited : Nat → Nat → Prop
  | root {p : Nat} : mem[p]? = some 0 → Delimited p (p + 1)
  | pointer {p : Nat} {b : UInt8} : mem[p]? = some b → isPointer b = true → Delimited p (p + 2)
  | label {p q : Nat} {b : UInt8} : mem[p]? = some b → b ≠ 0 → isPointer b = false →
      Delimited (p + b.toNat + 1) q → Delimited p q

/-- From `p` on, with `s` written already, the labels and pointers of the message spell `t`: they come
to an empty label, or to a label that makes the name longer than `maxlen` allows. -/
inductive Spells (maxlen : Nat) : Nat → Bytes → Bytes → Prop
  | root {p : Nat} {s : Bytes} : mem[p]? = some 0 → Spells maxlen p s s
  | pointer {p : Nat} {b c : UInt8} {s t : Bytes} : mem[p]? = some b → isPointer b = true →
      mem[p + 1]? = some c → Spells maxlen (offsetOf b c) s t → Spells maxlen p s t
  | cut {p : Nat} {b : UInt8} {s : Bytes} : mem[p]? = some b → b ≠ 0 → isPointer b = false →
      maxlen - 1 < s.length + labelSize b → Spells maxlen p s s
  | label {p : Nat} {b : UInt8} {s t : Bytes} : mem[p]? = some b → b ≠ 0 → isPointer b = false →
      s.length + labelSize b ≤ maxlen - 1 → p + labelSize b ≤ mem.length →
      Spells maxlen (p + 1 + b.toNat) (s ++ (mem.drop p).take (labelSize b)) t → Spells maxlen p s t

end Shape

variable {mem : Bytes}

variable {p : Nat} {b : UInt8}

theorem byteAt_eq_ok : byteAt mem p = .ok b ↔ mem[p]? = some b := by
  unfold byteAt
  cases mem[p]? <;> simp

theorem bytesAt_eq_ok {p n : Nat} {s : Bytes} :
    bytesAt mem p n = .ok s ↔ p + n ≤ mem.length ∧ s = (mem.drop p).take n := by
  unfold bytesAt
  split_ifs with h <;> simp [h, eq_comm]

theorem domainNameEnd_eq (h : mem[p]? = some b) : domainNameEnd mem p =
      if b = 0 then .ok (p + 1)
      else if isPointer b then .ok (p + 2)
      else domainNameEnd mem (p + b.toNat + 1) := by
  rw [domainNameEnd]
  split
  next h' => simp [h] at h'
  next b' h' =>
    cases h.symm.trans h'
    rfl

theorem isPointer_ne_zero (h : isPointer b = true) : b ≠ 0 := by
  rintro rfl
  cases h

theorem Delimited.eq {p q : Nat} (h : Delimited mem p q) : domainNameEnd mem p = .ok q := by
  induction h with
  | root h => simp [domainNameEnd_eq h]
  | pointer h hb => simp [domainNameEnd_eq h, hb, isPointer_ne_zero hb]
  | label h hz hb _ ih => simp [domainNameEnd_eq h, hz, hb, ih]

theorem delimited_of_eq {p q : Nat} (h : domainNameEnd mem p = .ok q) : Delimited mem p q := by
  fun_induction domainNameEnd mem p with
  | case1 => cases h
  | case2 p h' => cases h; exact .root h'
  | case3 p b h' hz hb => cases h; exact .pointer h' hb
  | case4 p b h' hz hb ih => exact .label h' hz (by simpa using hb) (ih h)

theorem Delimited.lt {p q : Nat} (h : Delimited mem p q) : p < q := by
  induction h <;> omega

theorem domainNameNextLabel_pointer {b c : UInt8} (h : mem[p]? = some b) (hb : isPointer b = true)
    (hc : mem[p + 1]? = some c) : domainNameNextLabel mem p = .ok (offsetOf b c) := by
  simp [domainNameNextLabel, byteAt_eq_ok.mpr h, byteAt_eq_ok.mpr hc, hb, bind, Except.bind, pure, Except.pure]

theorem domainNameNextLabel_label (h : mem[p]? = some b) (hb : isPointer b = false) :
    domainNameNextLabel mem p = .ok (p + 1 + b.toNat) := by
  simp [domainNameNextLabel, byteAt_eq_ok.mpr h, hb, bind, Except.bind, pure, Except.pure]

theorem Spells.settles {maxlen p : Nat} {s t : Bytes} (h : Spells mem maxlen p s t) :
    Settles (fun fuel => copyLabels mem maxlen fuel p s) t := by
  induction h with
  | root h =>
    refine .succ (.of_forall fun n => ?_)
    simp [copyLabels, byteAt_eq_ok.mpr h, bind, Except.bind, pure, Except.pure]
  | pointer h hb hc _ ih =>
    refine .succ ?_
    simpa [copyLabels, byteAt_eq_ok.mpr h, domainNameNextLabel_pointer h hb hc, hb,
      isPointer_ne_zero hb, bind, Except.bind] using ih
  | cut h hz hb hs =>
    refine .succ (.of_forall fun n => ?_)
    simp [copyLabels, byteAt_eq_ok.mpr h, hz, hb, hs, bind, Except.bind, pure, Except.pure]
  | label h hz hb hs hl _ ih =>
    refine .succ ?_
    simpa [copyLabels, byteAt_eq_ok.mpr h, domainNameNextLabel_label h hb, bytesAt, hz, hb,
      Nat.not_lt.mpr hs, hl, bind, Except.bind] using ih

theorem spells_of_eq {maxlen fuel p : Nat} {s t : Bytes}
    (h : copyLabels mem maxlen fuel p s = .ok t) : Spells mem maxlen p s t := by
  induction fuel generalizing p s with
  | zero => cases h
  | succ fuel ih =>
    obtain ⟨b, hb, h⟩ := Fuel.bind_eq_ok.mp h
    rw [byteAt_eq_ok] at hb
    split_ifs at h with hz hp hs
    · cases h
      exact .root (hz ▸ hb)
    · obtain ⟨q, hq, h⟩ := Fuel.bind_eq_ok.mp h
      cases hc : mem[p + 1]? with
      | none =>
        simp [domainNameNextLabel, byteAt, hb, hc, hp, bind, Except.bind] at hq
      | some c =>
        rw [domainNameNextLabel_pointer hb hp hc] at hq
        cases hq
        exact .pointer hb hp hc (ih h)
    · cases h
      exact .cut hb hz (by simpa using hp) hs
    · obtain ⟨label, hl, h⟩ := Fuel.bind_eq_ok.mp h
      obtain ⟨q, hq, h⟩ := Fuel.bind_eq_ok.mp h
      have hp : isPointer b = false := by simpa using hp
      rw [domainNameNextLabel_label hb hp] at hq
      cases hq
      obtain ⟨hin, rfl⟩ := bytesAt_eq_ok.mp hl
      exact .label hb hz hp (by omega) hin (ih h)

end ZipGateway.Mdns

import Mathlib.Algebra.Group.Nat.Defs
import ZipGateway.Lib.Byte
import ZipGateway.Mdns.Message

/-!
# Compressed names read back

`Reads mem p labels` says what a name in a message stands for: labels that are written out, and pointers
to where it goes on. Bytes that are added to the message do not change it. The functions that walk a name
see exactly its labels, so the pointer that replaces the common labels of two names stands for them.
-/

set_option maxRecDepth 8000

namespace ZipGateway.Mdns

open Fuel (Settles)

variable {rest : List Bytes} {m : Message} (name : DomainName)

section Holds

/-- The bytes `l` stand at `p`. -/
def Holds (mem : Bytes) (p : Nat) (l : Bytes) : Prop :=
  l <+: mem.drop p

variable {mem l l' x : Bytes} {p : Nat} {b : UInt8}

theorem holds_nil (mem : Bytes) (p : Nat) : Holds mem p [] :=
  List.nil_prefix

theorem holds_cons : Holds mem p (b :: l) ↔ mem[p]? = some b ∧ Holds mem (p + 1) l := by
  unfold Holds
  by_cases hp : p < mem.length
  · rw [List.drop_eq_getElem_cons hp, List.cons_prefix_cons]
    simp [List.getElem?_eq_getElem hp, eq_comm]
  · have hp : mem.length ≤ p := by omega
    simp [List.drop_eq_nil_of_le hp, List.getElem?_eq_none hp]

theorem holds_append : Holds mem p (l ++ l') ↔ Holds mem p l ∧ Holds mem (p + l.length) l' := by
  induction l generalizing p with
  | nil => simp [holds_nil]
  | cons a l ih => simp [holds_cons, ih, and_assoc, Nat.add_comm, Nat.add_left_comm]

theorem Holds.extend (h : Holds mem p l) : Holds (mem ++ x) p l := by
  unfold Holds at h ⊢
  rw [List.drop_append]
  exact h.trans (List.prefix_append _ _)

theorem holds_self (mem l x : Bytes) : Holds (mem ++ (l ++ x)) mem.length l := by
  unfold Holds
  rw [List.drop_left]
  exact List.prefix_append l x

theorem Holds.take_eq (h : Holds mem p l) : (mem.drop p).take l.length = l :=
  (List.prefix_iff_eq_take.mp h).symm

theorem Holds.length_le (h : Holds mem p (b :: l)) : p + (l.length + 1) ≤ mem.length := by
  have := List.IsPrefix.length_le h
  simp only [List.length_cons, List.length_drop] at this
  omega

end Holds

section Reads

variable (mem : Bytes)

def IsLabel (l : Bytes) : Prop :=
  (1 ≤ l.length ∧ l.length ≤ maxLabelSize) ∧ (0 : UInt8) ∉ l

structure LabelAt (p : Nat) (l : Bytes) : Prop where
  holds : Holds mem p (UInt8.ofNat l.length :: l)
  isLabel : IsLabel l

inductive Reads : Nat → List Bytes → Prop
  | root {p : Nat} : mem[p]? = some 0 → Reads p []
  | label {p : Nat} {l : Bytes} {ls : List Bytes} : LabelAt mem p l → Reads (p + 1 + l.length) ls →
      Reads p (l :: ls)
  | pointer {p : Nat} {b c : UInt8} {ls : List Bytes} : mem[p]? = some b → isPointer b = true →
      mem[p + 1]? = some c → Reads (offsetOf b c) ls → Reads p ls

end Reads

variable {mem x l : Bytes} {p : Nat} {ls : List Bytes}

theorem getElem?_extend {b : UInt8} (h : mem[p]? = some b) : (mem ++ x)[p]? = some b := by
  rw [List.getElem?_append_left (List.getElem?_eq_some_iff.mp h).1]
  exact h

theorem LabelAt.extend (h : LabelAt mem p l) : LabelAt (mem ++ x) p l :=
  ⟨h.holds.extend, h.isLabel⟩

theorem LabelAt.getElem? (h : LabelAt mem p l) : mem[p]? = some (UInt8.ofNat l.length) :=
  (holds_cons.mp h.holds).1

theorem Reads.extend (h : Reads mem p ls) : Reads (mem ++ x) p ls := by
  induction h with
  | root h => exact .root (getElem?_extend h)
  | label h _ ih => exact .label h.extend ih
  | pointer h hb hc _ ih => exact .pointer (getElem?_extend h) hb (getElem?_extend hc) ih

theorem Reads.lt_length (h : Reads mem p ls) : p < mem.length := by
  cases h with
  | root h => exact (List.getElem?_eq_some_iff.mp h).1
  | label h _ => exact (List.getElem?_eq_some_iff.mp h.getElem?).1
  | pointer h => exact (List.getElem?_eq_some_iff.mp h).1

theorem IsLabel.size_byte (h : IsLabel l) : (UInt8.ofNat l.length).toNat = l.length ∧ UInt8.ofNat l.length ≠ 0 ∧
      isPointer (UInt8.ofNat l.length) = false ∧ labelSize (UInt8.ofNat l.length) = l.length + 1 := by
  obtain ⟨⟨h1, h2⟩, _⟩ := h
  have key : ∀ n : Fin 64, 1 ≤ n.val → (UInt8.ofNat n).toNat = n ∧ UInt8.ofNat n ≠ 0 ∧
      isPointer (UInt8.ofNat n) = false ∧ labelSize (UInt8.ofNat n) = n + 1 := by
    decide
  exact key ⟨l.length, by simp only [maxLabelSize] at h2; omega⟩ h1

theorem isPointer_zero : isPointer 0 = false := by
  decide

theorem not_le_of_isPointer {b : UInt8} (h : isPointer b = true) : ¬b.toNat ≤ maxLabelSize := by
  revert b
  decide

theorem LabelAt.byte (h : LabelAt mem p l) :
    ∃ b, byteAt mem p = .ok b ∧ b ≠ 0 ∧ isPointer b = false ∧ b.toNat ≤ maxLabelSize ∧ b.toNat = l.length := by
  obtain ⟨hsize, hz, hb, _⟩ := h.isLabel.size_byte
  refine ⟨_, byteAt_eq_ok.mpr h.getElem?, hz, hb, ?_, hsize⟩
  rw [hsize]
  exact h.isLabel.1.2

theorem LabelAt.next (h : LabelAt mem p l) : domainNameNextLabel mem p = .ok (p + 1 + l.length) := by
  obtain ⟨hsize, _, hb, _⟩ := h.isLabel.size_byte
  rw [domainNameNextLabel_label h.getElem? hb, hsize]

@[simp]
theorem encode_nil : encode [] = [] := rfl

@[simp]
theorem encode_cons (l : Bytes) (ls : List Bytes) : encode (l :: ls) = UInt8.ofNat l.length :: (l ++ encode ls) := by
  simp [encode]

theorem Reads.spells (h : Reads mem p ls) {maxlen : Nat} {s : Bytes}
    (hs : s.length + (encode ls).length ≤ maxlen - 1) : Spells mem maxlen p s (s ++ encode ls) := by
  induction h generalizing s with
  | root h =>
    rw [encode_nil, List.append_nil]
    exact .root h
  | @label p l ls h _ ih =>
    obtain ⟨hsize, hz, hb, hlabel⟩ := h.isLabel.size_byte
    rw [encode_cons] at hs ⊢
    simp only [List.length_cons, List.length_append] at hs
    refine .label h.getElem? hz hb (by omega) ?_ ?_
    · rw [hlabel]
      exact h.holds.length_le
    · have hcopied : (mem.drop p).take (l.length + 1) = UInt8.ofNat l.length :: l := h.holds.take_eq
      rw [hlabel, hcopied, hsize]
      have := ih (s := s ++ UInt8.ofNat l.length :: l) (by simp; omega)
      simpa using this
  | pointer h hb hc _ ih => exact .pointer h hb hc (ih hs)

theorem Reads.settles_copy (h : Reads mem p ls) (hs : (encode ls).length < maxDomainSize) :
    Settles (domainNameCopy mem p maxDomainSize) (encode ls) := by
  have hsize : ([] : Bytes).length + (encode ls).length ≤ maxDomainSize - 1 := by
    simp only [maxDomainSize, List.length_nil] at hs ⊢
    omega
  have := h.spells hsize
  rw [List.nil_append] at this
  exact this.settles

section Walk

/-! Walks through a name that `mem` reads, in a memory that goes on after `mem`. -/

theorem Reads.settles_count (h : Reads mem p ls) {n : Nat} (hn : n + ls.length < 256) :
    Settles (fun fuel => domainNameLabelCount (mem ++ x) fuel p n) (n + ls.length) := by
  induction h generalizing n with
  | root h =>
    refine .succ (.of_forall fun _ => ?_)
    simp [domainNameLabelCount, byteAt_eq_ok.mpr (getElem?_extend h), bind, Except.bind, pure, Except.pure]
  | @label p l ls h _ ih =>
    obtain ⟨b, hb, hz, _, hmax, _⟩ := (h.extend (x := x)).byte
    have hnext := (h.extend (x := x)).next
    rw [List.length_cons] at hn ⊢
    have hmod : (n + 1) % 256 = n + 1 := Nat.mod_eq_of_lt (by omega)
    have hrest := ih (n := n + 1) (by omega)
    rw [show n + (ls.length + 1) = n + 1 + ls.length by omega]
    refine .succ ?_
    simpa [domainNameLabelCount, hb, hnext, hz, hmax, hmod, bind, Except.bind] using hrest
  | @pointer p b c ls h hb hc _ ih =>
    have hmax : ¬b.toNat ≤ maxLabelSize := not_le_of_isPointer hb
    refine .succ ?_
    simpa [domainNameLabelCount, byteAt_eq_ok.mpr (getElem?_extend h), isPointer_ne_zero hb, hmax,
      domainNameNextLabel_pointer (getElem?_extend h) hb (getElem?_extend hc), bind,
      Except.bind] using ih hn

theorem Reads.settles_labelGet (h : Reads mem p ls) {k : Nat} (hk : ls.drop k = l :: rest) :
    ∃ q, Settles (fun fuel => domainNameLabelGet (mem ++ x) fuel p k) (some q) ∧ LabelAt mem q l ∧
      Reads mem (q + 1 + l.length) rest := by
  induction h generalizing k with
  | root h => simp at hk
  | @label p l' ls h hrest ih =>
    obtain ⟨b, hb, hz, _, hmax, _⟩ := (h.extend (x := x)).byte
    have hnext := (h.extend (x := x)).next
    cases k with
    | zero =>
      obtain ⟨rfl, rfl⟩ := List.cons.inj hk
      refine ⟨p, .succ (.of_forall fun _ => ?_), h, hrest⟩
      simp [domainNameLabelGet, hb, hz, hmax, bind, Except.bind, pure, Except.pure]
    | succ k =>
      obtain ⟨q, hq, hlabel, hreads⟩ := ih hk
      refine ⟨q, .succ ?_, hlabel, hreads⟩
      simpa [domainNameLabelGet, hb, hz, hmax, hnext, bind, Except.bind] using hq
  | @pointer p b c ls h hb hc _ ih =>
    obtain ⟨q, hq, hlabel, hreads⟩ := ih hk
    have hmax : ¬b.toNat ≤ maxLabelSize := not_le_of_isPointer hb
    refine ⟨q, .succ ?_, hlabel, hreads⟩
    simpa [domainNameLabelGet, byteAt_eq_ok.mpr (getElem?_extend h), isPointer_ne_zero hb, hmax,
      domainNameNextLabel_pointer (getElem?_extend h) hb (getElem?_extend hc), bind,
      Except.bind] using hq

theorem Reads.settles_labelAt (h : Reads mem p ls) {k : Nat} (hk : ls.drop k = l :: rest) :
    ∃ q, Settles (fun fuel => labelAt (mem ++ x) fuel p k) q ∧ LabelAt mem q l ∧ Reads mem (q + 1 + l.length) rest := by
  obtain ⟨q, hq, hlabel, hreads⟩ := h.settles_labelGet (x := x) hk
  exact ⟨q, hq.bind (.of_forall fun _ => rfl), hlabel, hreads⟩

theorem Reads.settles_exhaust (h : Reads mem p ls) :
    ∃ q, Settles (fun fuel => exhaustPointers (mem ++ x) fuel p) q ∧ Reads mem q ls := by
  induction h with
  | @root p h =>
    refine ⟨p, .succ (.of_forall fun _ => ?_), .root h⟩
    simp [exhaustPointers, byteAt_eq_ok.mpr (getElem?_extend h), isPointer_zero, bind, Except.bind, pure, Except.pure]
  | @label p l ls h hrest _ =>
    obtain ⟨b, hb, _, hp, _⟩ := (h.extend (x := x)).byte
    refine ⟨p, .succ (.of_forall fun _ => ?_), .label h hrest⟩
    simp [exhaustPointers, hb, hp, bind, Except.bind, pure, Except.pure]
  | @pointer p b c ls h hb hc _ ih =>
    obtain ⟨q, hq, hreads⟩ := ih
    refine ⟨q, .succ ?_, hreads⟩
    simpa [exhaustPointers, byteAt_eq_ok.mpr (getElem?_extend h), hb,
      domainNameNextLabel_pointer (getElem?_extend h) hb (getElem?_extend hc), bind,
      Except.bind] using hq

end Walk

section Compare

theorem strncmpEq_eq {a b : Nat} {l' : Bytes} (ha : Holds mem a l) (hb : Holds mem b l')
    (hlength : l.length = l'.length) (hz : (0 : UInt8) ∉ l) :
    strncmpEq mem a b l.length = .ok (decide (l = l')) := by
  induction l generalizing a b l' with
  | nil =>
    rw [List.eq_nil_of_length_eq_zero hlength.symm]
    rfl
  | cons c l ih =>
    obtain ⟨c', l', rfl⟩ := List.exists_cons_of_length_pos (l := l') (by simp at hlength; omega)
    obtain ⟨hca, ha⟩ := holds_cons.mp ha
    obtain ⟨hcb, hb⟩ := holds_cons.mp hb
    have hc : c ≠ 0 := fun h => hz (by simp [h])
    have hrest := ih ha hb (by simpa using hlength) (fun h => hz (List.mem_cons_of_mem c h))
    by_cases hcc : c = c'
    · subst hcc
      simp [strncmpEq, byteAt_eq_ok.mpr hca, byteAt_eq_ok.mpr hcb, hc, hrest, bind, Except.bind]
    · simp [strncmpEq, byteAt_eq_ok.mpr hca, byteAt_eq_ok.mpr hcb, hcc, bind, Except.bind, pure, Except.pure]

theorem LabelAt.compare {a b : Nat} {l' : Bytes} (ha : LabelAt mem a l) (hb : LabelAt mem b l') :
    domainNameLabelCompare mem a b = .ok (decide (l = l')) := by
  obtain ⟨x, hx, _, hxp, _, hxl⟩ := ha.byte
  obtain ⟨y, hy, _, hyp, _, hyl⟩ := hb.byte
  unfold domainNameLabelCompare
  by_cases hxy : x = y
  · subst hxy
    have hlength : l.length = l'.length := hxl.symm.trans hyl
    have := strncmpEq_eq (holds_cons.mp ha.holds).2 (holds_cons.mp hb.holds).2 hlength ha.isLabel.2
    simp [hx, hy, hxp, followIf, hxl, this, bind, Except.bind]
  · have hne : l ≠ l' := by
      rintro rfl
      exact hxy (UInt8.toNat_inj.mp (hxl.trans hyl.symm))
    simp [hx, hy, hxp, followIf, hxy, hne, bind, Except.bind, pure, Except.pure]

end Compare

section Plain

/-! Labels that are written out one after the other. -/

variable (hlabels : ∀ l ∈ ls, IsLabel l)

include hlabels

theorem reads_of_holds (h : Holds mem p (encode ls))
    (hrest : Reads mem (p + (encode ls).length) rest) : Reads mem p (ls ++ rest) := by
  induction ls generalizing p with
  | nil => exact hrest
  | cons l ls ih =>
    rw [encode_cons, ← List.cons_append, holds_append] at h
    refine .label ⟨h.1, hlabels l (by simp)⟩ ?_
    refine ih (fun l hl => hlabels l (by simp [hl])) ?_ ?_
    · simpa [Nat.add_comm, Nat.add_left_comm] using h.2
    · have hpos : p + (encode (l :: ls)).length = p + 1 + l.length + (encode ls).length := by
        simp
        omega
      rwa [hpos] at hrest

theorem settles_labelGet_of_holds {k : Nat} (h : Holds mem p (encode ls)) (hk : ls.drop k = l :: rest) :
    Settles (fun fuel => domainNameLabelGet mem fuel p k) (some (p + (encode (ls.take k)).length)) ∧
      LabelAt mem (p + (encode (ls.take k)).length) l := by
  induction ls generalizing p k with
  | nil => simp at hk
  | cons l' ls ih =>
    rw [encode_cons, ← List.cons_append, holds_append] at h
    have hlabel : LabelAt mem p l' := ⟨h.1, hlabels l' (by simp)⟩
    obtain ⟨b, hb, hz, _, hmax, _⟩ := hlabel.byte
    have hnext := hlabel.next
    cases k with
    | zero =>
      obtain ⟨rfl, rfl⟩ := List.cons.inj hk
      refine ⟨.succ (.of_forall fun _ => ?_), hlabel⟩
      simp [domainNameLabelGet, hb, hz, hmax, bind, Except.bind, pure, Except.pure]
    | succ k =>
      have htail : Holds mem (p + 1 + l'.length) (encode ls) := by
        simpa [Nat.add_comm, Nat.add_left_comm] using h.2
      obtain ⟨hget, hat⟩ := ih (fun l hl => hlabels l (by simp [hl])) htail hk
      have hpos : p + (encode ((l' :: ls).take (k + 1))).length = p + 1 + l'.length + (encode (ls.take k)).length := by
        simp
        omega
      rw [hpos]
      refine ⟨.succ ?_, hat⟩
      simpa [domainNameLabelGet, hb, hz, hmax, hnext, bind, Except.bind] using hget

end Plain

section Match

variable {base : Bytes} {dest source : List Bytes} {src : Nat}

def Shares (base : Bytes) (dest source : List Bytes) (i j : Nat) (c : Common) : Prop :=
  dest.drop i = source.drop j ∧ (c.n ≠ 0 → i < dest.length ∧ c.a = base.length + (encode (dest.take i)).length ∧
      Reads base c.b (source.drop j))

theorem drop_eq_cons {α : Type*} (xs : List α) {i : Nat} (h : i < xs.length) :
    ∃ x, xs.drop i = x :: xs.drop (i + 1) ∧ xs.take (i + 1) = xs.take i ++ [x] :=
  ⟨xs[i], List.drop_eq_getElem_cons h, List.take_succ_eq_append_getElem h⟩

theorem matchLabels_settles (hlabels : ∀ l ∈ dest, IsLabel l) (hsrc : Reads base src source)
    {i j : Nat} (hi : i ≤ dest.length) (hj : j ≤ source.length) {c : Common}
    (hc : Shares base dest source i j c) :
    ∃ i' j' c', Settles (fun fuel =>
        matchLabels (base ++ (encode dest ++ [0])) fuel base.length src i j c) c' ∧
      Shares base dest source i' j' c' := by
  induction i generalizing j c with
  | zero => exact ⟨0, j, c, .of_forall fun _ => by simp [matchLabels, pure, Except.pure], hc⟩
  | succ i ih =>
    cases j with
    | zero => exact ⟨i + 1, 0, c, .of_forall fun _ => by simp [matchLabels, pure, Except.pure], hc⟩
    | succ j =>
      obtain ⟨l, hl, htake⟩ := drop_eq_cons dest (i := i) (by omega)
      obtain ⟨l', hl', _⟩ := drop_eq_cons source (i := j) (by omega)
      obtain ⟨hget, ha⟩ := settles_labelGet_of_holds hlabels (holds_self base (encode dest) [0]) hl
      have hget : Settles (fun fuel => labelAt (base ++ (encode dest ++ [0])) fuel base.length i)
          (base.length + (encode (dest.take i)).length) := hget.bind (.of_forall fun _ => rfl)
      obtain ⟨b, hgetb, hb, hnext⟩ := hsrc.settles_labelAt (x := encode dest ++ [0]) hl'
      have hcompare := ha.compare hb.extend
      by_cases hll : l = l'
      · subst hll
        have hshares : Shares base dest source i j ⟨c.n + 1, base.length + (encode (dest.take i)).length, b⟩ := by
          refine ⟨?_, fun _ => ⟨by omega, rfl, ?_⟩⟩
          · rw [hl, hl', hc.1]
          · rw [hl']
            exact .label hb hnext
        obtain ⟨i', j', c', hrest, hc'⟩ := ih (by omega) (by omega) hshares
        refine ⟨i', j', c', ?_, hc'⟩
        refine hget.bind (hgetb.bind (.bind (.of_forall fun _ => hcompare) ?_))
        simpa using hrest
      · refine ⟨i + 1, j + 1, ⟨c.n, base.length + (encode (dest.take i)).length + 1 + l.length,
          b + 1 + l'.length⟩, ?_, hc.1, fun hn => ⟨(hc.2 hn).1, ?_, hnext⟩⟩
        · refine hget.bind (hgetb.bind (.bind (.of_forall fun _ => hcompare) ?_))
          simp only [hll, decide_false, Bool.false_eq_true, if_false]
          refine .bind (.of_forall fun _ => ha.next) ?_
          exact .bind (.of_forall fun _ => hb.extend.next) (.of_forall fun _ => rfl)
        · rw [htake]
          simp [encode]
          omega

end Match

section Insert

theorem pointerTo_eq {q : Nat} (hq : q < 2 ^ 14) :
    ∃ b c, pointerTo q = [b, c] ∧ isPointer b = true ∧ offsetOf b c = q := by
  have high : ∀ h : Fin 64, isPointer (UInt8.ofNat (h.val &&& 0x3F ||| 0xC0)) = true ∧
      (UInt8.ofNat (h.val &&& 0x3F ||| 0xC0) &&& 0x3F).toNat = h.val := by
    decide
  obtain ⟨hpointer, hhigh⟩ := high ⟨q >>> 8, by rw [Nat.shiftRight_eq_div_pow]; omega⟩
  have hlow : (UInt8.ofNat (q &&& 0xFF)).toNat = q % 256 := by
    rw [show (0xFF : Nat) = 2 ^ 8 - 1 by rfl, Nat.and_two_pow_sub_one_eq_mod]
    simp
  refine ⟨_, _, rfl, hpointer, ?_⟩
  simp only at hhigh
  rw [offsetOf, hhigh, hlow, ← Nat.shiftLeft_add_eq_or_of_lt (by omega), Nat.shiftLeft_eq, Nat.shiftRight_eq_div_pow]
  omega

theorem encode_append (ls ls' : List Bytes) : encode (ls ++ ls') = encode ls ++ encode ls' := by
  simp [encode]

theorem length_le_encode (hlabels : ∀ l ∈ ls, IsLabel l) : 2 * ls.length ≤ (encode ls).length := by
  induction ls with
  | nil => simp
  | cons l ls ih =>
    have hl := (hlabels l (by simp)).1.1
    have := ih fun l hl => hlabels l (by simp [hl])
    simp
    omega

theorem DomainName.isLabel : ∀ l ∈ name.labels, IsLabel l :=
  fun l hl => ⟨name.label_size l hl, name.label_string l hl⟩

theorem DomainName.length_lt : name.labels.length < 256 := by
  have := length_le_encode name.isLabel
  have := name.size
  simp only [maxDomainSize] at this
  omega

variable {base : Bytes} {src : Nat}

theorem reads_written_out (base : Bytes) (name : DomainName) :
    Reads (base ++ (encode name.labels ++ [0])) base.length name.labels := by
  have hroot : Reads (base ++ (encode name.labels ++ [0])) (base.length + (encode name.labels).length) [] := by
    refine .root ?_
    rw [← List.append_assoc, ← List.length_append, List.getElem?_concat_length]
  have := reads_of_holds name.isLabel (holds_self base (encode name.labels) [0]) hroot
  rwa [List.append_nil] at this

/-- The pointer that `domain_name_insert_ptr` writes, if any, goes back into the message and stands for
the labels it replaces. -/
theorem domainNameInsertPtr_settles (name source : DomainName) (hsrc : Reads base src source.labels) :
    ∃ r, Settles (fun fuel =>
        domainNameInsertPtr (base ++ (encode name.labels ++ [0])) fuel base.length src) r ∧
      (r = none ∨ ∃ k q, r = some (base ++ (encode (name.labels.take k) ++ pointerTo q)) ∧
        k < name.labels.length ∧ Reads base q (name.labels.drop k)) := by
  have hcount := (reads_written_out base name).settles_count (x := []) (n := 0) (by simpa using name.length_lt)
  have hcountSrc := hsrc.settles_count (x := encode name.labels ++ [0]) (n := 0) (by simpa using source.length_lt)
  simp only [List.append_nil, Nat.zero_add] at hcount hcountSrc
  obtain ⟨i, j, c, hmatch, hdrop, hshared⟩ := matchLabels_settles (i := name.labels.length)
    (j := source.labels.length) (c := ⟨0, 0, 0⟩) name.isLabel hsrc (Nat.le_refl _)
    (Nat.le_refl _)
    ⟨by simp, fun h => absurd rfl h⟩
  by_cases hn : c.n = 0
  · refine ⟨none, ?_, .inl rfl⟩
    refine hcount.bind (hcountSrc.bind (hmatch.bind (.of_forall fun _ => ?_)))
    simp [hn, pure, Except.pure]
  · obtain ⟨hi, ha, hb⟩ := hshared hn
    obtain ⟨q, hq, hreads⟩ := hb.settles_exhaust (x := encode name.labels ++ [0])
    refine ⟨_, ?_, .inr ⟨i, q, rfl, hi, hdrop ▸ hreads⟩⟩
    refine hcount.bind (hcountSrc.bind (hmatch.bind ?_))
    simp only [hn, if_false]
    refine hq.bind (.of_forall fun _ => ?_)
    have hsplit : encode name.labels = encode (name.labels.take i) ++ encode (name.labels.drop i) := by
      rw [← encode_append, List.take_append_drop]
    have htake : (base ++ (encode name.labels ++ [0])).take c.a = base ++ encode (name.labels.take i) := by
      rw [hsplit, ha, ← List.length_append, List.append_assoc, ← List.append_assoc base, List.take_left]
    rw [htake, List.append_assoc]
    rfl

end Insert

section Messages

/-- A name as it stands in a message: labels, and then a zero or a pointer to an earlier position. -/
def Compressed (mem : Bytes) (position length : Nat) (labels : List Bytes) : Prop :=
  ∃ k tail, Holds mem position (encode (labels.take k) ++ tail) ∧ length = (encode (labels.take k) ++ tail).length ∧
    (tail = [0] ∨ ∃ q, tail = pointerTo q ∧ q < position)

structure Message.Sound (m : Message) : Prop where
  fits : m.bytes.length ≤ replySize
  last : ∀ p, m.lastDomainName = some p → ∃ name : DomainName, Reads m.bytes p name.labels

def ReadsBack (mem : Bytes) (x : Placed) : Prop :=
  match x.item with
  | .name name => Reads mem x.position name.labels ∧
      Compressed mem x.position x.length name.labels
  | .data bytes => Holds mem x.position bytes ∧ x.length = bytes.length

theorem Compressed.extend {position length : Nat} (h : Compressed mem position length ls) :
    Compressed (mem ++ x) position length ls := by
  obtain ⟨k, tail, hholds, hlength, htail⟩ := h
  exact ⟨k, tail, hholds.extend, hlength, htail⟩

theorem ReadsBack.extend {y : Placed} (h : ReadsBack mem y) : ReadsBack (mem ++ x) y := by
  unfold ReadsBack at h ⊢
  split at h
  · exact ⟨h.1.extend, h.2.extend⟩
  · exact ⟨h.1.extend, h.2⟩

theorem DomainName.settles_copied :
    Settles (domainNameCopy (encode name.labels ++ [0]) 0 maxDomainSize) (encode name.labels) := by
  have := reads_written_out [] name
  exact this.settles_copy name.size

structure Grows (m m' : Message) (item : Item) (length : Nat) : Prop where
  sound : m'.Sound
  grown : m.bytes <+: m'.bytes
  occupied : m'.bytes.length = m.bytes.length + length
  readsBack : ReadsBack m'.bytes { item, position := m.bytes.length, length }

theorem tryPointer_settles (m : Message) (hm : m.Sound) (name : DomainName) :
    ∃ r, Settles (fun fuel => tryPointer (m.bytes ++ (encode name.labels ++ [0])) fuel
        m.bytes.length m.lastDomainName) r ∧
      (r = none ∨ ∃ k q, r = some (m.bytes ++ (encode (name.labels.take k) ++ pointerTo q)) ∧
        k < name.labels.length ∧ Reads m.bytes q (name.labels.drop k)) := by
  cases hlast : m.lastDomainName with
  | none => exact ⟨none, .of_forall fun _ => rfl, .inl rfl⟩
  | some src =>
    obtain ⟨source, hsrc⟩ := hm.last src hlast
    exact domainNameInsertPtr_settles name source hsrc

theorem grows_written_out (hfits : m.bytes.length + ((encode name.labels).length + 1) ≤ replySize) :
    Grows m ⟨m.bytes ++ (encode name.labels ++ [0]), some m.bytes.length⟩ (.name name)
      ((encode name.labels).length + 1) := by
  have hreads := reads_written_out m.bytes name
  refine ⟨⟨by simpa using hfits, ?_⟩, List.prefix_append _ _, by simp, hreads, ?_⟩
  · intro p hp
    cases hp
    exact ⟨name, hreads⟩
  · refine ⟨name.labels.length, [0], ?_, by simp, .inl rfl⟩
    rw [List.take_length]
    have := holds_self m.bytes (encode name.labels ++ [0]) []
    rwa [List.append_nil] at this

theorem encode_split (ls : List Bytes) (k : Nat) : encode ls = encode (ls.take k) ++ encode (ls.drop k) := by
  rw [← encode_append, List.take_append_drop]

theorem grows_pointed {k q : Nat} (hfits : m.bytes.length + ((encode name.labels).length + 1) ≤ replySize)
    (hk : k < name.labels.length) (hq : Reads m.bytes q (name.labels.drop k)) :
    Grows m ⟨m.bytes ++ (encode (name.labels.take k) ++ pointerTo q), some m.bytes.length⟩
      (.name name) (encode (name.labels.take k) ++ pointerTo q).length := by
  have hlt := hq.lt_length
  have hsmall : replySize < 2 ^ 14 := by decide
  obtain ⟨b, c, hpointer, hb, hoffset⟩ := pointerTo_eq (q := q) (by omega)
  have hholds : Holds (m.bytes ++ (encode (name.labels.take k) ++ pointerTo q)) m.bytes.length
      (encode (name.labels.take k) ++ pointerTo q) := by
    have := holds_self m.bytes (encode (name.labels.take k) ++ pointerTo q) []
    rwa [List.append_nil] at this
  -- The labels before the pointer, and from the pointer on what it points to.
  have hreads : Reads (m.bytes ++ (encode (name.labels.take k) ++ pointerTo q)) m.bytes.length
      name.labels := by
    obtain ⟨hlabels, htail⟩ := holds_append.mp hholds
    have htail : Holds (m.bytes ++ (encode (name.labels.take k) ++ pointerTo q))
        (m.bytes.length + (encode (name.labels.take k)).length) [b, c] := by
      rw [← hpointer]
      exact htail
    rw [holds_cons, holds_cons] at htail
    have hrest := reads_of_holds (fun l hl => name.isLabel l (List.mem_of_mem_take hl)) hlabels
      (.pointer htail.1 hb htail.2.1 (hoffset ▸ hq.extend))
    rwa [List.take_append_drop] at hrest
  have hshorter : (encode (name.labels.take k) ++ pointerTo q).length ≤ (encode name.labels).length := by
    have hdropped : 2 * (name.labels.drop k).length ≤ (encode (name.labels.drop k)).length :=
      length_le_encode fun l hl => name.isLabel l (List.mem_of_mem_drop hl)
    rw [List.length_drop] at hdropped
    rw [encode_split name.labels k, List.length_append, List.length_append, hpointer]
    simp only [List.length_cons, List.length_nil]
    omega
  refine ⟨⟨?_, ?_⟩, List.prefix_append _ _, List.length_append, hreads, ?_⟩
  · rw [List.length_append]
    omega
  · intro p hp
    cases hp
    exact ⟨name, hreads⟩
  · exact ⟨k, pointerTo q, hholds, rfl, .inr ⟨q, rfl, hlt⟩⟩

theorem addDomainNameCompressed_grows (hm : m.Sound) (name : DomainName)
    (hfits : m.bytes.length + ((encode name.labels).length + 1) ≤ replySize) :
    ∃ m' length, Settles (addDomainNameCompressed m (encode name.labels)) (m', length) ∧
      Grows m m' (.name name) length := by
  have hsize : (encode name.labels).length + 1 < 256 := by
    have := name.size
    simp only [maxDomainSize] at this
    omega
  obtain ⟨r, hr, hcases⟩ := tryPointer_settles m hm name
  have hroom : ¬replySize < m.bytes.length + ((encode name.labels).length + 1) := by omega
  obtain rfl | ⟨k, q, rfl, hk, hq⟩ := hcases
  · refine ⟨_, _, ?_, grows_written_out name hfits⟩
    refine name.settles_copied.bind ?_
    simp only [hroom, if_false]
    refine hr.bind (.of_forall fun _ => ?_)
    have hwhole : (m.bytes ++ (encode name.labels ++ [0])).take (m.bytes.length + ((encode name.labels).length + 1)) =
          m.bytes ++ (encode name.labels ++ [0]) :=
      List.take_of_length_le (by simp)
    simp [Nat.mod_eq_of_lt hsize, hwhole, pure, Except.pure]
  · refine ⟨_, _, ?_, grows_pointed name hfits hk hq⟩
    refine name.settles_copied.bind ?_
    simp only [hroom, if_false]
    refine hr.bind (.of_forall fun _ => ?_)
    simp [pure, Except.pure]

theorem addDomainNameCompressed_full (hfits : replySize < m.bytes.length + ((encode name.labels).length + 1)) :
    ∃ k, ∀ fuel, k ≤ fuel → addDomainNameCompressed m (encode name.labels) fuel = .error .full := by
  obtain ⟨k, hk⟩ := name.settles_copied
  refine ⟨k, fun fuel hfuel => ?_⟩
  simp [addDomainNameCompressed, hk fuel hfuel, hfits, bind, Except.bind]

/-- The items stand one after the other, from `p` on. -/
def Consecutive : Nat → List Placed → Nat → Prop
  | p, [], q => p = q
  | p, x :: xs, q => x.position = p ∧ Consecutive (p + x.length) xs q

theorem Message.Sound.add (hm : m.Sound) (item : Item) : (∃ k, ∀ fuel, k ≤ fuel → m.add fuel item = .error .full) ∨
      ∃ m' length, Settles (fun fuel => m.add fuel item) (m', length) ∧ Grows m m' item length := by
  cases item with
  | name name =>
    by_cases hfits : m.bytes.length + ((encode name.labels).length + 1) ≤ replySize
    · exact .inr (addDomainNameCompressed_grows hm name hfits)
    · exact .inl (addDomainNameCompressed_full name (by omega))
  | data bytes =>
    by_cases hfits : replySize < m.bytes.length + bytes.length
    · exact .inl ⟨0, fun _ _ => by simp [Message.add, hfits]⟩
    · refine .inr ⟨{ m with bytes := m.bytes ++ bytes }, bytes.length,
        .of_forall fun _ => by simp [Message.add, hfits], ⟨?_, ?_⟩, ?_, ?_, ?_⟩
      · rw [List.length_append]
        omega
      · intro p hp
        obtain ⟨name, hname⟩ := hm.last p hp
        exact ⟨name, hname.extend⟩
      · exact List.prefix_append _ _
      · exact List.length_append
      · have := holds_self m.bytes bytes []
        rw [List.append_nil] at this
        exact ⟨this, rfl⟩

theorem Message.Sound.build (hm : m.Sound) (items : List Item) :
    (∃ k, ∀ fuel, k ≤ fuel → Message.build fuel m items = .error .full) ∨
      ∃ m' placed, Settles (fun fuel => Message.build fuel m items) (m', placed) ∧
        m.bytes <+: m'.bytes ∧ placed.map Placed.item = items ∧
        Consecutive m.bytes.length placed m'.bytes.length ∧
        ∀ x ∈ placed, ReadsBack m'.bytes x := by
  induction items generalizing m with
  | nil => exact .inr ⟨m, [], .of_forall fun _ => rfl, List.prefix_rfl, rfl, rfl, by simp⟩
  | cons item items ih =>
    obtain ⟨k, hk⟩ | ⟨m', length, hadd, hgrows⟩ := hm.add item
    · refine .inl ⟨k, fun fuel hfuel => ?_⟩
      simp [Message.build, hk fuel hfuel, bind, Except.bind]
    obtain ⟨k, hk⟩ | ⟨m'', placed, hbuild, hgrown, hitems, hplaced, hread⟩ := ih hgrows.sound
    · obtain ⟨k', hk'⟩ := hadd
      refine .inl ⟨max k k', fun fuel hfuel => ?_⟩
      have hadd := hk' fuel (by omega)
      simp only at hadd
      simp [Message.build, hadd, hk fuel (by omega), bind, Except.bind]
    · refine .inr ⟨m'', _, hadd.bind (hbuild.bind (.of_forall fun _ => rfl)),
        hgrows.grown.trans hgrown, by simp [hitems], ⟨rfl, ?_⟩, ?_⟩
      · rw [← hgrows.occupied]
        exact hplaced
      · obtain ⟨more, hmore⟩ := hgrown
        intro x hx
        obtain rfl | hx := List.mem_cons.mp hx
        · rw [← hmore]
          exact hgrows.readsBack.extend
        · exact hread x hx

theorem sound_initDnsMessage (flags : UInt8) : (initDnsMessage flags).Sound where
  fits := by
    show 12 ≤ replySize
    decide
  last _ h := by cases h

/-- A message that is built from names and other data in any order either runs out of room, or every name
is read back as it was added, takes up the bytes that were returned as its length, and points back. -/
theorem built_names_read_back (flags : UInt8) (items : List Item) :
    (∃ k, ∀ fuel, k ≤ fuel → Message.build fuel (initDnsMessage flags) items = .error .full) ∨
      ∃ m placed, Settles (fun fuel => Message.build fuel (initDnsMessage flags) items) (m, placed) ∧
        placed.map Placed.item = items ∧ Consecutive 12 placed m.bytes.length ∧
        ∀ x ∈ placed, ∀ name, x.item = .name name →
          Settles (domainNameCopy m.bytes x.position maxDomainSize) (encode name.labels) ∧
          Compressed m.bytes x.position x.length name.labels := by
  obtain hfull | ⟨m, placed, hbuild, _, hitems, hplaced, hread⟩ :=
    (sound_initDnsMessage flags).build items
  · exact .inl hfull
  · refine .inr ⟨m, placed, hbuild, hitems, hplaced, fun x hx name hname => ?_⟩
    have := hread x hx
    rw [ReadsBack, hname] at this
    exact ⟨this.1.settles_copy name.size, this.2⟩

def sharedNames : List Item :=
  [.name ⟨[[104], [122, 119]], by decide, by decide, by decide⟩, .data [0, 1],
    .name ⟨[[103], [122, 119]], by decide, by decide, by decide⟩]

theorem sharedNames_read_back : ∃ m placed,
    Settles (fun fuel => Message.build fuel (initDnsMessage 0) sharedNames) (m, placed) ∧
      ∀ x ∈ placed, ∀ name, x.item = .name name →
        Settles (domainNameCopy m.bytes x.position maxDomainSize) (encode name.labels) := by
  obtain ⟨k, hfull⟩ | ⟨m, placed, hbuild, -, -, hread⟩ := built_names_read_back 0 sharedNames
  · have hbuilt : ∃ r, ∀ fuel, Message.build (fuel + 9) (initDnsMessage 0) sharedNames = .ok r := ⟨_, fun _ => rfl⟩
    obtain ⟨r, hr⟩ := hbuilt
    exact absurd ((hr k).symm.trans (hfull (k + 9) (by omega))) (by simp)
  · exact ⟨m, placed, hbuild, fun x hx name hname => (hread x hx name hname).1⟩

/-- The labels are compared as strings: two names that differ after a zero become one. -/
theorem nul_label_misread : ∃ m₁ m₂ : Message, ∀ fuel,
      addDomainNameCompressed (initDnsMessage 0) (encode [[97, 0, 98]]) (fuel + 5) = .ok (m₁, 5) ∧
      addDomainNameCompressed m₁ (encode [[97, 0, 99]]) (fuel + 5) = .ok (m₂, 2) ∧
      domainNameCopy m₂.bytes 17 maxDomainSize (fuel + 5) = .ok (encode [[97, 0, 98]]) ∧
      encode [[97, 0, 98]] ≠ encode [[97, 0, 99]] := by
  refine ⟨⟨[0, 0, 0, 0, 0, 0, 0, 0, 0, 0, 0, 0, 3, 97, 0, 98, 0], some 12⟩,
    ⟨[0, 0, 0, 0, 0, 0, 0, 0, 0, 0, 0, 0, 3, 97, 0, 98, 0, 192, 12], some 17⟩, fun fuel => ?_⟩
  exact ⟨rfl, rfl, rfl, by decide⟩

end Messages

end ZipGateway.Mdns

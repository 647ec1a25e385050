import Mathlib
import ZipGateway.Lib.Memory

/-!
# Options whose length takes one byte or two

An option is a type, the length of its value and the value. Which of the two forms a length has is
not written anywhere: whoever reads a chain of options knows the form of each of them.
-/

inductive LengthForm where
  | short
  | long
deriving DecidableEq, Repr

namespace LengthForm

def size : LengthForm → Nat
  | short => 1
  | long => 2

def bytes : LengthForm → Nat → Bytes
  | short, n => [UInt8.ofNat n]
  | long, n => [UInt8.ofNat (n / 256), UInt8.ofNat n]

def read : LengthForm → Bytes → Option (UInt16 × Bytes)
  | short, n :: rest => some (UInt16.ofNat n.toNat, rest)
  | long, hi :: lo :: rest => some (UInt16.ofNat (256 * hi.toNat + lo.toNat), rest)
  | _, _ => none

variable {form : LengthForm} {n : Nat} {b rest : Bytes} {length : UInt16}

@[simp]
theorem length_bytes (form : LengthForm) (n : Nat) : (form.bytes n).length = form.size := by
  cases form <;> rfl

theorem size_le (form : LengthForm) : form.size ≤ 2 := by
  cases form <;> decide

theorem read_bytes (h : n < 256 ^ form.size) (rest : Bytes) :
    form.read (form.bytes n ++ rest) = some (UInt16.ofNat n, rest) := by
  cases form with
  | short =>
    have hn : (UInt8.ofNat n).toNat = n := UInt8.toNat_ofNat_of_lt' h
    simp only [bytes, List.singleton_append, read, hn]
  | long =>
    have hhi : (UInt8.ofNat (n / 256)).toNat = n / 256 := UInt8.toNat_ofNat_of_lt' (by
      simp only [size] at h
      show n / 256 < 256
      omega)
    have hlo : (UInt8.ofNat n).toNat = n % 256 := UInt8.toNat_ofNat
    simp only [bytes, List.cons_append, List.nil_append, read, hhi, hlo, Nat.div_add_mod]

theorem bytes_of_read (h : form.read b = some (length, rest)) :
    length.toNat < 256 ^ form.size ∧ b = form.bytes length.toNat ++ rest := by
  match form, b, h with
  | short, n :: tail, h =>
    obtain ⟨rfl, rfl⟩ : UInt16.ofNat n.toNat = length ∧ tail = rest := by simpa [read] using h
    have hn := n.toNat_lt
    have hback : (UInt16.ofNat n.toNat).toNat = n.toNat := UInt16.toNat_ofNat_of_lt' (by
      show n.toNat < 65536
      omega)
    rw [hback, bytes, UInt8.ofNat_toNat]
    exact ⟨hn, rfl⟩
  | long, hi :: lo :: tail, h =>
    obtain ⟨rfl, rfl⟩ : UInt16.ofNat (256 * hi.toNat + lo.toNat) = length ∧ tail = rest := by
      simpa [read] using h
    have hhi := hi.toNat_lt
    have hlo := lo.toNat_lt
    have hback : (UInt16.ofNat (256 * hi.toNat + lo.toNat)).toNat = 256 * hi.toNat + lo.toNat :=
      UInt16.toNat_ofNat_of_lt' (by
        show 256 * hi.toNat + lo.toNat < 65536
        omega)
    have hdiv : (256 * hi.toNat + lo.toNat) / 256 = hi.toNat := by omega
    have hlow : UInt8.ofNat (256 * hi.toNat + lo.toNat) = lo := by
      apply UInt8.toNat_inj.mp
      rw [UInt8.toNat_ofNat']
      omega
    rw [hback, bytes, hdiv, hlow, UInt8.ofNat_toNat]
    refine ⟨?_, rfl⟩
    show 256 * hi.toNat + lo.toNat < 65536
    omega

end LengthForm

structure OptionField where
  type : UInt8
  form : LengthForm
  value : Bytes
  length_lt : value.length < 65536
deriving DecidableEq

namespace OptionField

def size (o : OptionField) : Nat :=
  1 + o.form.size + o.value.length

def bytes (o : OptionField) : Bytes :=
  o.type :: (o.form.bytes o.value.length ++ o.value)

def Valid (o : OptionField) : Prop :=
  o.value.length < 256 ^ o.form.size

def encode (opts : List OptionField) : Bytes :=
  opts.flatMap bytes

def readValue (type : UInt8) (form : LengthForm) (length : UInt16) (b : Bytes) : Option (OptionField × Bytes) :=
  if length.toNat ≤ b.length then
    some (⟨type, form, b.take length.toNat,
      Nat.lt_of_le_of_lt (List.length_take_le _ _) length.toNat_lt⟩, b.drop length.toNat)
  else none

def read (form : LengthForm) : Bytes → Option (OptionField × Bytes)
  | [] => none
  | type :: b => do
      let (length, rest) ← form.read b
      readValue type form length rest

def decode : List LengthForm → Bytes → Option (List OptionField)
  | [], [] => some []
  | [], _ :: _ => none
  | form :: forms, b => do
      let (o, rest) ← read form b
      let opts ← decode forms rest
      some (o :: opts)

variable {o : OptionField} {opts : List OptionField} {form : LengthForm} {forms : List LengthForm} {b rest : Bytes}

theorem length_bytes (o : OptionField) : o.bytes.length = o.size := by
  simp only [bytes, size, List.length_cons, List.length_append, LengthForm.length_bytes]
  omega

theorem two_le_size (o : OptionField) : 2 ≤ o.size := by
  have hform : 1 ≤ o.form.size := by cases o.form <;> decide
  unfold size
  omega

theorem size_lt (o : OptionField) : o.size ≤ 65538 := by
  have hform := o.form.size_le
  have hlength := o.length_lt
  unfold size
  omega

theorem encode_append (first second : List OptionField) : encode (first ++ second) = encode first ++ encode second :=
  List.flatMap_append

theorem encode_concat (opts : List OptionField) (o : OptionField) : encode (opts ++ [o]) = encode opts ++ o.bytes := by
  rw [encode_append, encode, encode, List.flatMap_singleton]

theorem read_bytes (h : o.Valid) (rest : Bytes) : read o.form (o.bytes ++ rest) = some (o, rest) := by
  have hlength : (UInt16.ofNat o.value.length).toNat = o.value.length :=
    UInt16.toNat_ofNat_of_lt' o.length_lt
  have hread := LengthForm.read_bytes h (o.value ++ rest)
  simp only [bytes, read, List.cons_append, List.append_assoc, hread]
  show readValue o.type o.form (UInt16.ofNat o.value.length) (o.value ++ rest) = some (o, rest)
  simp [readValue, hlength]

theorem bytes_of_read (h : read form b = some (o, rest)) : o.form = form ∧ o.Valid ∧ b = o.bytes ++ rest := by
  cases b with
  | nil => cases h
  | cons type b =>
    obtain ⟨⟨length, tail⟩, hform, hvalue⟩ := Option.bind_eq_some_iff.mp h
    obtain ⟨hfits, rfl⟩ := LengthForm.bytes_of_read hform
    simp only [readValue] at hvalue
    split at hvalue
    · rename_i hle
      obtain ⟨rfl, rfl⟩ := Prod.mk.inj (Option.some.inj hvalue)
      have htake : (tail.take length.toNat).length = length.toNat := by simp [hle]
      refine ⟨rfl, ?_, ?_⟩
      · unfold Valid
        rwa [htake]
      · simp [bytes, htake]
    · cases hvalue

theorem decode_eq_some : decode forms b = some opts ↔ opts.map (·.form) = forms ∧ (∀ o ∈ opts, o.Valid) ∧ b = encode opts := by
  induction forms generalizing b opts with
  | nil =>
    cases b with
    | nil =>
      simp only [decode, Option.some.injEq, List.map_eq_nil_iff]
      constructor
      · rintro rfl
        exact ⟨rfl, by simp, rfl⟩
      · exact fun h => h.1.symm
    | cons byte b =>
      constructor
      · intro h
        cases h
      · rintro ⟨hnil, -, hbytes⟩
        rw [List.map_eq_nil_iff.mp hnil] at hbytes
        cases hbytes
  | cons form forms ih =>
    constructor
    · intro h
      obtain ⟨⟨o, rest⟩, hread, hrest⟩ := Option.bind_eq_some_iff.mp h
      obtain ⟨opts', hdecode, hcons⟩ := Option.bind_eq_some_iff.mp hrest
      obtain ⟨rfl, hvalid, rfl⟩ := bytes_of_read hread
      obtain ⟨rfl, hall, rfl⟩ := ih.mp hdecode
      obtain rfl := Option.some.inj hcons
      exact ⟨rfl, List.forall_mem_cons.mpr ⟨hvalid, hall⟩, rfl⟩
    · rintro ⟨hmap, hall, rfl⟩
      cases opts with
      | nil => cases hmap
      | cons o opts =>
        obtain ⟨rfl, rfl⟩ := List.cons.inj hmap
        obtain ⟨hvalid, hall⟩ := List.forall_mem_cons.mp hall
        have hread := read_bytes hvalid (encode opts)
        have hdecode := ih.mpr ⟨rfl, hall, rfl⟩
        show (read o.form (o.bytes ++ encode opts)).bind _ = _
        rw [hread]
        show (decode (opts.map (·.form)) (encode opts)).bind _ = _
        rw [hdecode]
        rfl

end OptionField

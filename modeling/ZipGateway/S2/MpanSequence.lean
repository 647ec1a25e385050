import ZipGateway.Lib.Endian
import ZipGateway.S2.Decrypt

/-!
# The states of an MPAN

`next_mpan_state` leaves the addition to `bigint_add`, which carries from the first byte to the last, while
the constant one has its 1 in the last byte. So only the last byte changes, and nothing is carried into the
others.
-/

namespace ZipGateway.S2

variable (b : Block)

section Addition

theorem bigintAdd_zeros (front : Bytes) (a b : UInt8) :
    bigintAdd 0 (front ++ [a]) (List.replicate front.length 0 ++ [b]) = front ++ [a + b] := by
  induction front with
  | nil => simp [bigintAdd, UInt8.ofNat_add]
  | cons x front ih =>
    have hcarry : (x.toNat + (0 : UInt8).toNat + 0) / 256 = 0 := by
      have hx := x.toNat_lt
      rw [Nat.div_eq_of_lt]
      simpa using hx
    have hbyte : UInt8.ofNat (x.toNat + (0 : UInt8).toNat + 0) = x := by simp
    rw [List.length_cons, List.replicate_succ, List.cons_append, List.cons_append, bigintAdd, hcarry, hbyte,
      ih, List.cons_append]

theorem Block.toList_eq : b.toList = b.toList.take 15 ++ [b[15]] := by
  have hlast : b.toList.drop 15 = [b[15]] := by
    rw [List.drop_eq_getElem_cons (by simp), List.drop_eq_nil_of_le (by simp)]
    simp
  rw [← hlast, List.take_append_drop]

theorem nextMpanState_innerState (mpan : Mpan) :
    (nextMpanState mpan).innerState = mpan.innerState.set 15 (mpan.innerState[15] + 1) := by
  have hbytes := Block.toList_eq mpan.innerState
  have hlength : (mpan.innerState.toList.take 15).length = 15 := by simp
  have hadd := bigintAdd_zeros (mpan.innerState.toList.take 15) mpan.innerState[15] 1
  rw [hlength, ← hbytes] at hadd
  have hone : List.replicate 15 0 ++ [1] = [0, 0, 0, 0, 0, 0, 0, 0, 0, 0, 0, 0, 0, 0, 0, (1 : UInt8)] := rfl
  simp only [nextMpanState, ← hone, hadd]
  ext i hi
  rcases Nat.lt_or_ge i 15 with hfront | hlast
  · have hne : 15 ≠ i := by omega
    simp [Block.ofBytes, hfront, hlength, hne]
  · obtain rfl : i = 15 := by omega
    simp [Block.ofBytes, hlength]

end Addition

section Sequence

variable (mpan : Mpan)

def mpanState (n : Nat) : Block :=
  (nextMpanState^[n] mpan).innerState

theorem mpanState_eq (n : Nat) : mpanState mpan n = mpan.innerState.set 15 (mpan.innerState[15] + UInt8.ofNat n) := by
  induction n with
  | zero => simp [mpanState]
  | succ n ih =>
    have hnext : mpanState mpan (n + 1) = (mpanState mpan n).set 15 ((mpanState mpan n)[15] + 1) := by
      unfold mpanState
      rw [Function.iterate_succ_apply', nextMpanState_innerState]
    rw [hnext, ih]
    simp [UInt8.ofNat_add, UInt8.add_assoc]

theorem mpanState_eq_iff (i j : Nat) : mpanState mpan i = mpanState mpan j ↔ i % 256 = j % 256 := by
  rw [mpanState_eq, mpanState_eq]
  constructor
  · intro h
    have hlast : UInt8.ofNat i = UInt8.ofNat j := by
      simpa using congrArg (fun b : Block => b[15]) h
    simpa using congrArg UInt8.toNat hlast
  · intro h
    have hbyte : UInt8.ofNat i = UInt8.ofNat j := UInt8.toNat_inj.mp (by simpa using h)
    rw [hbyte]

def Block.value (b : Block) : Nat :=
  Endian.ofBytes b.toList.reverse

theorem Block.value_eq : Block.value b = b[15].toNat + 256 * Endian.ofBytes (b.toList.take 15).reverse := by
  unfold Block.value
  rw [Block.toList_eq b, List.reverse_append, List.reverse_singleton, List.singleton_append, Endian.ofBytes]
  simp

theorem Block.value_set (x : UInt8) :
    Block.value (b.set 15 x) = x.toNat + 256 * Endian.ofBytes (b.toList.take 15).reverse := by
  have hfront : (b.set 15 x).toList.take 15 = b.toList.take 15 := by
    rw [Vector.toList_set, List.take_set_of_le (le_refl 15)]
  rw [Block.value_eq, hfront]
  simp

theorem ofBytes_front_lt : Endian.ofBytes (b.toList.take 15).reverse < 2 ^ 120 := by
  have hlt := Endian.ofBytes_lt (b.toList.take 15).reverse
  rw [List.length_reverse, List.length_take, Vector.length_toList] at hlt
  calc Endian.ofBytes (b.toList.take 15).reverse < 256 ^ min 15 16 := hlt
    _ = 2 ^ 120 := rfl

theorem value_mpanState_succ (i : Nat) :
    Block.value (mpanState mpan (i + 1)) = (Block.value (mpanState mpan i) + 1) % 2 ^ 128 ↔
      (mpan.innerState[15].toNat + i) % 256 ≠ 255 := by
  have hfront := ofBytes_front_lt mpan.innerState
  rw [mpanState_eq, mpanState_eq, Block.value_set, Block.value_set]
  generalize Endian.ofBytes (mpan.innerState.toList.take 15).reverse = front at *
  have hlast := mpan.innerState[15].toNat_lt
  generalize mpan.innerState[15] = last at *
  have hi : (last + UInt8.ofNat i).toNat = (last.toNat + i) % 256 := by simp
  have hsucc : (last + UInt8.ofNat (i + 1)).toNat = (last.toNat + i + 1) % 256 := by
    simp [Nat.add_assoc]
  rw [hi, hsucc]
  omega

def multicastNonce (env : Env) (key : Block) (n : Nat) : Block :=
  env.aes128EcbEncrypt (mpanState mpan n) key

/-- The states that moving on `n` times goes through count up, no two of them and, where the cipher is a
permutation, no two nonces are the same, and whoever starts with the same inner state gets them too. -/
structure CountsUp (n : Nat) : Prop where
  increments : ∀ i < n, Block.value (mpanState mpan (i + 1)) = (Block.value (mpanState mpan i) + 1) % 2 ^ 128
  distinct   : ∀ i ≤ n, ∀ j ≤ n, mpanState mpan i = mpanState mpan j → i = j
  fresh      : ∀ (env : Env) (key : Block), (fun input => env.aes128EcbEncrypt input key).Injective →
    ∀ i ≤ n, ∀ j ≤ n, multicastNonce mpan env key i = multicastNonce mpan env key j → i = j
  agreed     : ∀ other : Mpan, other.innerState = mpan.innerState → ∀ i ≤ n, mpanState other i = mpanState mpan i

theorem distinct_iff (n : Nat) : (∀ i ≤ n, ∀ j ≤ n, mpanState mpan i = mpanState mpan j → i = j) ↔ n < 256 := by
  constructor
  · intro hdistinct
    by_contra hn
    have hback := hdistinct 0 (Nat.zero_le n) 256 (Nat.le_of_not_lt hn) ((mpanState_eq_iff mpan 0 256).mpr rfl)
    omega
  · intro hn i hi j hj heq
    have hmod := (mpanState_eq_iff mpan i j).mp heq
    omega

/-- The states count up as long as the last byte does. -/
theorem countsUp_iff (n : Nat) : CountsUp mpan n ↔ mpan.innerState[15].toNat + n < 256 := by
  have hlast := mpan.innerState[15].toNat_lt
  constructor
  · intro hcounts
    have hn := (distinct_iff mpan n).mp hcounts.distinct
    by_contra hover
    have hstep := hcounts.increments (255 - mpan.innerState[15].toNat) (by omega)
    rw [value_mpanState_succ] at hstep
    omega
  · intro hn
    have hdistinct := (distinct_iff mpan n).mpr (by omega)
    refine ⟨?_, hdistinct, ?_, ?_⟩
    · intro i hi
      rw [value_mpanState_succ]
      omega
    · intro env key hinj i hi j hj heq
      exact hdistinct i hi j hj (hinj heq)
    · intro other hother i hi
      rw [mpanState_eq, mpanState_eq]
      simp only [hother]

def zeroMpan : Mpan where
  ownerId := 1
  groupId := 1
  innerState := Vector.replicate 16 0
  classId := 0
  state := .set

theorem not_countsUp : ¬∀ mpan : Mpan, ∀ n < 2 ^ 128, CountsUp mpan n := by
  intro hcounts
  have hback := (hcounts zeroMpan 256 (by decide)).distinct 0 (by omega) 256 (by omega)
    ((mpanState_eq_iff zeroMpan 0 256).mpr rfl)
  omega

end Sequence

end ZipGateway.S2

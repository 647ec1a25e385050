import ZipGateway.Crypto.AesCmac
import ZipGateway.Lib.CtrDrbg

/-!
# The random generator

`ctr_drbg.c`. The counter is sixteen bytes of memory, the highest first, and is counted up from the last of them.
-/

set_option maxRecDepth 8000

namespace ZipGateway.AesCtrDrbg

open Cmac BigEndian AesCmac

structure Ctx where
  df : UInt8
  v : Bytes
  k : Bytes

/-- The bytes from the last to the first, and whether the loop is still running. -/
def increment : Bytes → Bytes × Bool
  | [] => ([], true)
  | b :: rest =>
    let (data, running) := increment rest
    if running then ((b + 1) :: data, b + 1 = 0) else (b :: data, false)

def update (aes : BlockCipher) (ctx : Ctx) (data : Bytes) : Ctx :=
  let v1 := (increment ctx.v).1
  let v2 := (increment v1).1
  let tmp := xor (aes.encrypt ctx.k v1 ++ aes.encrypt ctx.k v2) data
  { ctx with k := tmp.take 16, v := (tmp.drop 16).take 16 }

def reseed (aes : BlockCipher) (ctx : Ctx) (seed : Bytes) : Ctx :=
  update aes ctx seed

def instantiate (aes : BlockCipher) (entropy personal : Bytes) : Ctx :=
  reseed aes { df := 0, v := constZero, k := constZero } (xor entropy personal)

def generate (aes : BlockCipher) (ctx : Ctx) : Bytes × Ctx :=
  let v := (increment ctx.v).1
  (aes.encrypt ctx.k v, update aes { ctx with v := v } (constZero ++ constZero))

/-! ### The generator on numbers -/

def ciph (aes : BlockCipher) (key x : BitVec 128) : BitVec 128 :=
  cipher aes (bytes key) x

/-- The two halves of a seed. -/
def halves (data : Bytes) : BitVec 128 × BitVec 128 :=
  (word (data.take 16), word (data.drop 16))

/-- The context holds the state. -/
structure Holds (ctx : Ctx) (s : CtrDrbg.State) : Prop where
  k_length : ctx.k.length = 16
  v_length : ctx.v.length = 16
  key : word ctx.k = s.key
  v : word ctx.v = s.v

section Steps

variable {aes : BlockCipher} {a b : Bytes} {ctx : Ctx} {s : CtrDrbg.State}

theorem increment_spec (a : Bytes) : (increment a).1.length = a.length ∧
    value (increment a).1 + (if (increment a).2 then 256 ^ a.length else 0) = value a + 1 := by
  induction a with
  | nil => exact ⟨rfl, rfl⟩
  | cons x a ih =>
    obtain ⟨hlen, hvalue⟩ := ih
    simp only [increment]
    by_cases hrunning : (increment a).2 = true
    · have hx : (x + 1).toNat + (if x + 1 = 0 then 256 else 0) = x.toNat + 1 := by
        revert x
        decide
      simp only [hrunning, if_true] at hvalue ⊢
      refine ⟨by simp [hlen], ?_⟩
      simp only [value, hlen, List.length_cons, decide_eq_true_eq, Nat.pow_succ']
      calc (x + 1).toNat * 256 ^ a.length + value (increment a).1 + (if x + 1 = 0 then 256 * 256 ^ a.length else 0)
          = ((x + 1).toNat + (if x + 1 = 0 then 256 else 0)) * 256 ^ a.length + value (increment a).1 := by
            split <;> ring
        _ = x.toNat * 256 ^ a.length + (value (increment a).1 + 256 ^ a.length) := by rw [hx]; ring
        _ = x.toNat * 256 ^ a.length + value a + 1 := by rw [hvalue]; ring
    · simp only [hrunning, Bool.false_eq_true, if_false] at hvalue ⊢
      refine ⟨by simp [hlen], ?_⟩
      simp only [value, hlen]
      omega

theorem word_increment (h : a.length = 16) : word (increment a).1 = word a + 1 := by
  have hvalue := (increment_spec a).2
  have hlt := value_lt (increment a).1
  rw [(increment_spec a).1, h] at hlt
  rw [h] at hvalue
  apply BitVec.eq_of_toNat_eq
  rw [BitVec.toNat_add, word, word, BitVec.toNat_ofNat, BitVec.toNat_ofNat]
  split at hvalue <;> simp at hvalue ⊢ <;> omega

/-- The seed falls on the two blocks. -/
theorem word_halves (ha : a.length = 16) (hb : b.length = 16) {data : Bytes} (hdata : data.length = 32) :
    word ((xor (a ++ b) data).take 16) = word a ^^^ (halves data).1 ∧
      word (((xor (a ++ b) data).drop 16).take 16) = word b ^^^ (halves data).2 := by
  have hfront : (xor (a ++ b) data).take 16 = xor a (data.take 16) := by
    rw [BigEndian.xor, List.take_zipWith, List.take_append_of_le_length ha.ge, List.take_of_length_le ha.le]
    rfl
  have hback : ((xor (a ++ b) data).drop 16).take 16 = xor b (data.drop 16) := by
    rw [BigEndian.xor, List.drop_zipWith, List.drop_append_of_le_length ha.ge, List.drop_of_length_le ha.le,
      List.nil_append, List.take_of_length_le (by simp [hb])]
    rfl
  rw [hfront, hback, word_xor (by simp [ha, hdata]), word_xor (by simp [hb, hdata])]
  exact ⟨rfl, rfl⟩

theorem Holds.encrypt (h : Holds ctx s) {v : Bytes} (hv : v.length = 16) :
    word (aes.encrypt ctx.k v) = ciph aes s.key (word v) := by
  rw [word_encrypt aes ctx.k hv, ciph, ← h.key, bytes_word h.k_length]

theorem Holds.update (h : Holds ctx s) (data : Bytes) (hdata : data.length = 32) :
    Holds (update aes ctx data) (CtrDrbg.update (ciph aes) s (halves data)) := by
  have hv1 : (increment ctx.v).1.length = 16 := (increment_spec _).1.trans h.v_length
  have hv2 : (increment (increment ctx.v).1).1.length = 16 := (increment_spec _).1.trans hv1
  obtain ⟨hkey, hv⟩ := word_halves (aes.length_encrypt ctx.k (increment ctx.v).1)
    (aes.length_encrypt ctx.k (increment (increment ctx.v).1).1) hdata
  rw [h.encrypt hv1, word_increment h.v_length, h.v] at hkey
  rw [h.encrypt hv2, word_increment hv1, word_increment h.v_length, h.v, BitVec.add_assoc] at hv
  exact ⟨by simp [AesCtrDrbg.update, BigEndian.xor, aes.length_encrypt, hdata],
    by simp [AesCtrDrbg.update, BigEndian.xor, aes.length_encrypt, hdata], hkey, hv⟩

theorem Holds.generate (h : Holds ctx s) : (generate aes ctx).1 = bytes (CtrDrbg.generate (ciph aes) s).1 ∧
      Holds (generate aes ctx).2 (CtrDrbg.generate (ciph aes) s).2 := by
  have hv : (increment ctx.v).1.length = 16 := (increment_spec _).1.trans h.v_length
  constructor
  · refine (word_inj (aes.length_encrypt ..) (length_bytes _)).mp ?_
    rw [word_bytes, h.encrypt hv, word_increment h.v_length, h.v]
    rfl
  · have hnext : Holds { ctx with v := (increment ctx.v).1 } ⟨s.key, s.v + 1⟩ :=
      ⟨h.k_length, hv, h.key, by rw [word_increment h.v_length, h.v]⟩
    exact hnext.update (constZero ++ constZero) rfl

theorem holds_instantiate {entropy personal : Bytes} (he : entropy.length = 32) (hp : personal.length = 32) :
    Holds (instantiate aes entropy personal) (CtrDrbg.instantiate (ciph aes) (halves entropy) (halves personal)) := by
  have hzero : Holds ⟨0, constZero, constZero⟩ ⟨0, 0⟩ := ⟨rfl, rfl, rfl, rfl⟩
  have hdata : halves (xor entropy personal) = ((halves entropy).1 ^^^ (halves personal).1,
      (halves entropy).2 ^^^ (halves personal).2) := by
    rw [halves, BigEndian.xor, List.take_zipWith, List.drop_zipWith]
    exact Prod.ext (word_xor (by simp [he, hp])) (word_xor (by simp [he, hp]))
  rw [CtrDrbg.instantiate, ← hdata]
  exact hzero.update (xor entropy personal) (by rw [length_xor (he.trans hp.symm), hp])

end Steps

/-- The calls of the generator, with seeds of 32 bytes. -/
inductive Op where
  | instantiate (entropy personal : Vector UInt8 32)
  | reseed (seed : Vector UInt8 32)
  | generate

/-- The context and the blocks that were generated, the last one first. -/
def step (aes : BlockCipher) : Ctx × List Bytes → Op → Ctx × List Bytes
  | (_, out), .instantiate entropy personal => (instantiate aes entropy.toList personal.toList, out)
  | (ctx, out), .reseed seed => (reseed aes ctx seed.toList, out)
  | (ctx, out), .generate => ((generate aes ctx).2, (generate aes ctx).1 :: out)

def Op.request : Op → CtrDrbg.Request
  | .instantiate entropy personal => .instantiate (halves entropy.toList) (halves personal.toList)
  | .reseed seed => .reseed (halves seed.toList)
  | .generate => .generate

theorem step_refines (aes : BlockCipher) {r : Ctx × List Bytes} {t : CtrDrbg.State × List (BitVec 128)}
    (h : Holds r.1 t.1 ∧ r.2 = t.2.map bytes) (op : Op) :
    Holds (step aes r op).1 (CtrDrbg.step (ciph aes) t op.request).1 ∧
      (step aes r op).2 = (CtrDrbg.step (ciph aes) t op.request).2.map bytes := by
  obtain ⟨hctx, hout⟩ := h
  cases op with
  | instantiate entropy personal => exact ⟨holds_instantiate (by simp) (by simp), hout⟩
  | reseed seed => exact ⟨hctx.update seed.toList (by simp), hout⟩
  | generate => exact ⟨hctx.generate.2, List.cons_eq_cons.mpr ⟨hctx.generate.1, hout⟩⟩

/-- From memory of zeros on, the generator is the one of the standard. -/
theorem ctr_drbg_refines (aes : BlockCipher) (ops : List Op) :
    let r := Machine.run (step aes) (⟨0, constZero, constZero⟩, []) ops
    let t := Machine.run (CtrDrbg.step (ciph aes)) (⟨0, 0⟩, []) (ops.map Op.request)
    Holds r.1 t.1 ∧ r.2 = t.2.map bytes := by
  suffices h : ∀ r t, Holds r.1 t.1 ∧ r.2 = t.2.map bytes → Holds (Machine.run (step aes) r ops).1
          (Machine.run (CtrDrbg.step (ciph aes)) t (ops.map Op.request)).1 ∧
        (Machine.run (step aes) r ops).2 =
          (Machine.run (CtrDrbg.step (ciph aes)) t (ops.map Op.request)).2.map bytes from
    h _ _ ⟨⟨rfl, rfl, rfl, rfl⟩, rfl⟩
  induction ops with
  | nil => exact fun _ _ h => h
  | cons op ops ih => exact fun r t h => ih _ _ (step_refines aes h op)

end ZipGateway.AesCtrDrbg

import ZipGateway.Crypto.CtrDrbg

/-!
# The nonces of a SPAN

`nextnonce.c` mixes the entropy of both sides into the seed of a generator, which then gives one nonce after the
other. Its context lies in the memory of a span entry.
-/

namespace ZipGateway.NextNonce

open Cmac BigEndian AesCmac AesCtrDrbg

def mac (aes : BlockCipher) (key temp : Bytes) : Bytes :=
  aesCmacCalculate aes key (Mem.ofBytes temp) temp.length

def constantEi : Bytes := List.replicate 15 0x88

def ckdfNonce0Expand (aes : BlockCipher) (prk : Bytes) : Bytes :=
  let t1 := mac aes prk (constantEi ++ [0x00] ++ constantEi ++ [0x01])
  let t2 := mac aes prk (t1 ++ constantEi ++ [0x02])
  t1 ++ t2

def nextNonceInstantiate (aes : BlockCipher) (eiSender eiReceiver kNonce : Bytes) : Ctx :=
  let x := mac aes (List.replicate 16 0x26) (eiSender ++ eiReceiver)
  AesCtrDrbg.instantiate aes (ckdfNonce0Expand aes x) kNonce

def nextNonceGenerate (aes : BlockCipher) (ctx : Ctx) : Bytes × Ctx :=
  AesCtrDrbg.generate aes ctx

/-! ### The context in a span entry -/

def ctxBytes (ctx : Ctx) : Bytes :=
  ctx.df :: ctx.v ++ ctx.k

def toSpan (ctx : Ctx) : SpanData where
  rNonce := Block.ofBytes (ctxBytes ctx)
  rest := Vector.ofFn fun i => (ctxBytes ctx).getD (16 + i) 0

def ofSpan (d : SpanData) : Ctx :=
  let b := d.rNonce.toList ++ d.rest.toList
  { df := b.getD 0 0, v := (b.drop 1).take 16, k := b.drop 17 }

/-- The surroundings of S2 with the generator the gateway has. -/
def withGenerator (env : Env) (aes : BlockCipher) : Env :=
  { env with
    nextNonceInstantiate := fun eiSender eiReceiver kNonce =>
      toSpan (nextNonceInstantiate aes eiSender.toList eiReceiver.toList kNonce.toList)
    nextNonceGenerate := fun d =>
      let r := nextNonceGenerate aes (ofSpan d)
      (Block.ofBytes r.1, toSpan r.2) }

/-- The first `n` nonces of a span entry. -/
def nonces (env : Env) (d : SpanData) : Nat → List Block
  | 0 => []
  | n + 1 => (env.nextNonceGenerate d).1 :: nonces env (env.nextNonceGenerate d).2 n

/-- The seed that the standard has for the entropy of both sides. -/
def seed (aes : BlockCipher) (eiSender eiReceiver : Bytes) : Bytes :=
  let x := bytes (cmac (cipher aes (List.replicate 16 0x26)) (eiSender ++ eiReceiver))
  let t := feedback (cipher aes x) constantEi (constantEi ++ [0])
  t 1 ++ t 2

section Proofs

variable {aes : BlockCipher}

theorem mac_eq (key : Bytes) {temp : Bytes} (h : temp.length ≤ 4080) :
    mac aes key temp = bytes (cmac (cipher aes key) temp) := by
  have hcovered : covered temp.length = temp.length := by
    unfold covered
    split <;> omega
  rw [mac, aesCmacCalculate_eq, hcovered, Mem.slice_ofBytes]

theorem ofSpan_toSpan {ctx : Ctx} (hv : ctx.v.length = 16) (hk : ctx.k.length = 16) : ofSpan (toSpan ctx) = ctx := by
  have hlength : (ctxBytes ctx).length = 33 := by simp [ctxBytes, hv, hk]
  have hbytes : (toSpan ctx).rNonce.toList ++ (toSpan ctx).rest.toList = ctxBytes ctx := by
    apply List.ext_getElem
    · simp [hlength]
    intro i hi _
    have hi : i < 33 := by simpa using hi
    rcases Nat.lt_or_ge i 16 with hlt | hge
    · simp [toSpan, Block.ofBytes, List.getElem_append_left, hlt, hlength, hi]
    · rw [List.getElem_append_right (by simpa using hge)]
      simp [toSpan, hlength, hi, Nat.add_sub_cancel' hge]
  rw [ofSpan, hbytes]
  cases ctx with
  | mk df v k => simp_all [ctxBytes]

theorem seed_eq (eiSender eiReceiver : Block) :
    ckdfNonce0Expand aes (mac aes (List.replicate 16 0x26) (eiSender.toList ++ eiReceiver.toList)) =
      seed aes eiSender.toList eiReceiver.toList := by
  simp only [ckdfNonce0Expand]
  rw [mac_eq _ (by decide), mac_eq _ (by simp),
    mac_eq _ (by rw [List.length_append, List.length_append, length_bytes]; decide)]
  rfl

theorem length_seed (eiSender eiReceiver : Bytes) : (seed aes eiSender eiReceiver).length = 32 := by
  simp [seed, feedback]

/-- A span entry that holds a state of the generator gives its outputs. -/
theorem nonces_of_holds (env : Env) {ctx : Ctx} {s : CtrDrbg.State} (h : Holds ctx s) (n : Nat) :
    nonces (withGenerator env aes) (toSpan ctx) n =
      (CtrDrbg.outputs (ciph aes) s n).map fun x => Block.ofBytes (bytes x) := by
  induction n generalizing ctx s with
  | zero => rfl
  | succ n ih =>
    obtain ⟨hout, hnext⟩ := @Holds.generate aes ctx s h
    rw [nonces, CtrDrbg.outputs, List.map_cons, ← ih hnext, ← hout]
    simp only [withGenerator, nextNonceGenerate, ofSpan_toSpan h.v_length h.k_length]

end Proofs

/-- The nonces of a span entry are the outputs of the standard's generator for the mixed entropy. -/
theorem span_nonces (env : Env) (aes : BlockCipher) (eiSender eiReceiver : Block) (kNonce : Vector UInt8 32) (n : Nat) :
    nonces (withGenerator env aes) ((withGenerator env aes).nextNonceInstantiate eiSender eiReceiver kNonce) n =
      (CtrDrbg.outputs (ciph aes) (CtrDrbg.instantiate (ciph aes)
        (halves (seed aes eiSender.toList eiReceiver.toList)) (halves kNonce.toList)) n).map
        fun x => Block.ofBytes (bytes x) := by
  refine nonces_of_holds env ?_ n
  rw [nextNonceInstantiate, seed_eq]
  exact holds_instantiate (length_seed ..) (by simp)

end ZipGateway.NextNonce

import Mathlib.Tactic.Ring
import ZipGateway.Lib.Endian

/-!
# Numbers in memory, the highest byte first
-/

namespace BigEndian

def value : List UInt8 → Nat
  | [] => 0
  | b :: bytes => b.toNat * 256 ^ bytes.length + value bytes

def octets (n x : Nat) : List UInt8 :=
  (Endian.toBytes n x).reverse

def xor (a b : List UInt8) : List UInt8 :=
  List.zipWith (· ^^^ ·) a b

variable {a b : List UInt8}

theorem value_lt (bytes : List UInt8) : value bytes < 256 ^ bytes.length := by
  induction bytes with
  | nil => simp [value]
  | cons b bytes ih =>
    have hb : (b.toNat + 1) * 256 ^ bytes.length ≤ 256 * 256 ^ bytes.length :=
      Nat.mul_le_mul_right _ b.toNat_lt
    rw [value, List.length_cons, Nat.pow_succ']
    rw [Nat.add_mul, Nat.one_mul] at hb
    omega

theorem value_append (a b : List UInt8) : value (a ++ b) = value a * 256 ^ b.length + value b := by
  induction a with
  | nil => simp [value]
  | cons x a ih => rw [List.cons_append, value, ih, value, List.length_append, Nat.pow_add]; ring

theorem value_octets (n x : Nat) : value (octets n x) = x % 256 ^ n := by
  induction n generalizing x with
  | zero => simp [octets, Endian.toBytes, value, Nat.mod_one]
  | succ n ih =>
    have hstep : octets (n + 1) x = octets n (x / 256) ++ [UInt8.ofNat x] := by
      simp [octets, Endian.toBytes]
    rw [hstep, value_append, ih, Nat.pow_succ', Nat.mod_mul]
    simp [value]
    ring

@[simp]
theorem length_octets (n x : Nat) : (octets n x).length = n := by simp [octets]

@[simp]
theorem length_xor (h : a.length = b.length) : (xor a b).length = b.length := by simp [xor, h]

/-- A number in memory is known by its value. -/
theorem value_inj (h : a.length = b.length) : value a = value b ↔ a = b := by
  refine ⟨fun heq => ?_, congrArg value⟩
  induction a generalizing b with
  | nil => exact (List.length_eq_zero_iff.mp h.symm).symm
  | cons x a ih =>
    cases b with
    | nil => cases h
    | cons y b =>
      have hlen : a.length = b.length := Nat.succ.inj h
      have ha := value_lt a
      rw [value, value, hlen] at heq
      rw [hlen] at ha
      have hx : x.toNat = y.toNat := by
        have hdiv := congrArg (· / 256 ^ b.length) heq
        simpa [Nat.add_comm, Nat.add_mul_div_right, Nat.div_eq_of_lt, ha, value_lt b] using hdiv
      rw [hx, Nat.add_left_cancel_iff] at heq
      rw [UInt8.toNat_inj.mp hx, ih hlen heq]

theorem octets_value (a : List UInt8) : octets a.length (value a) = a := by
  rw [← value_inj (by simp), value_octets, Nat.mod_eq_of_lt (value_lt a)]

theorem value_xor (h : a.length = b.length) : value (xor a b) = value a ^^^ value b := by
  induction a generalizing b with
  | nil => rw [List.length_eq_zero_iff.mp h.symm]; rfl
  | cons x a ih =>
    cases b with
    | nil => cases h
    | cons y b =>
      have hlen : a.length = b.length := Nat.succ.inj h
      have hpow : 256 ^ b.length = 2 ^ (8 * b.length) := by rw [Nat.pow_mul]
      have ha := value_lt a
      have hb := value_lt b
      rw [hlen, hpow] at ha
      rw [hpow] at hb
      have hrest : (xor a b).length = b.length := length_xor hlen
      change value ((x ^^^ y) :: xor a b) = _
      rw [value, value, value, ih hlen, hrest, hlen, hpow, UInt8.toNat_xor]
      refine Nat.eq_of_testBit_eq fun i => ?_
      simp only [Nat.mul_comm _ (2 ^ (8 * b.length)), Nat.testBit_xor,
        Nat.testBit_two_pow_mul_add _ ha, Nat.testBit_two_pow_mul_add _ hb,
        Nat.testBit_two_pow_mul_add _ (Nat.xor_lt_two_pow ha hb)]
      split <;> simp

end BigEndian

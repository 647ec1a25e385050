import Mathlib.Tactic.Common

/-!
# The CTR_DRBG

The random generator of NIST SP 800-90A over a block cipher with keys and blocks of 128 bits, without a derivation
function and with one block a request.
-/

namespace CtrDrbg

structure State where
  key : BitVec 128
  v : BitVec 128

variable (ciph : BitVec 128 → BitVec 128 → BitVec 128)

def update (s : State) (data : BitVec 128 × BitVec 128) : State where
  key := ciph s.key (s.v + 1) ^^^ data.1
  v := ciph s.key (s.v + 2) ^^^ data.2

def instantiate (entropy personal : BitVec 128 × BitVec 128) : State :=
  update ciph ⟨0, 0⟩ (entropy.1 ^^^ personal.1, entropy.2 ^^^ personal.2)

def generate (s : State) : BitVec 128 × State :=
  (ciph s.key (s.v + 1), update ciph ⟨s.key, s.v + 1⟩ (0, 0))

/-- The next `n` outputs. -/
def outputs (s : State) : Nat → List (BitVec 128)
  | 0 => []
  | n + 1 => (generate ciph s).1 :: outputs (generate ciph s).2 n

inductive Request where
  | instantiate (entropy personal : BitVec 128 × BitVec 128)
  | reseed (data : BitVec 128 × BitVec 128)
  | generate

/-- The state and the outputs so far, the last one first. -/
def step : State × List (BitVec 128) → Request → State × List (BitVec 128)
  | (_, out), .instantiate entropy personal => (instantiate ciph entropy personal, out)
  | (s, out), .reseed data => (update ciph s data, out)
  | (s, out), .generate => ((generate ciph s).2, (generate ciph s).1 :: out)

end CtrDrbg

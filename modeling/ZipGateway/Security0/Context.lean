import ZipGateway.Lib.Table
import ZipGateway.TransportService.Context

/-!
# Security S0 and its surroundings

The tables of `Security_Scheme0.c`, as the gateway builds it (`NONCE_OPT` is 0). Node ids are 16 bits
wide in a `ts_param_t` and 8 bits wide in the nonce tables and in the arguments of most functions:
the cut is where the code has it. Left out are the transmission reports and `transition_time`, which
only stretches a delay, and `crypted_msg`, whose contents are what is handed over.

Around the code stand the block cipher, the generator of random numbers, the layer below and the
callers. The state carries a log, newest first, and the callbacks the layer below still owes; the
code reads neither. Completion callbacks return before the next call of the module.
-/

namespace ZipGateway

def nonceTableSize : Nat := 15
def maxRxSessions : Nat := 2
def nonceTimeout : Nat := 10
def nonceBlacklistSize : Nat := 10
def rxSessionLife : Nat := 10000

def commandClassSecurity : UInt8 := 0x98
def networkKeySet : UInt8 := 0x06
def securityNonceGet : UInt8 := 0x40
def securityMessageEncapsulation : UInt8 := 0x81
def securityMessageEncapsulationNonceGet : UInt8 := 0xC1
def sequencedBitMask : UInt8 := 0x10
def secondFrameBitMask : UInt8 := 0x20

structure Nonce where
  bytes : Bytes
  length_bytes : bytes.length = 8
deriving DecidableEq

def Nonce.id (n : Nonce) : UInt8 :=
  n.bytes.getD 0 0

def Nonce.ofFn (f : Nat → UInt8) : Nonce :=
  ⟨(List.range 8).map f, by simp⟩

/-- `SerialAPI_AES128_Encrypt`: any function of a key and a block. -/
structure BlockCipher where
  encrypt : Bytes → Bytes → Bytes
  length_encrypt : ∀ key block, (encrypt key block).length = 16

/-- The keys derived from the network key, and from the key of zeros. -/
structure S0Keys where
  enckey : Bytes
  authkey : Bytes
  enckeyz : Bytes
  authkeyz : Bytes

/-- The table entry `nonce_t`, with `issue` to number the registrations. -/
structure NonceEntry where
  src : UInt8
  dst : UInt8
  timeout : Nat
  replyNonce : Bool
  nonce : Nonce
  issue : Nat

inductive S0TxState where
  | nonceGet
  | nonceGetSent
  | encMsg
  | encMsgSent
  | encMsg2
  | encMsg2Sent
  | txDone
  | txFail
deriving DecidableEq, Repr

/-- `sec_tx_session_t`, with the callback by the number of its call. -/
structure TxSession where
  param : TsParam
  data : Mem
  dataLen : Nat
  state : S0TxState
  txCode : UInt8
  timer : Bool
  seq : UInt8
  callback : Option Nat

inductive S0RxState where
  | rxInit
  | rxEnc1
  | rxEnc2
  | rxSessionDone
deriving DecidableEq, Repr

structure RxSession where
  snode : UInt8
  dnode : UInt8
  state : S0RxState
  seqNr : UInt8
  msg : Bytes
  timeout : Nat

/-- Why a nonce is in the table: it was handed out by `sec0_send_nonce`, it came in a nonce report,
or it is the sender's nonce of a frame of ours, to which the other side may reply. -/
inductive NonceUse where
  | handedOut
  | reported
  | reply
deriving DecidableEq, Repr

inductive S0Callback where
  | noceGetCallback
  | msg1Callback
  | msg2Callback
deriving DecidableEq, Repr

/-- A transmission the layer below has taken: the callback with its user pointer, which is a slot,
and for the reader the number of the transmission. -/
structure S0Owed where
  callback : S0Callback
  slot : Fin 2
  tx : Nat
deriving DecidableEq

/-- The calls into the module and out of it: `sent` and `txDone` name the send, `authenticated` is a frame
whose tag was right under the nonce of a registration. -/
inductive S0Out where
  | called (call : Nat) (p : TsParam) (accepted : Bool)
  | completed (call : Nat) (status : UInt8)
  | sent (tx : Nat) (kind : S0Callback) (call : Option Nat) (frame : Bytes) (ok : Bool)
  | txDone (tx : Nat) (status : UInt8)
  | nonceReport (p : TsParam) (nonce : Nonce) (ok : Bool)
  | registered (issue : Nat) (use : NonceUse) (src dst : UInt8) (nonce : Nonce)
  | authenticated (issue : Nat) (snode dnode : UInt8) (nonce : Nonce)
deriving DecidableEq

/-- The world around the module: whether the layer below takes the next frame. -/
structure S0Env where
  aes : BlockCipher
  sendData : Nat → Bool

structure Security0 where
  keys : S0Keys
  nonceTable : List NonceEntry
  nonceBlacklist : Nat → Option (UInt8 × UInt8 × Nonce)
  blacklistNextElem : Nat
  tx : Fin 2 → TxSession
  rx : List RxSession
  seq : UInt8
  secureLearnActive : Bool
  clock : Nat
  owed : List S0Owed
  nCalls : Nat
  nTx : Nat
  nIssues : Nat
  out : List S0Out

namespace Security0

def log (s : Security0) (o : S0Out) : Security0 :=
  { s with out := o :: s.out }

def setTx (s : Security0) (i : Fin 2) (t : TxSession) : Security0 :=
  { s with tx := Function.update s.tx i t }

@[simp]
theorem tx_setTx_self (s : Security0) (i : Fin 2) (t : TxSession) : (s.setTx i t).tx i = t := by
  simp [setTx]

theorem tx_setTx_of_ne {i j : Fin 2} (s : Security0) (t : TxSession) (h : j ≠ i) : (s.setTx i t).tx j = s.tx j := by
  simp [setTx, h]

end Security0

def zeroNonce : Nonce := ⟨List.replicate 8 0, rfl⟩

def NonceEntry.zero : NonceEntry :=
  { src := 0, dst := 0, timeout := 0, replyNonce := false, nonce := zeroNonce, issue := 0 }

def TxSession.zero : TxSession :=
  { param := TsParam.zero, data := fun _ => 0, dataLen := 0, state := .nonceGet, txCode := 0
    timer := false, seq := 0, callback := none }

def RxSession.zero : RxSession :=
  { snode := 0, dnode := 0, state := .rxSessionDone, seqNr := 0, msg := [], timeout := 0 }

def Security0.init (keys : S0Keys) : Security0 where
  keys := keys
  nonceTable := List.replicate nonceTableSize NonceEntry.zero
  nonceBlacklist := fun _ => none
  blacklistNextElem := 0
  tx := fun _ => TxSession.zero
  rx := List.replicate maxRxSessions RxSession.zero
  seq := 0
  secureLearnActive := false
  clock := 0
  owed := []
  nCalls := 0
  nTx := 0
  nIssues := 0
  out := []

end ZipGateway

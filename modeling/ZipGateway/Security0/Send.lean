import ZipGateway.Security0.Cipher
import ZipGateway.Security0.Nonces

/-!
# Security S0: sending

`encrypt_msg`, the states of a transmit session and the calls that drive them.
-/

namespace ZipGateway

def getNodeMaxFrameSize : Nat := 46

/-- The commands under the key of zeros, by the first two bytes behind the data pointer. -/
def isNetworkKeySet (data : Mem) : Bool :=
  data 0 == commandClassSecurity && data 1 == networkKeySet

def S0Keys.encFor (keys : S0Keys) (data : Mem) : Bytes :=
  if isNetworkKeySet data then keys.enckeyz else keys.enckey

def S0Keys.authFor (keys : S0Keys) (data : Mem) : Bytes :=
  if isNetworkKeySet data then keys.authkeyz else keys.authkey

def authData (sh senderNodeId receiverNodeId : UInt8) (payload : Bytes) : Bytes :=
  [sh, senderNodeId, receiverNodeId, UInt8.ofNat payload.length] ++ payload

namespace TxSession

def segmentLen (t : TxSession) : Nat :=
  if t.dataLen + 20 > getNodeMaxFrameSize then getNodeMaxFrameSize - 20 else t.dataLen

def moreToSend (t : TxSession) : Bool :=
  decide (t.dataLen + 20 > getNodeMaxFrameSize)

def flags (t : TxSession) (pass2 : Bool) : UInt8 :=
  if pass2 then sequencedBitMask ||| secondFrameBitMask ||| (t.seq &&& 0xF)
  else if t.moreToSend then sequencedBitMask ||| (t.seq &&& 0xF)
  else 0

def sh (t : TxSession) : UInt8 :=
  if t.moreToSend then securityMessageEncapsulationNonceGet else securityMessageEncapsulation

def encryptedFrame (t : TxSession) (aes : BlockCipher) (keys : S0Keys) (pass2 : Bool)
    (senderNonce receiverNonce : Nonce) : Bytes :=
  let iv := senderNonce.bytes ++ receiverNonce.bytes
  let enc := aesOfb aes (keys.encFor t.data) iv (t.flags pass2 :: t.data.slice 0 t.segmentLen)
  let mac := aesCbcMac aes (keys.authFor t.data) iv (authData t.sh t.param.snode.toUInt8 t.param.dnode.toUInt8 enc)
  [commandClassSecurity, t.sh] ++ senderNonce.bytes ++ enc ++ [receiverNonce.id] ++ mac.take 8

def advance (t : TxSession) : TxSession :=
  { t with data := fun i => t.data (t.segmentLen + i), dataLen := t.dataLen - t.segmentLen }

end TxSession

namespace Security0

/-- `encrypt_msg`: the frame, or `none` without a nonce of the receiver; the outer `none` is a loop that still
draws. -/
def encryptMsg (env : S0Env) (s : Security0) (i : Fin 2) (pass2 : Bool) (draws : List Nonce) :
    Option (Security0 × Option Bytes) :=
  let t := s.tx i
  let snode := t.param.snode.toUInt8
  let dnode := t.param.dnode.toUInt8
  match drawNonce s.nonceTable dnode snode draws with
  | none => none
  | some iv =>
    match getNonce s.nonceTable dnode snode none with
    | none => some (s, none)
    | some e =>
      let s := { s with nonceTable := nonceClear s.nonceTable dnode snode }
      let s := s.registerNonce .reply snode dnode iv
      some (s.setTx i t.advance, some (t.encryptedFrame env.aes s.keys pass2 iv e.nonce))

/-- `send_data` for a session: when the layer below takes the frame, it owes the callback. -/
def sendFrame (env : S0Env) (s : Security0) (i : Fin 2) (cb : S0Callback) (frame : Bytes) : Bool × Security0 :=
  let ok := env.sendData s.nTx
  let owed := if ok then s.owed ++ [⟨cb, i, s.nTx⟩] else s.owed
  (ok, ({ s with nTx := s.nTx + 1, owed }).log (.sent s.nTx cb (s.tx i).callback frame ok))

/-- `s->callback(status, …)`, behind its test for a null pointer. -/
def complete (s : Security0) (i : Fin 2) (status : UInt8) : Security0 :=
  match (s.tx i).callback with
  | some call => s.log (.completed call status)
  | none => s

def txDone (s : Security0) (i : Fin 2) : Security0 :=
  (s.setTx i { s.tx i with state := .txDone, param.dnode := 0, timer := false }).complete i
    transmitCompleteOk

def txFail (s : Security0) (i : Fin 2) : Security0 :=
  (s.setTx i { s.tx i with state := .txFail, param.dnode := 0, timer := false }).complete i (s.tx i).txCode

def txFailNow (s : Security0) (i : Fin 2) : Security0 :=
  (s.setTx i { s.tx i with txCode := transmitCompleteFail }).txFail i

def nonceGetFrame : Bytes := [commandClassSecurity, securityNonceGet]

/-- `tx_session_state_set(s, NONCE_GET)`. -/
def enterNonceGet (env : S0Env) (s : Security0) (i : Fin 2) : Security0 :=
  let s := s.setTx i { s.tx i with state := .nonceGet }
  match sendFrame env s i .noceGetCallback nonceGetFrame with
  | (false, s) => s.txFailNow i
  | (true, s) =>
    if s.secureLearnActive then s.setTx i { s.tx i with timer := true } else s

/-- `tx_session_state_set(s, NONCE_GET_SENT)`. -/
def enterNonceGetSent (s : Security0) (i : Fin 2) : Security0 :=
  s.setTx i { s.tx i with
    state := .nonceGetSent
    timer := if s.secureLearnActive then (s.tx i).timer else true }

/-- `tx_session_state_set` for `ENC_MSG` and `ENC_MSG2`. -/
def enterEncMsg (env : S0Env) (s : Security0) (i : Fin 2) (pass2 : Bool) (draws : List Nonce) : Option Security0 :=
  let s := s.setTx i { s.tx i with state := if pass2 then .encMsg2 else .encMsg, timer := false }
  match encryptMsg env s i pass2 draws with
  | none => none
  | some (s, none) => some (s.txFailNow i)
  | some (s, some frame) =>
    match sendFrame env s i (if pass2 then .msg2Callback else .msg1Callback) frame with
    | (false, s) => some (s.txFailNow i)
    | (true, s) => some s

/-- `tx_session_state_set(s, ENC_MSG_SENT)`. -/
def enterEncMsgSent (s : Security0) (i : Fin 2) : Security0 :=
  let s := s.setTx i { s.tx i with state := .encMsgSent }
  if (s.tx i).dataLen = 0 then s.txDone i
  else s.setTx i { s.tx i with timer := true }

/-- `tx_session_state_set(s, ENC_MSG2_SENT)`. -/
def enterEncMsg2Sent (s : Security0) (i : Fin 2) : Security0 :=
  (s.setTx i { s.tx i with state := .encMsg2Sent }).txDone i

/-! ### The callbacks of the layer below -/

def noceGetCallback (s : Security0) (i : Fin 2) (status : UInt8) : Security0 :=
  let s := s.setTx i { s.tx i with txCode := status }
  if (s.tx i).state = .nonceGet then
    if status = transmitCompleteOk then s.enterNonceGetSent i else s.txFail i
  else s

def msg1Callback (s : Security0) (i : Fin 2) (status : UInt8) : Security0 :=
  if (s.tx i).state = .encMsg then
    let s := s.setTx i { s.tx i with txCode := status }
    if status = transmitCompleteOk then s.enterEncMsgSent i else s.txFail i
  else s

def msg2Callback (s : Security0) (i : Fin 2) (status : UInt8) : Security0 :=
  if (s.tx i).state = .encMsg2 then
    let s := s.setTx i { s.tx i with txCode := status }
    if status = transmitCompleteOk then s.enterEncMsg2Sent i else s.txFail i
  else s

def runCallback (s : Security0) (o : S0Owed) (status : UInt8) : Security0 :=
  match o.callback with
  | .noceGetCallback => s.noceGetCallback o.slot status
  | .msg1Callback => s.msg1Callback o.slot status
  | .msg2Callback => s.msg2Callback o.slot status

def transmitDone (s : Security0) (n : Nat) (status : UInt8) : Security0 :=
  match s.owed[n]? with
  | some o => (({ s with owed := s.owed.eraseIdx n }).log (.txDone o.tx status)).runCallback o status
  | none => s

def txTimeout (s : Security0) (i : Fin 2) : Security0 :=
  if (s.tx i).timer then
    (s.setTx i { s.tx i with timer := false }).txFailNow i
  else s

/-! ### The interface -/

def getTxSessionByNode (s : Security0) (snode dnode : UInt8) : Option (Fin 2) :=
  (List.finRange 2).find? fun i =>
    (s.tx i).param.dnode == dnode.toUInt16 && (s.tx i).param.snode == snode.toUInt16

def freeTxSession (s : Security0) : Option (Fin 2) :=
  (List.finRange 2).find? fun i => (s.tx i).param.dnode == 0

def openTxSession (s : Security0) (i : Fin 2) (p : TsParam) (data : Mem) (len : Nat) (call : Nat) :
    Security0 :=
  ({ s with seq := s.seq + 1 }).setTx i
    { s.tx i with param := p, data, dataLen := len, callback := some call, seq := s.seq + 1 }

/-- `sec0_send_data`. The length is a byte. -/
def sec0SendData (env : S0Env) (s : Security0) (p : TsParam) (data : Mem) (len : Nat) : Security0 :=
  let call := s.nCalls
  let s := { s with nCalls := s.nCalls + 1 }
  match s.getTxSessionByNode p.snode.toUInt8 p.dnode.toUInt8 with
  | some _ => s.log (.called call p false)
  | none =>
    match s.freeTxSession with
    | none => s.log (.called call p false)
    | some i => enterNonceGet env ((s.log (.called call p true)).openTxSession i p data (len % 256) call) i

def sec0RegisterNonce (env : S0Env) (s : Security0) (src dst : UInt8) (nonce : Nonce)
    (draws : List Nonce) : Option Security0 :=
  if s.sec0IsNonceBlacklisted src dst nonce then some s
  else
    match s.getTxSessionByNode dst src with
    | none => some s
    | some i =>
      let s := (s.registerNonce .reported src dst nonce).sec0BlacklistAddNonce src dst nonce
      let t := s.tx i
      if t.state = .nonceGetSent ∨ t.state = .nonceGet then enterEncMsg env s i false draws
      else if t.state = .encMsgSent ∨ (t.state = .encMsg ∧ 0 < t.dataLen) then
        enterEncMsg env s i true draws
      else some s

def abortTxSession (s : Security0) (i : Fin 2) : Security0 :=
  if (s.tx i).param.dnode ≠ 0 then s.txFailNow i else s

def sec0AbortAllTxSessions (s : Security0) : Security0 :=
  (s.abortTxSession 0).abortTxSession 1

end Security0

end ZipGateway

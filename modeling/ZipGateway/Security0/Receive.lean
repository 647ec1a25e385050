import ZipGateway.Security0.Send

/-!
# Security S0: receiving

The receive sessions, `sec0_send_nonce` and `sec0_decrypt_message`, and the module as a machine that
takes one event after the other.
-/

namespace ZipGateway

namespace RxSession

def isFree (e : RxSession) (now : Nat) : Bool :=
  e.state == .rxSessionDone || decide (e.timeout < now)

end RxSession

namespace Security0

def getRxSessionByNodes (s : Security0) (snode dnode : UInt8) : Option Nat :=
  s.rx.findIdx? fun e => !e.isFree s.clock && e.dnode == dnode && e.snode == snode

def freeRxSession (s : Security0) : Option Nat :=
  s.rx.findIdx? fun e => e.isFree s.clock

def setRx (s : Security0) (j : Nat) (f : RxSession → RxSession) : Security0 :=
  { s with rx := s.rx.modify j f }

def newRxSession (s : Security0) (snode dnode : UInt8) (j : Nat) : Security0 :=
  s.setRx j fun e =>
    { e with snode, dnode, timeout := s.clock + rxSessionLife, state := .rxInit }

def rxSessionFor (s : Security0) (snode dnode : UInt8) : Option (Nat × Security0) :=
  match s.getRxSessionByNodes snode dnode with
  | some j => some (j, s)
  | none =>
    match s.freeRxSession with
    | some j => some (j, s.newRxSession snode dnode j)
    | none => none

def freeRx (s : Security0) (j : Nat) : Security0 :=
  s.setRx j fun e => { e with state := .rxSessionDone }

/-- The reassembly at the end of `sec0_decrypt_message` of `plain`, which starts with the flags; for an empty
one the byte `behind` is taken, and the copy of -1 bytes is none. -/
def reassemble (s : Security0) (j : Nat) (plain : Bytes) (behind : UInt8) : Security0 × Option Bytes :=
  let flags := plain.getD 0 behind
  let part := plain.drop 1
  if flags &&& sequencedBitMask ≠ 0 then
    if flags &&& secondFrameBitMask = 0 then
      (s.setRx j fun e => { e with seqNr := flags &&& 0xF, state := .rxEnc1, msg := part }, none)
    else
      match s.rx[j]? with
      | none => (s, none)
      | some e =>
        if e.state ≠ .rxEnc1 ∨ flags &&& 0xF ≠ e.seqNr then (s, none)
        else (s.freeRx j, some (e.msg ++ part))
  else (s.freeRx j, some part)

def authenticate (env : S0Env) (s : Security0) (snode dnode : UInt8) (encData : Mem) (len : Nat)
    (e : NonceEntry) (j : Nat) : Security0 × Option Bytes :=
  let iv := encData.slice 2 8 ++ e.nonce.bytes
  let payload := encData.slice 10 (len - 19)
  let mac := aesCbcMac env.aes s.keys.authkey iv (authData (encData 1) snode dnode payload)
  if mac.take 8 ≠ encData.slice (len - 8) 8 then (s, none)
  else
    (s.log (.authenticated e.issue snode dnode e.nonce)).reassemble j
      (aesOfb env.aes s.keys.enckey iv payload) (encData (len - 9))

def sec0DecryptMessage (env : S0Env) (s : Security0) (snode dnode : UInt8) (encData : Mem)
    (len : Nat) : Security0 × Option Bytes :=
  if len < 19 then (s, none)
  else
    match getNonce s.nonceTable dnode snode (some (encData (len - 9))) with
    | none => (s, none)
    | some e =>
      let s := { s with nonceTable := nonceClear s.nonceTable dnode snode }
      match s.rxSessionFor snode dnode with
      | none => (s, none)
      | some (j, s) => authenticate env s snode dnode encData len e j

def sec0SendNonce (env : S0Env) (s : Security0) (src : TsParam) (draws : List Nonce) : Option Security0 :=
  let dnode := src.dnode.toUInt8
  let snode := src.snode.toUInt8
  match drawNonce s.nonceTable dnode snode draws with
  | none => none
  | some nonce =>
    let ok := env.sendData s.nTx
    let s := ({ s with nTx := s.nTx + 1 }).log (.nonceReport src nonce ok)
    some (if ok then s.registerNonce .handedOut dnode snode nonce else s)

end Security0

/-- What can happen to the module; `draws` are the outputs of the random generator. -/
inductive S0Event where
  | sendData (p : TsParam) (data : Mem) (len : Nat)
  | abortAll
  | timeout (i : Fin 2)
  | nonceGet (src : TsParam) (draws : List Nonce)
  | nonceReport (src dst : UInt8) (nonce : Nonce) (draws : List Nonce)
  | encapsulated (snode dnode : UInt8) (encData : Mem) (len : Nat)
  | transmitDone (n : Nat) (status : UInt8)
  | nonceTimer
  | setKey (netkey : Bytes)
  | secureLearn (active : Bool)
  | time (ms : Nat)

namespace Security0

def step (env : S0Env) (s : Security0) : S0Event → Security0
  | .sendData p data len => sec0SendData env s p data len
  | .abortAll => s.sec0AbortAllTxSessions
  | .timeout i => s.txTimeout i
  | .nonceGet src draws => (sec0SendNonce env s src draws).getD s
  | .nonceReport src dst nonce draws => (sec0RegisterNonce env s src dst nonce draws).getD s
  | .encapsulated snode dnode encData len =>
    (sec0DecryptMessage env s snode dnode encData (len % 256)).1
  | .transmitDone n status => s.transmitDone n status
  | .nonceTimer => { s with nonceTable := nonceTimerTimeout s.nonceTable }
  | .setKey netkey => { s with keys := sec0SetKey env.aes netkey }
  | .secureLearn active => { s with secureLearnActive := active }
  | .time ms => { s with clock := s.clock + ms }

def run (env : S0Env) (s : Security0) (events : List S0Event) : Security0 :=
  Machine.run (step env) s events

end Security0

end ZipGateway

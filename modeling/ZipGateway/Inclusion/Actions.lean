import ZipGateway.Inclusion.Context

/-!
# The actions of the inclusion machine

Each action of the table under the name of its function, less the calls that set and stop the timer.
`fire` stands for whoever calls the machine from within an action: the event handler, and S2 when it
reports the failure of a frame before `S2_send_data` has returned. `post` stands for `process_event`,
which some actions call again; `processEvent` ties that knot.
-/

namespace ZipGateway.Inclusion.Ctx

section Sending

variable (env : Env) (fire : List Call → Ctx → Ctx)

def evtHandler (s : Ctx) (up : Up) : Ctx :=
  fire (env.react s.nEvent up) ({ s with nEvent := s.nEvent + 1 }.note (.event up))

def s2SendData (s : Ctx) : Bool × Ctx :=
  let result := env.sendData s.nData
  let s := { s with nData := s.nData + 1 }.note (.sentData s.peer s.prepared result)
  match result with
  | .accepted => (true, s)
  | .refused => (false, s)
  | .failed => (true, fire [.sendDone false] s)

def inclusionSendData (s : Ctx) : Ctx :=
  match s.s2SendData env fire with
  | (true, s) => s.withRetries (s.retryCounter - 1)
  | (false, s) => s.withRetries queueFull

def inclusionSendFrame (s : Ctx) : Ctx :=
  let ok := env.sendFrame s.nFrame
  let s := { s with nFrame := s.nFrame + 1 }.note (.sentFrame s.peer s.prepared ok)
  if ok then s.withRetries (s.retryCounter - 1) else s.withRetries queueFull

def inclusionFailedFrameSend (s : Ctx) (error secure : UInt8) : Ctx :=
  let s := (s.withFailCode error).prepare [commandClassSecurity2, kexFail, error]
  let s := s.withRetries maxRetryCount
  if secure = tempKeySlot then
    (s.encryptFor tempKeySlot 0).inclusionSendData env fire
  else
    s.inclusionSendFrame env

def inclusionFailedEvtPush (s : Ctx) (failType : UInt8) : Ctx :=
  s.restoreKeys.evtHandler env fire (.inclusionFailed s.peer failType)

def remoteInclusionFailedEvtPush (s : Ctx) : Ctx :=
  s.inclusionFailedEvtPush env fire (s.buf 2)

end Sending

section Joining

variable (env : Env) (fire : List Call → Ctx → Ctx) (post : Ctx → Event → Ctx)

def validateEchoKexReport (s : Ctx) : Bool × Ctx :=
  if s.schemes = s.buf 3 ∧ s.curves = s.buf 4 ∧ s.keys = s.buf 5 ∧ s.csaSupport ||| echoOn = s.buf 2 then
    (true, s)
  else
    (false, s.inclusionFailedFrameSend env fire kexFailAuth nonSecure)

def joiningStart (s : Ctx) : Ctx :=
  s.withPeer { s.peer with txOptions := 0 }

def sendKexReport (s : Ctx) : Ctx :=
  let s := s.keystoreClear.evtHandler env fire (.initiated s.peer)
  let s := s.withCsaSupport (if s.mode = Mode.csa then csaOn else 0)
  let s := s.prepare [commandClassSecurity2, kexReport, s.csaSupport, s.schemes, s.curves, s.keys]
  (s.withRetries maxRetryCount).inclusionSendFrame env

/-- The error path of `s2_send_pub_key_b` and `s2_send_net_key_verify`. -/
def failJoining (s : Ctx) (error : UInt8) : Ctx :=
  post (s.inclusionFailedFrameSend env fire error nonSecure) .errorWasSent

def hiddenPublicKey (hidden : Bool) (n : Nat) : Bytes :=
  if hidden then List.replicate n 0 ++ env.publicKey.drop n else env.publicKey

def answerKexSet (s : Ctx) : Ctx :=
  let s := if s.buf 2 &&& csaOn ≠ 0 then s else s.withMode .ssa
  let s := { s.withExchange 0x01 with kexSetByte2 := s.buf 2 }
  let hidden : Bool := s.mode = .ssa ∧ s.keyGranted &&& ~~~(keyClassS0 ||| keyClassUnauthenticated) ≠ 0
  let s := s.prepare ([commandClassSecurity2, publicKeyReport, joiningNode] ++ hiddenPublicKey env hidden 2)
  (s.withRetries maxRetryCount).inclusionSendFrame env

def sendPubKeyB (s : Ctx) : Ctx :=
  let scheme := s.buf 3
  let curve := s.buf 4
  if scheme &&& (scheme - 1) = 0 ∧ scheme &&& s.schemes ≠ 0 then
    let s := s.withScheme scheme
    if curve &&& (curve - 1) = 0 ∧ curve &&& s.curves ≠ 0 then
      let s := s.withCurve curve
      if ~~~s.keys &&& s.buf 5 = 0 then
        let s := s.withGranted (s.buf 5)
        if s.buf 2 &&& csaOn ≠ 0 ∧ s.mode ≠ .csa then
          s.failJoining env fire post kexFailKexKey
        else
          s.answerKexSet env
      else
        s.failJoining env fire post kexFailKexKey
    else
      s.failJoining env fire post kexFailKexCurves
  else
    s.failJoining env fire post kexFailKexScheme

def sendEchoKexSet (s : Ctx) : Ctx :=
  let s := s.withRetries (s.retryCounter - 1)
  let s := s.prepare [commandClassSecurity2, kexSet, s.kexSetByte2 ||| echoOn, s.schemeSupport, s.curveSupport,
      s.keyGranted]
  ((s.encryptFor tempKeySlot txoptionVerifyDelivery).s2SendData env fire).2

def pubKeyARecv (s : Ctx) : Ctx :=
  let key := s.buf.slice 3 publicKeySize
  let s := s.withPublicKey key
  let dskLength :=
    if s.keyGranted &&& (keyClassAuthenticated ||| keyClassAccess) ≠ 0 ∧ s.mode = .csa then
      dskCsaChallengeLength
    else
      0
  s.evtHandler env fire (.challenge s.peer key s.keyGranted dskLength)

/-- The loop of `s2_send_net_key_get`: the bit of `key_exchange` moves up to a granted key, and leaves the
byte after eight steps. -/
def nextGranted (granted : UInt8) : Nat → UInt8 → UInt8
  | 0, exchange => exchange
  | n + 1, exchange =>
    if exchange &&& granted = 0 then nextGranted granted n (exchange <<< 1) else exchange

def transferEndRefused (s : Ctx) : Bool :=
  s.buf 1 = transferEnd ∧ s.buf 2 &&& (keyReqComplete ||| keyVerified) ≠ keyVerified

/-- `s2_send_net_key_get`, once the frame that caused it was checked. -/
def requestNetKey (s : Ctx) : Ctx :=
  if s.keyGranted = 0 then
    post s .noKeysGranted
  else
    let s := s.withExchange (nextGranted s.keyGranted 8 s.keyExchange)
    let s := s.prepare [commandClassSecurity2, networkKeyGet, s.keyExchange]
    let s := s.encryptFor tempKeySlot txoptionVerifyDelivery
    (s.withRetries maxRetryCount).inclusionSendData env fire

def sendNetKeyGet (s : Ctx) : Ctx :=
  if s.buf 1 = kexReport then
    match s.validateEchoKexReport env fire with
    | (true, s) => s.requestNetKey env fire post
    | (false, s) => post s .errorWasSent
  else if s.transferEndRefused then
    post s .error
  else
    s.requestNetKey env fire post

def sendNetKeyVerify (s : Ctx) : Ctx :=
  if s.buf 2 ≠ s.keyExchange then
    s.failJoining env fire post kexFailKeyReport
  else
    let key := s.buf.slice 3 networkKeySize
    let s := s.keystoreWrite (s.buf 2) key
    let s := s.withExchange (s.keyExchange <<< 1)
    let s := s.networkKeyUpdate networkKeySlot (.network key)
    let s := (s.prepare [commandClassSecurity2, networkKeyVerify]).encryptFor networkKeySlot 0
    (s.withRetries maxRetryCount).inclusionSendData env fire

def sendFinalTransferEnd (s : Ctx) : Ctx :=
  if s.transferEndRefused then
    post s .error
  else
    let s := s.prepare [commandClassSecurity2, transferEnd, keyReqComplete]
    let s := s.encryptFor tempKeySlot 0
    (s.withRetries maxRetryCount).inclusionSendData env fire

def joiningComplete (s : Ctx) : Ctx :=
  s.restoreKeys.evtHandler env fire (.joiningComplete s.peer s.keyGranted)

def joiningNeverStarted (s : Ctx) : Ctx :=
  s.restoreKeys.evtHandler env fire (.neverStarted s.peer s.keyGranted)

def extractTempKey (s : Ctx) (keys : Bytes) : Ctx :=
  let sharedSecret := env.scalarmult env.privateKey (s.publicKey.slice 0 publicKeySize)
  let s := s.withPublicKey (env.tempkeyExtract sharedSecret keys)
  s.networkKeyUpdate tempKeySlot (.temporary (s.publicKey.slice 0 networkKeySize))

def doEcdhCalcB (s : Ctx) : Ctx :=
  let s := s.extractTempKey env (s.publicKey.slice 0 publicKeySize ++ env.publicKey)
  (s.withRetries echoKexSetRetries).sendEchoKexSet env fire

end Joining

section Including

variable (env : Env) (fire : List Call → Ctx → Ctx) (post : Ctx → Event → Ctx)

def doEcdhCalcA (s : Ctx) : Ctx :=
  s.extractTempKey env (env.publicKey ++ s.publicKey.slice 0 publicKeySize)

def validateReportedSchemes (s : Ctx) : Bool × Ctx :=
  let s := s.withScheme (s.buf 3 &&& schemeSupportMask)
  if s.schemeSupport &&& scheme1Support ≠ 0 then
    (true, s)
  else
    (false, s.inclusionFailedFrameSend env fire kexFailKexScheme nonSecure)

def validateReportedCurves (s : Ctx) : Bool × Ctx :=
  let s := s.withCurve (s.buf 4 &&& curveMask)
  if s.curveSupport &&& curve25519 ≠ 0 then
    (true, s)
  else
    (false, s.inclusionFailedFrameSend env fire kexFailKexCurves nonSecure)

def takeReportedKeys (s : Ctx) : Ctx :=
  let exchange :=
    if isLrNode s.peer.rNode then
      s.buf 5 &&& ~~~(keyClassUnauthenticated ||| keyClassS0)
    else
      s.buf 5
  ({ s with kexReportKeys := s.buf 5 }.withExchange exchange).withGranted (exchange &&& keyMask)

def validateReportedKeys (s : Ctx) : Bool × Ctx :=
  let s := s.takeReportedKeys
  if s.keyGranted ≠ 0 then
    (true, s)
  else
    (false, s.inclusionFailedFrameSend env fire kexFailKexKey nonSecure)

def validateRequestedKey (s : Ctx) : Bool × Ctx :=
  let reqKey := s.buf 2
  if reqKey &&& (reqKey - 1) = 0 ∧ reqKey &&& s.keyGranted ≠ 0 then
    (true, s.withRequested reqKey)
  else
    let s := s.withRequested 0
    (false, s.inclusionFailedFrameSend env fire kexFailKeyGet nonSecure)

/-- `validate_echo_kex_set`. Its conditional binds less tightly than the comparison of the modes before it, so
it yields `INCLUSION_MODE_CSA`, which is 0, when the mode as a number is the truth value of the CSA bit, and 1
otherwise. -/
def validateEchoKexSet (s : Ctx) : Bool × Ctx :=
  let csaBit : Bool := s.buf 2 &&& csaOn = csaOn
  let modeIsBit : Bool := (s.mode = .csa ∧ ¬csaBit) ∨ (s.mode = .ssa ∧ csaBit)
  if s.schemeSupport = s.buf 3 ∧ s.curveSupport = s.buf 4 ∧ s.keyGranted = s.buf 5 ∧ ¬modeIsBit then
    (true, s)
  else
    (false, s.inclusionFailedFrameSend env fire kexFailAuth nonSecure)

def sendKexGet (s : Ctx) : Ctx :=
  let s := s.prepare [commandClassSecurity2, kexGet]
  (s.withRetries maxRetryCount).inclusionSendFrame env

def kexRepRecv (s : Ctx) : Ctx :=
  match s.validateReportedSchemes env fire with
  | (false, s) => post s .errorWasSent
  | (true, s) =>
    match s.validateReportedCurves env fire with
    | (false, s) => post s .errorWasSent
    | (true, s) =>
      match s.validateReportedKeys env fire with
      | (false, s) => post s .errorWasSent
      | (true, s) =>
        let s := s.withCsaSupport (s.buf 2)
        s.evtHandler env fire (.kexReport s.peer s.keyGranted (s.buf 2 &&& 2 ≠ 0))

def sendKexSet (s : Ctx) : Ctx :=
  let s := s.prepare [commandClassSecurity2, kexSet, if s.mode = .csa then csaOn else 0, scheme1Support, curve25519,
      s.keyGranted]
  (s.withRetries maxRetryCount).inclusionSendFrame env

def sendTransferEnd (s : Ctx) : Ctx :=
  let s := s.networkKeyUpdate tempKeySlot (.temporary (s.publicKey.slice 0 networkKeySize))
  let s := s.prepare [commandClassSecurity2, transferEnd, keyVerified]
  let s := s.encryptFor tempKeySlot 0
  (s.withRetries maxRetryCount).inclusionSendData env fire

def sendPubKeyA (s : Ctx) : Ctx :=
  let key := s.buf.slice 3 publicKeySize
  let dskLength :=
    if s.keyGranted &&& (keyClassAuthenticated ||| keyClassAccess) ≠ 0 ∧ s.mode = .ssa then
      dskSsaChallengeLength
    else
      0
  let s := s.withPublicKey key
  let s := s.evtHandler env fire (.challenge s.peer key s.keyGranted dskLength)
  let hidden : Bool := s.mode = .csa ∧ s.keyGranted &&& ~~~(keyClassS0 ||| keyClassUnauthenticated) ≠ 0
  let s := s.prepare ([commandClassSecurity2, publicKeyReport, includingNode] ++ hiddenPublicKey env hidden 4)
  (s.withRetries maxRetryCount).inclusionSendFrame env

def sendEchoKexReport (s : Ctx) : Ctx :=
  match s.validateEchoKexSet env fire with
  | (false, s) => post s .errorWasSent
  | (true, s) =>
    let s := s.prepare [commandClassSecurity2, kexReport, s.csaSupport ||| echoOn, s.schemeSupport, s.curveSupport,
        s.kexReportKeys]
    let s := s.withExchange 0x00
    let s := s.encryptFor tempKeySlot txoptionVerifyDelivery
    (s.withRetries maxRetryCount).inclusionSendData env fire

def translateKeyslotToReadForLr (requested : UInt8) (peer : NodeId) : UInt8 :=
  if isLrNode peer then
    if requested = keyClassAuthenticated then keyClassAuthenticatedLr
    else if requested = keyClassAccess then keyClassAccessLr
    else requested
  else
    requested

/-- The network key report, as far as the key store has the key: without it the bytes of an earlier
frame stay where the key would be. -/
def prepareNetKeyReport (s : Ctx) (key : UInt8) : Ctx :=
  let s := s.prepare [commandClassSecurity2, networkKeyReport, key]
  let s := { s with inclusionBufLength := 3 + networkKeySize }
  match s.keystore (translateKeyslotToReadForLr key s.peer.rNode) with
  | some bytes => { s with inclusionBuf := s.inclusionBuf.write 3 bytes }
  | none => s

def reportRequestedKey (s : Ctx) : Ctx :=
  let s := s.withExchange (s.keyExchange ||| s.buf 2)
  ((s.prepareNetKeyReport (s.buf 2)).encryptFor tempKeySlot 0).withRetries maxRetryCount

def loadReportedS0Key (s : Ctx) : Ctx :=
  if s.inclusionBuf 2 = keyClassS0 then
    s.networkKeyUpdate networkKeySlot (.network (s.inclusionBuf.slice 3 networkKeySize))
  else
    s

def sendNetKeyReport (s : Ctx) : Ctx :=
  match s.validateRequestedKey env fire with
  | (false, s) => post s .errorWasSent
  | (true, s) => (s.reportRequestedKey.inclusionSendData env fire).loadReportedS0Key

def inclusionComplete (s : Ctx) : Ctx :=
  if s.buf 1 = transferEnd ∧ s.buf 2 &&& (keyReqComplete ||| keyVerified) = keyReqComplete then
    s.restoreKeys.evtHandler env fire (.inclusionComplete s.peer s.keyExchange)
  else
    (s.inclusionFailedFrameSend env fire kexFailKeyVerify nonSecure).inclusionFailedEvtPush env fire kexFailKeyVerify

def checkNoKeys (s : Ctx) : Ctx :=
  if s.keyGranted ≠ 0 then
    s.inclusionFailedEvtPush env fire s.kexFailCode
  else
    s.inclusionComplete env fire

def perform (s : Ctx) : Action → Ctx
  | .none => s
  | .abort => s.inclusionFailedEvtPush env fire s.kexFailCode
  | .remoteError => s.remoteInclusionFailedEvtPush env fire
  | .resendFrame => s.inclusionSendFrame env
  | .resendData => s.inclusionSendData env fire
  | .sendKexGet => s.sendKexGet env
  | .kexRepRecv => s.kexRepRecv env fire post
  | .sendKexSet => s.sendKexSet env
  | .sendPubKeyA => s.sendPubKeyA env fire
  | .doEcdhCalcA => s.doEcdhCalcA env
  | .sendEchoKexReport => s.sendEchoKexReport env fire post
  | .sendErrorCancel => s.inclusionFailedFrameSend env fire kexFailCancel nonSecure
  | .sendErrorDecrypt => s.inclusionFailedFrameSend env fire kexFailDecrypt nonSecure
  | .sendNetKeyReport => s.sendNetKeyReport env fire post
  | .sendTransferEnd => s.sendTransferEnd env fire
  | .inclusionComplete => s.inclusionComplete env fire
  | .checkNoKeys => s.checkNoKeys env fire
  | .joiningStart => s.joiningStart
  | .timeoutTb1Set => s
  | .sendKexReport => s.sendKexReport env fire
  | .sendPubKeyB => s.sendPubKeyB env fire post
  | .pubKeyARecv => s.pubKeyARecv env fire
  | .doEcdhCalcB => s.doEcdhCalcB env fire
  | .sendEchoKexSet => s.sendEchoKexSet env fire
  | .sendNetKeyGet => s.sendNetKeyGet env fire post
  | .sendNetKeyVerify => s.sendNetKeyVerify env fire post
  | .sendFinalTransferEnd => s.sendFinalTransferEnd env fire post
  | .joiningComplete => s.joiningComplete env fire
  | .joiningNeverStarted => s.joiningNeverStarted env fire

end Including

def enter (s : Ctx) (newState : Option State) : Ctx :=
  s.withState (newState.getD s.state)

def process (env : Env) (fire : List Call → Ctx → Ctx) : Nat → Ctx → Event → Ctx
  | 0, s, _ => s
  | n + 1, s, event =>
    let row := findTransition s.state event
    (s.enter row.newState).perform env fire (process env fire n) row.action

def processEvent (env : Env) (fire : List Call → Ctx → Ctx) (s : Ctx) (event : Event) : Ctx :=
  s.process env fire 3 event

end ZipGateway.Inclusion.Ctx

import ZipGateway.S2.Encrypt

/-!
# The send machine

`S2_fsm_post_event`, one definition for each event, with the states as its rows. The callbacks into
the application and the inclusion machine are the parameter `callback`: they may call the machine
again before they return. The events `GOT_NONCE_GET` and `ABORT` are posted nowhere, and
`GOT_BAD_ENC_MSG` has no row in any state.
-/

namespace ZipGateway.S2

variable (env : Env) (callback : S2 → S2)

def postSendDoneEvent (s : S2) (status : TxStatus) (origin : Origin) : S2 :=
  let n := s.nAccepted
  let s := callback (s.log (.inclusionSendDone (status == .ok || status == .verified)))
  callback (s.log (.sendDoneEvent n status origin))

def complete (s : S2) (status : TxStatus) (origin : Origin) : S2 :=
  { s with fsm := .idle }.postSendDoneEvent callback status origin

def sendDone (s : S2) (status : TxStatus) (time : Nat) (origin : Origin) : S2 :=
  match s.fsm with
  | .idle | .isMosWaitReply => callback (s.log (.inclusionSendDone (status == .ok)))
  | .waitNonceRaport | .verifyingDelivery =>
    if status = .ok then s.log (.setTimeout time) else s.complete callback status origin
  | .sendingMsg => s.complete callback status origin
  | .sendingMulticast => s

def sendFrame (s : S2) (owner : FrameOwner) (out : Bool → Out) : Bool × S2 :=
  let ok := env.sendFrame s.nFrame
  (ok, { s with
    nFrame := s.nFrame + 1
    inFlight := if ok then s.inFlight ++ [owner] else s.inFlight
    out := out ok :: s.out })

def sendRaw (s : S2) (frame : Bytes) : S2 :=
  let ok := (s.sendFrame env (.send s.nAccepted) (.sendFrame s.peer frame)).1
  let s := (s.sendFrame env (.send s.nAccepted) (.sendFrame s.peer frame)).2
  if ok then
    let i := (s.findSpanByNode env s.peer).1
    let s := (s.findSpanByNode env s.peer).2
    s.setSpan i { s.spanTable i with txSeq := (s.spanTable i).txSeq + 1 }
  else
    s.sendDone callback .fail 0 .refused

def sendNonceGet (s : S2) : S2 :=
  let i := (s.findSpanByNode env s.peer).1
  let s := (s.findSpanByNode env s.peer).2
  s.sendRaw env callback [commandClassSecurity2, security2NonceGet, (s.spanTable i).txSeq]

def encryptAndSend (s : S2) : S2 :=
  (s.encrypt env).2.sendRaw env callback (s.encrypt env).1

def encryptAndSendMulti (s : S2) (m : MpanRef) : S2 :=
  let frame := (s.encryptMulti env m).1
  let s := (s.encryptMulti env m).2
  let ok := (s.sendFrame env (.send s.nAccepted) (.sendFrameMulti s.peer frame)).1
  let s := (s.sendFrame env (.send s.nAccepted) (.sendFrameMulti s.peer frame)).2
  if ok then s else s.sendDone callback .fail 0 .refused

def sendMsgStateEnter (s : S2) : S2 :=
  let s :=
    if s.peer.txOptions &&& txoptionVerifyDelivery ≠ 0 then
      { s with fsm := .verifyingDelivery }.log (.setTimeout sendDataTimeout)
    else
      { s with fsm := .sendingMsg }
  let s := s.encryptAndSend env callback
  { s with retry := s.retry - 1 }

def sendMsg (s : S2) (con : Connection) (buf : Bytes) : S2 :=
  match s.fsm with
  | .idle | .isMosWaitReply =>
    let ok := (s.spanOk env con).1
    let s := (s.spanOk env con).2
    if ok then
      { s.setPeer con buf with retry := 2 }.sendMsgStateEnter env callback
    else
      let s := { s.setPeer con buf with fsm := .waitNonceRaport, retry := 2 }
      (s.sendNonceGet env callback).log (.setTimeout sendDataTimeout)
  | _ => s

def sendMulticast (s : S2) (con : Connection) (buf : Bytes) : S2 :=
  match s.fsm with
  | .idle | .isMosWaitReply =>
    let s := s.setPeer con buf
    let mpan := (s.findMpanByGroupId env 0 con.rNode.toUInt8 true).1
    let s := (s.findMpanByGroupId env 0 con.rNode.toUInt8 true).2
    let s := { s with mpan := mpan, fsm := .sendingMsg }
    match mpan with
    | some m => s.encryptAndSendMulti env callback m
    | none => s
  | _ => s

def emitSynchronizationEvent (s : S2) (con : Connection) (buf : Mem) : S2 :=
  callback (s.log (.resynchronizationEvent con.rNode (buf 2) con.lNode))

def dropPayload (s : S2) (flags : UInt8) : S2 :=
  if flags = nonceReportMos then { s with length := 0 } else s

def gotNonceRaport (s : S2) (con : Connection) (buf : Mem) (len : Nat) : S2 :=
  match s.fsm with
  | .idle | .isMosWaitReply =>
    let s := s.setPeer con (buf.slice 0 len)
    (s.registerNonce env buf len).2.emitSynchronizationEvent callback con buf
  | .waitNonceRaport =>
    if s.isPeernode con then
      let flags := (s.registerNonce env buf len).1
      let s := (s.registerNonce env buf len).2
      if flags &&& nonceReportSos ≠ 0 then s.sendMsgStateEnter env callback else s
    else
      s.emitSynchronizationEvent callback con buf
  | .sendingMsg =>
    if s.isPeernode con then s else s.emitSynchronizationEvent callback con buf
  | .verifyingDelivery =>
    if s.isPeernode con then
      let flags := (s.registerNonce env buf len).1
      let s := (s.registerNonce env buf len).2
      if flags = 0 then
        s
      else
        let s := s.dropPayload flags
        if s.retry = 0 then s.complete callback .fail .nonceReport
        else s.sendMsgStateEnter env callback
    else
      s.emitSynchronizationEvent callback con buf
  | .sendingMulticast => s

def gotEncMsg (s : S2) (con : Connection) : S2 :=
  match s.fsm with
  | .verifyingDelivery =>
    if s.isPeernode con then
      if s.isNodeMos con.rNode ∧ s.retry > 0 then
        let peer := { s.peer with txOptions := s.peer.txOptions &&& ~~~txoptionVerifyDelivery }
        { s with length := 0, peer := peer }.sendMsgStateEnter env callback
      else
        { s.log .stopTimeout with fsm := .idle }.postSendDoneEvent callback .verified .reply
    else
      s
  | _ => s

def gotEncMsgMos (s : S2) (con : Connection) : S2 :=
  match s.fsm with
  | .idle | .isMosWaitReply =>
    { (s.log (.setTimeout 10)).setPeer con [] with fsm := .isMosWaitReply }
  | _ => s

def timeout (s : S2) : S2 :=
  match s.fsm with
  | .isMosWaitReply =>
    { s with mpan := none, fsm := .idle }.sendNonceReport env s.peer nonceReportMos
  | .waitNonceRaport => s.complete callback .fail .timeout
  | .verifyingDelivery => s.complete callback .ok .timeout
  | _ => s

end ZipGateway.S2

import ZipGateway.Nodemask
import ZipGateway.S2.Decrypt

/-!
# The entry points and the machine

`S2_send_data` and its siblings, `S2_application_command_handler`, and the step function of the
whole: an event is a call from above, the completion of a frame by the layer below, the expiry of
the timer, or a received frame.
-/

namespace ZipGateway.S2

section EntryPoints

variable (env : Env) (callback : S2 → S2)

def convertNormalToLrKeyclass (con : Connection) : Connection :=
  if con.classId = 2 then { con with classId := 4 }
  else if con.classId = 1 then { con with classId := 3 }
  else con

def convertLrToNormalKeyclass (con : Connection) : Connection :=
  if con.classId = 4 then { con with classId := 2 }
  else if con.classId = 3 then { con with classId := 1 }
  else con

def isSendDataBusy (s : S2) : Bool :=
  s.fsm != .idle && s.fsm != .isMosWaitReply

inductive Cast where
  | sendMsg
  | sendMulticast
  | sendFollowUp
deriving DecidableEq, Repr

def sendDataAllCast (s : S2) (con : Connection) (buf : Bytes) (cast : Cast) : S2 :=
  if buf.length = 0 ∨ buf.length > 1280 ∨ s.isSendDataBusy then
    s
  else
    let s := s.log (.accepted s.inFlight)
    match cast with
    | .sendMulticast => s.sendMulticast env callback con buf
    | .sendMsg => s.sendMsg env callback con buf
    | .sendFollowUp =>
      match (s.findMpanByGroupId env 0 con.mgrpGroupId false).1 with
      | some m => { s with mpan := some m }.sendMsg env callback con buf
      | none => s.sendMsg env callback con buf

def sendData (s : S2) (con : Connection) (buf : Bytes) : S2 :=
  let con := if isLrNode con.rNode then convertNormalToLrKeyclass con else con
  s.sendDataAllCast env callback con buf .sendMsg

def sendDataWithKeyset (s : S2) (con : Connection) (longRange : Bool) (buf : Bytes) (cast : Cast) :
    S2 :=
  let con := if longRange then convertNormalToLrKeyclass con else con
  s.sendDataAllCast env callback con buf cast

def networkKeyUpdate (s : S2) (classId : UInt8) (group : SecGroup) : S2 :=
  if classId.toNat ≥ nSecClass then
    s
  else
    { s with
      sg := Function.update s.sg classId group
      loadedKeys := s.loadedKeys ||| 1 <<< classId }

def securityCommand (s : S2) (src : Connection) (plainText : Mem) (len : Nat) : S2 :=
  if src.isMulticast then
    s
  else if plainText 1 = security2CommandsSupportedGet then
    let classes := env.commandsSupported src.lNode src.classId
    if classes.length + 2 > 40 then s
    else
      s.sendData env callback src ([commandClassSecurity2, security2CommandsSupportedReport] ++ classes)
  else
    let cmd := plainText.slice 0 len
    callback ({ s with buf := .ofBytes cmd, length := len }.log (.inclusionPostEvent src cmd))

def deliver (s : S2) (src : Connection) (plainText : Mem) (len : Nat) : S2 :=
  if len = 0 then
    s
  else if plainText 0 = commandClassSecurity2 ∧ plainText 1 ≠ security2CommandsSupportedReport then
    s.securityCommand env callback src plainText len
  else
    let src := if isLrNode src.rNode then convertLrToNormalKeyclass src else src
    callback (s.log (.msgReceivedEvent src (plainText.slice 0 len)))

def messageEncapsulation (s : S2) (src : Connection) (buf : Mem) (len : Nat) : S2 :=
  let d := s.decryptMsg env src buf len
  match d.rc with
  | .authOk =>
    (d.s.gotEncMsg env callback d.con).deliver env callback d.con d.plainText d.plainTextLen
  | .authFail => callback (d.s.log (.inclusionDecryptionFailure d.con))
  | .parseFail | .sequenceFail => d.s

def nonceGet (s : S2) (src : Connection) (buf : Mem) (len : Nat) : S2 :=
  if ¬src.isMulticast ∧ len ≥ 3 then
    let ok := (s.verifySeq env src (buf 2)).1
    let s := (s.verifySeq env src (buf 2)).2
    if ok then s.sendNonceReport env src nonceReportSos else s
  else
    s

/-- A command in clear. While a message is sent only `KEX_FAIL` is let through, and takes the place of the
payload. -/
def plainCommand (s : S2) (src : Connection) (buf : Mem) (len : Nat) : S2 :=
  if s.fsm ≠ .idle ∧ buf 1 ≠ kexFail then
    s
  else if src.isMulticast then
    s
  else
    let cmd := buf.slice 0 len
    let src := { src with classId := unencryptedClass }
    callback ({ s with buf := .ofBytes cmd, length := len }.log (.inclusionPostEvent src cmd))

def applicationCommandHandler (s : S2) (src : Connection) (buf : Mem) (len : Nat) : S2 :=
  if buf 0 ≠ commandClassSecurity2 then
    s
  else if buf 1 = security2NonceGet then
    s.nonceGet env src buf len
  else if buf 1 = security2NonceReport then
    s.gotNonceRaport env callback src buf len
  else if buf 1 = security2MessageEncapsulation then
    s.messageEncapsulation env callback src buf len
  else
    s.plainCommand callback src buf len

def call (s : S2) : Call → S2
  | .sendData con buf => s.sendData env callback con buf
  | .sendDataMulticast con buf => s.sendDataAllCast env callback con buf .sendMulticast
  | .sendDataWithKeyset con longRange buf =>
    s.sendDataWithKeyset env callback con longRange buf .sendMsg
  | .sendDataMulticastWithKeyset con longRange buf =>
    s.sendDataWithKeyset env callback con longRange buf .sendMulticast
  | .sendDataFollowUpWithKeyset con longRange buf =>
    s.sendDataWithKeyset env callback con longRange buf .sendFollowUp
  | .inclusionSendFrame con frame => (s.sendFrame env .inclusion (.inclusionSendFrame s.fsm con frame)).2
  | .networkKeyUpdate classId group => s.networkKeyUpdate classId group
  | .clearLoadedKeys => { s with loadedKeys := 0 }
  | .freeMpan ownerId groupId => s.freeMpan ownerId groupId

end EntryPoints

inductive Event where
  | call (c : Call)
  | sendFrameDone (status : TxStatus) (time : Nat)
  | timeout
  | receive (con : Connection) (buf : Mem) (len : Nat)

variable (env : Env)

def nextCalls (s : S2) : List Call × S2 :=
  (env.react s.nCallback, { s with nCallback := s.nCallback + 1 })

def callback (depth : Nat) : S2 → S2 :=
  Machine.reenter (nextCalls env) (call env) depth

def sendFrameDoneNotify (callback : S2 → S2) (s : S2) (status : TxStatus) (time : Nat) : S2 :=
  { s with inFlight := s.inFlight.tail }.sendDone callback status time (.frameDone s.inFlight.head?)

/-- The context when the gateway is up: after `S2_init_ctx`, with the keys of the key store and the
span table of an earlier session. -/
def start (home : UInt32) (sg : UInt8 → SecGroup) (loadedKeys : UInt8) (spanTable : SpanRef → Span) : S2 :=
  { init home with sg := sg, loadedKeys := loadedKeys, spanTable := spanTable }

def step (depth : Nat) (s : S2) : Event → S2
  | .call c => s.call env (callback env depth) c
  | .sendFrameDone status time => s.sendFrameDoneNotify (callback env depth) status time
  | .timeout => s.timeout env (callback env depth)
  | .receive con buf len => s.applicationCommandHandler env (callback env depth) con buf len

end ZipGateway.S2

import ZipGateway.Inclusion.Actions

/-!
# The entry points and the inclusion machine

Every function another module calls, among them `s2_inclusion_post_event` with the rules a frame has
to meet before it becomes an event.
-/

namespace ZipGateway.Inclusion

/-- The memory that holds the rule of a command; the check in front of it lets one row too many
pass. -/
def frameRule (env : Env) (index : Nat) : FrameRule :=
  frameRules.getD index env.ruleBeyond

/-- Whether `NETWORK_KEY_SECURE` frames may have been decrypted with this slot: that of the key
requested last, or of a key exchanged before. -/
def verifyClassAccepted (keyRequested keyExchange classId : UInt8) : Bool :=
  match keySlotKeyClasses[classId.toNat]? with
  | some keyClass => keyRequested = keyClass ∨ keyExchange &&& keyClass ≠ 0
  | none => false

def modeOfCsa (csa : UInt8) : Mode :=
  if csa ≠ 0 then .csa else .ssa

namespace Ctx

section EntryPoints

variable (env : Env) (fire : List Call → Ctx → Ctx)

def cryptRule (s : Ctx) (rule : FrameRule) : UInt8 :=
  if rule.support = echoSupport ∧ s.buf 2 &&& echoOn ≠ 0 then rule.ruleB else rule.ruleA

def encryptionAccepted (s : Ctx) (rule : FrameRule) : Bool :=
  if s.cryptRule rule = networkKeySlot then
    verifyClassAccepted s.keyRequested s.keyExchange s.peer.classId
  else
    s.cryptRule rule = s.peer.classId ∨ (rule.support = dualRuleSupport ∧ s.peer.classId = rule.ruleB)

def frameEvent (s : Ctx) : Event :=
  let command := s.buf 1
  if command = kexGet then .kexGetRecv
  else if command = kexReport then
    if s.buf 2 &&& echoOn ≠ 0 then .echoKexReportRecv else .kexReportRecv
  else if command = kexSet then
    if s.buf 2 &&& echoOn ≠ 0 then .echoKexSetRecv else .kexSetRecv
  else if command = kexFail then .errorRecv
  else if command = publicKeyReport then
    if s.buf 2 &&& includingNode ≠ 0 then .pubKeyRecvA else .pubKeyRecvB
  else if command = networkKeyGet then .netKeyGetRecv
  else if command = networkKeyReport then .netKeyReportRecv
  else if command = networkKeyVerify then
    if s.keyExchange = s.keyGranted then .netKeyVerifyFinalRecv else .netKeyVerifyRecv
  else if command = transferEnd then
    if (0 - s.keyExchange) &&& s.keyGranted ≠ 0 then .transferEndRecv else .sendFinalTransferEnd
  else .other

def postEventInternal (s : Ctx) : Ctx :=
  let index := s.buf 1 - kexGet
  if frameRules.length < index.toNat ∨ s.state = .idle then
    s
  else
    let rule := frameRule env index.toNat
    if rule.length.toNat > s.length then
      s.processEvent env fire .error
    else if s.encryptionAccepted rule then
      s.processEvent env fire s.frameEvent
    else
      (s.inclusionFailedFrameSend env fire kexFailAuth nonSecure).processEvent env fire .errorWasSent

def postPeerEvent (s : Ctx) (src : Connection) (frame : Bytes) : Ctx :=
  if s.peer.rNode = src.rNode then
    let s := s.note (.received s.state s.keyRequested s.keyExchange src frame)
    (s.withPeer { s.peer with classId := src.classId }).postEventInternal env fire
  else
    s

def postEvent (s : Ctx) (src : Connection) (frame : Bytes) : Ctx :=
  let s := { s with buf := Mem.ofBytes frame, length := frame.length }
  if src.rxOptions &&& rxoptionMulticast = rxoptionMulticast then
    s
  else if s.state = .awaitingKexGet then
    (s.withPeer src).postPeerEvent env fire src frame
  else
    s.postPeerEvent env fire src frame

def init (s : Ctx) (schemes curves keysToRequest : UInt8) : UInt8 × Ctx :=
  if schemes ≠ schemeSupportMask then
    (kexFailKexScheme, s)
  else if curves ≠ curve25519 then
    (kexFailKexCurves, s)
  else if ~~~keyMask &&& keysToRequest ≠ 0 ∨ keyMask &&& keysToRequest = 0 then
    (kexFailKexKey, s)
  else
    (0, { s with schemes := schemes, curves := curves, keys := keysToRequest })

def includingStart (s : Ctx) (conn : Connection) : Ctx :=
  if s.state = .idle then
    let s := (s.note .started).withPeer { conn with txOptions := 0 }
    ((s.withMode .ssa).withFailCode 0).processEvent env fire .includingStart
  else
    s

/-- `s2_inclusion_joining_start`. -/
def joiningStartCall (s : Ctx) (conn : Connection) (csa : UInt8) : Ctx :=
  let s := if s.state = .idle then s.note .joined else s
  let s := (s.withPeer conn).withMode (modeOfCsa csa)
  let s := s.withFailCode 0
  let s :=
    if isLrNode conn.lNode then
      { s with keys := s.keys &&& ~~~(keyClassUnauthenticated ||| keyClassS0) }
    else
      s
  s.processEvent env fire .joiningStart

def keyGrant (s : Ctx) (accept keys csa : UInt8) : Ctx :=
  let s := s.note (.keyGrant s.state accept keys csa)
  if accept = acceptInclusion then
    let s := s.withMode (modeOfCsa csa)
    (s.withGranted keys).processEvent env fire .accept
  else
    s.processEvent env fire .reject

def challengeResponse (s : Ctx) (accept : UInt8) (response : Bytes) : Ctx :=
  let s := s.note (.challenge s.state accept)
  if accept = acceptInclusion then
    (s.withPublicKey response).processEvent env fire .accept
  else
    s.processEvent env fire .reject

def abort (s : Ctx) : Ctx :=
  (s.note (.aborted s.state)).processEvent env fire .reject

def notifyTimeout (s : Ctx) : Ctx :=
  if s.state = .echoKexSetSending ∧ ¬(s.retryCounter = 0 ∨ s.retryCounter = queueFull) then
    s.processEvent env fire .retry
  else
    s.processEvent env fire .timeout

def sendDone (s : Ctx) (status : Bool) : Ctx :=
  if s.retryCounter = queueFull then
    (s.withRetries maxRetryCount).processEvent env fire .retry
  else if s.retryCounter > 0 ∧ s.state ≠ .echoKexSetSending then
    s.processEvent env fire (if status then .sendDone else .retry)
  else
    s.processEvent env fire (if status then .sendDone else .sendFailed)

def decryptionFailure (s : Ctx) (src : Connection) : Ctx :=
  if src.rNode = s.peer.rNode then s.processEvent env fire .decryptFailed else s

def commandsSupportedGet (s : Ctx) (classes : Bytes) : Ctx :=
  { s with
    inclusionBuf := s.inclusionBuf.write 0 ([commandClassSecurity2, security2CommandsSupportedReport] ++ classes) }

def call (s : Ctx) : Call → Ctx
  | .init schemes curves keys => (s.init schemes curves keys).2
  | .includingStart conn => s.includingStart env fire conn
  | .joiningStart conn csa => s.joiningStartCall env fire conn csa
  | .keyGrant accept keys csa => s.keyGrant env fire accept keys csa
  | .challengeResponse accept response => s.challengeResponse env fire accept response
  | .neighborDiscoveryComplete => s.processEvent env fire .discoveryComplete
  | .abort => s.abort env fire
  | .postEvent src frame => s.postEvent env fire src frame
  | .notifyTimeout => s.notifyTimeout env fire
  | .sendDone status => s.sendDone env fire status
  | .decryptionFailure src => s.decryptionFailure env fire src
  | .restoreKeys => s.restoreKeys
  | .commandsSupportedGet classes => s.commandsSupportedGet classes

end EntryPoints

/-- `S2_init_ctx`: a zeroed context, with the keys of the key store in their slots. -/
def start (keystore : UInt8 → Option Bytes) : Ctx :=
  restoreKeys
    { state := .idle, peer := S2.zeroConnection, mode := .csa, kexFailCode := 0, keyGranted := 0
      keyExchange := 0, keyRequested := 0, kexReportKeys := 0, schemeSupport := 0
      curveSupport := 0, csaSupport := 0, kexSetByte2 := 0, publicKey := fun _ => 0
      inclusionBuf := fun _ => 0, inclusionBufLength := 0, buf := fun _ => 0, length := 0
      retryCounter := 0, schemes := 0, curves := 0, keys := 0, slots := fun _ => none
      keystore := keystore, nEvent := 0, nData := 0, nFrame := 0, log := [] }

def fire (env : Env) (depth : Nat) : List Call → Ctx → Ctx :=
  Machine.reenterWith (fun nested s c => s.call env nested c) depth

def step (env : Env) (depth : Nat) (s : Ctx) (c : Call) : Ctx :=
  s.call env (fire env depth) c

def run (env : Env) (depth : Nat) (s : Ctx) (calls : List Call) : Ctx :=
  Machine.run (step env depth) s calls

end Ctx

def Env.passive : Env where
  publicKey := List.replicate publicKeySize 1
  privateKey := List.replicate publicKeySize 2
  scalarmult _ point := point
  tempkeyExtract _ keys := (keys ++ List.replicate networkKeySize 0).take networkKeySize
  length_publicKey := rfl
  length_tempkeyExtract _ keys := by simp
  react _ _ := []
  sendData _ := .accepted
  sendFrame _ := true
  ruleBeyond := ⟨0, 0, 0, 0⟩

end ZipGateway.Inclusion

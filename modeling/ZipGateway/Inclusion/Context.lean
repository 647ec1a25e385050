import ZipGateway.S2.Handler

/-!
# The S2 inclusion machine: its context and its transition table

The part of `struct S2` that `s2_inclusion.c` works on, its static variables, and the table that
drives it, as the gateway builds them (`ZW_CONTROLLER`). The machine is told of frames, of time-outs
and of the users' answers, and calls back into the application through `m_evt_handler`, which may
call the machine again before it returns. The timers are not in the context: a time-out may arrive at
any time. The context carries a log of what happened, newest first, that the machine never reads.
-/

namespace ZipGateway.Inclusion

def kexGet : UInt8 := 0x04
def kexReport : UInt8 := 0x05
def kexSet : UInt8 := 0x06
def publicKeyReport : UInt8 := 0x08
def networkKeyGet : UInt8 := 0x09
def networkKeyReport : UInt8 := 0x0A
def networkKeyVerify : UInt8 := 0x0B
def transferEnd : UInt8 := 0x0C

def kexFailKexKey : UInt8 := 0x01
def kexFailKexScheme : UInt8 := 0x02
def kexFailKexCurves : UInt8 := 0x03
def kexFailDecrypt : UInt8 := 0x05
def kexFailCancel : UInt8 := 0x06
def kexFailAuth : UInt8 := 0x07
def kexFailKeyGet : UInt8 := 0x08
def kexFailKeyVerify : UInt8 := 0x09
def kexFailKeyReport : UInt8 := 0x0A

def scheme1Support : UInt8 := 0x02
def schemeSupportMask : UInt8 := 0x02
def curve25519 : UInt8 := 0x01
def curveMask : UInt8 := 0x01
def keyMask : UInt8 := 0x87

def echoOn : UInt8 := 0x01
def csaOn : UInt8 := 0x02
def joiningNode : UInt8 := 0x00
def includingNode : UInt8 := 0x01
def keyReqComplete : UInt8 := 0x01
def keyVerified : UInt8 := 0x02

def keyClassUnauthenticated : UInt8 := 0x01
def keyClassAuthenticated : UInt8 := 0x02
def keyClassAccess : UInt8 := 0x04
def keyClassAuthenticatedLr : UInt8 := 0x08
def keyClassAccessLr : UInt8 := 0x10
def keyClassS0 : UInt8 := 0x80

/-- `TEMP_KEY_SECURE`, the slot of the temporary key. -/
def tempKeySlot : UInt8 := 5

/-- `NETWORK_KEY_SECURE`, the slot of the network key that is being exchanged. -/
def networkKeySlot : UInt8 := 6

def nonSecure : UInt8 := 0xFF

def acceptInclusion : UInt8 := 1
def queueFull : UInt8 := 0xFF
def maxRetryCount : UInt8 := 3

/-- `TBI1_TIMEOUT / TB5_TIMEOUT`. -/
def echoKexSetRetries : UInt8 := 24

def publicKeySize : Nat := 32
def networkKeySize : Nat := 16
def dskSsaChallengeLength : Nat := 2
def dskCsaChallengeLength : Nat := 4

/-- `s2_inclusion_state_t`. -/
inductive State where
  | idle
  | awaitingKexGet
  | awaitingKexReport
  | awaitingKeyUserAccept
  | awaitingKexSet
  | awaitingPubKeyA
  | awaitingPubKeyB
  | awaitingUserAccept
  | awaitingUserAAccept
  | pendingEchoKexReport
  | echoKexSetSending
  | awaitingEchoKexSet
  | awaitingEchoKexReport
  | awaitingNetKeyGet
  | awaitingNetKeyReport
  | awaitingNetKeyVerify
  | awaitingTransferEnd
  | keyExchanged
  | sendingFinalTransferEnd
  | errorSent
deriving DecidableEq, Repr

/-- `s2_inclusion_event_t`, with `other` for a command that no row of the table names. -/
inductive Event where
  | kexReportRecv
  | pubKeyRecvB
  | pubKeyRecvA
  | kexGetRecv
  | kexSetRecv
  | echoKexReportRecv
  | netKeyReportRecv
  | echoKexSetRecv
  | netKeyGetRecv
  | netKeyVerifyRecv
  | transferEndRecv
  | errorRecv
  | includingStart
  | joiningStart
  | accept
  | reject
  | decryptFailed
  | sendFinalTransferEnd
  | txQueued
  | netKeyVerifyFinalRecv
  | retry
  | timeout
  | error
  | errorWasSent
  | sendDone
  | sendFailed
  | discoveryComplete
  | noKeysGranted
  | other
deriving DecidableEq, Repr

/-- `s2_action_t`, less `S2_TIMEOUT_ACTION`, which no row uses. -/
inductive Action where
  | none
  | abort
  | resendFrame
  | resendData
  | sendKexGet
  | kexRepRecv
  | sendKexSet
  | sendPubKeyA
  | doEcdhCalcA
  | sendEchoKexReport
  | sendErrorCancel
  | sendErrorDecrypt
  | sendNetKeyReport
  | sendTransferEnd
  | inclusionComplete
  | checkNoKeys
  | joiningStart
  | timeoutTb1Set
  | sendKexReport
  | sendPubKeyB
  | pubKeyARecv
  | doEcdhCalcB
  | sendEchoKexSet
  | sendNetKeyGet
  | sendNetKeyVerify
  | sendFinalTransferEnd
  | joiningComplete
  | remoteError
  | joiningNeverStarted
deriving DecidableEq, Repr

structure Transition where
  state : Option State
  event : Option Event
  action : Action
  newState : Option State
deriving DecidableEq, Repr

def transitionTable : List Transition :=
  [⟨some .idle, some .includingStart, .sendKexGet, some .awaitingKexReport⟩,
   ⟨some .awaitingKexReport, some .kexReportRecv, .kexRepRecv, some .awaitingKeyUserAccept⟩,
   ⟨some .awaitingKexReport, some .retry, .resendFrame, none⟩,
   ⟨some .awaitingKeyUserAccept, some .accept, .sendKexSet, some .awaitingPubKeyB⟩,
   ⟨some .awaitingKeyUserAccept, some .reject, .sendErrorCancel, some .errorSent⟩,
   ⟨some .awaitingKeyUserAccept, some .kexReportRecv, .none, none⟩,
   ⟨some .awaitingPubKeyB, some .kexReportRecv, .none, none⟩,
   ⟨some .awaitingPubKeyB, some .retry, .resendFrame, none⟩,
   ⟨some .awaitingPubKeyB, some .pubKeyRecvB, .sendPubKeyA, some .awaitingUserAccept⟩,
   ⟨some .awaitingUserAccept, some .accept, .doEcdhCalcA, some .awaitingEchoKexSet⟩,
   ⟨some .awaitingUserAccept, some .reject, .sendErrorCancel, some .errorSent⟩,
   ⟨some .awaitingUserAccept, some .retry, .resendFrame, none⟩,
   ⟨some .awaitingUserAccept, some .kexReportRecv, .none, none⟩,
   ⟨some .awaitingUserAccept, some .pubKeyRecvB, .none, none⟩,
   ⟨some .awaitingEchoKexSet, some .echoKexSetRecv, .sendEchoKexReport, some .awaitingNetKeyGet⟩,
   ⟨some .awaitingEchoKexSet, some .retry, .resendFrame, none⟩,
   ⟨some .awaitingEchoKexSet, some .decryptFailed, .sendErrorDecrypt, some .errorSent⟩,
   ⟨some .awaitingEchoKexSet, some .kexReportRecv, .none, none⟩,
   ⟨some .awaitingEchoKexSet, some .pubKeyRecvB, .none, none⟩,
   ⟨some .awaitingNetKeyGet, some .netKeyGetRecv, .sendNetKeyReport, some .awaitingNetKeyVerify⟩,
   ⟨some .awaitingNetKeyGet, some .sendFinalTransferEnd, .checkNoKeys, some .idle⟩,
   ⟨some .awaitingNetKeyGet, some .retry, .resendData, none⟩,
   ⟨some .awaitingNetKeyGet, some .kexReportRecv, .none, none⟩,
   ⟨some .awaitingNetKeyGet, some .pubKeyRecvB, .none, none⟩,
   ⟨some .awaitingNetKeyGet, some .echoKexSetRecv, .none, none⟩,
   ⟨some .awaitingNetKeyGet, some .netKeyVerifyRecv, .none, none⟩,
   ⟨some .awaitingNetKeyVerify, some .netKeyVerifyFinalRecv, .sendTransferEnd, some .awaitingTransferEnd⟩,
   ⟨some .awaitingNetKeyVerify, some .netKeyVerifyRecv, .sendTransferEnd, some .awaitingNetKeyGet⟩,
   ⟨some .awaitingNetKeyVerify, some .retry, .resendData, none⟩,
   ⟨some .awaitingNetKeyVerify, some .kexReportRecv, .none, none⟩,
   ⟨some .awaitingNetKeyVerify, some .pubKeyRecvB, .none, none⟩,
   ⟨some .awaitingNetKeyVerify, some .echoKexSetRecv, .none, none⟩,
   ⟨some .awaitingNetKeyVerify, some .netKeyGetRecv, .none, none⟩,
   ⟨some .awaitingTransferEnd, some .transferEndRecv, .inclusionComplete, some .idle⟩,
   ⟨some .awaitingTransferEnd, some .retry, .resendData, none⟩,
   ⟨some .awaitingTransferEnd, some .kexReportRecv, .none, none⟩,
   ⟨some .awaitingTransferEnd, some .pubKeyRecvB, .none, none⟩,
   ⟨some .awaitingTransferEnd, some .echoKexSetRecv, .none, none⟩,
   ⟨some .awaitingTransferEnd, some .netKeyGetRecv, .none, none⟩,
   ⟨some .awaitingTransferEnd, some .netKeyVerifyRecv, .none, none⟩,
   ⟨some .awaitingTransferEnd, some .netKeyVerifyFinalRecv, .none, none⟩,
   ⟨some .idle, some .joiningStart, .joiningStart, some .awaitingKexGet⟩,
   ⟨some .awaitingKexGet, some .discoveryComplete, .timeoutTb1Set, some .awaitingKexGet⟩,
   ⟨some .awaitingKexGet, some .kexGetRecv, .sendKexReport, some .awaitingKexSet⟩,
   ⟨some .awaitingKexGet, some .reject, .none, some .idle⟩,
   ⟨some .awaitingKexGet, some .timeout, .joiningNeverStarted, some .idle⟩,
   ⟨some .awaitingKexSet, some .kexSetRecv, .sendPubKeyB, some .awaitingPubKeyA⟩,
   ⟨some .awaitingKexSet, some .retry, .resendFrame, none⟩,
   ⟨some .awaitingKexSet, some .kexGetRecv, .none, none⟩,
   ⟨some .awaitingPubKeyA, some .pubKeyRecvA, .pubKeyARecv, some .awaitingUserAAccept⟩,
   ⟨some .awaitingPubKeyA, some .retry, .resendFrame, none⟩,
   ⟨some .awaitingPubKeyA, some .kexGetRecv, .none, none⟩,
   ⟨some .awaitingPubKeyA, some .kexSetRecv, .none, none⟩,
   ⟨some .awaitingUserAAccept, some .accept, .doEcdhCalcB, some .echoKexSetSending⟩,
   ⟨some .awaitingUserAAccept, some .reject, .abort, some .idle⟩,
   ⟨some .awaitingUserAAccept, some .kexGetRecv, .none, none⟩,
   ⟨some .awaitingUserAAccept, some .kexSetRecv, .none, none⟩,
   ⟨some .awaitingUserAAccept, some .pubKeyRecvA, .none, none⟩,
   ⟨some .echoKexSetSending, some .sendFailed, .none, some .echoKexSetSending⟩,
   ⟨some .echoKexSetSending, some .sendDone, .none, some .echoKexSetSending⟩,
   ⟨some .echoKexSetSending, some .retry, .sendEchoKexSet, some .echoKexSetSending⟩,
   ⟨some .echoKexSetSending, some .echoKexReportRecv, .sendNetKeyGet, some .awaitingNetKeyReport⟩,
   ⟨some .echoKexSetSending, some .kexGetRecv, .none, none⟩,
   ⟨some .echoKexSetSending, some .kexSetRecv, .none, none⟩,
   ⟨some .echoKexSetSending, some .pubKeyRecvA, .none, none⟩,
   ⟨some .awaitingNetKeyReport, some .netKeyReportRecv, .sendNetKeyVerify, some .keyExchanged⟩,
   ⟨some .awaitingNetKeyReport, some .retry, .resendData, none⟩,
   ⟨some .awaitingNetKeyReport, some .kexGetRecv, .none, none⟩,
   ⟨some .awaitingNetKeyReport, some .kexSetRecv, .none, none⟩,
   ⟨some .awaitingNetKeyReport, some .pubKeyRecvA, .none, none⟩,
   ⟨some .awaitingNetKeyReport, some .echoKexReportRecv, .none, none⟩,
   ⟨some .awaitingNetKeyReport, some .noKeysGranted, .sendFinalTransferEnd, some .sendingFinalTransferEnd⟩,
   ⟨some .keyExchanged, some .transferEndRecv, .sendNetKeyGet, some .awaitingNetKeyReport⟩,
   ⟨some .keyExchanged, some .retry, .resendData, none⟩,
   ⟨some .keyExchanged, some .kexGetRecv, .none, none⟩,
   ⟨some .keyExchanged, some .kexSetRecv, .none, none⟩,
   ⟨some .keyExchanged, some .pubKeyRecvA, .none, none⟩,
   ⟨some .keyExchanged, some .echoKexReportRecv, .none, none⟩,
   ⟨some .keyExchanged, some .netKeyReportRecv, .none, none⟩,
   ⟨some .keyExchanged, some .sendFinalTransferEnd, .sendFinalTransferEnd, some .sendingFinalTransferEnd⟩,
   ⟨some .sendingFinalTransferEnd, some .retry, .resendData, none⟩,
   ⟨some .sendingFinalTransferEnd, some .sendDone, .joiningComplete, some .idle⟩,
   ⟨some .sendingFinalTransferEnd, some .kexGetRecv, .none, none⟩,
   ⟨some .sendingFinalTransferEnd, some .kexSetRecv, .none, none⟩,
   ⟨some .sendingFinalTransferEnd, some .pubKeyRecvA, .none, none⟩,
   ⟨some .sendingFinalTransferEnd, some .echoKexReportRecv, .none, none⟩,
   ⟨some .sendingFinalTransferEnd, some .netKeyReportRecv, .none, none⟩,
   ⟨some .sendingFinalTransferEnd, some .sendFinalTransferEnd, .none, none⟩,
   ⟨some .sendingFinalTransferEnd, some .transferEndRecv, .none, none⟩,
   ⟨some .errorSent, some .sendDone, .abort, some .idle⟩,
   ⟨some .idle, some .timeout, .none, some .idle⟩,
   ⟨some .idle, none, .none, some .idle⟩,
   ⟨none, some .timeout, .abort, some .idle⟩,
   ⟨none, some .errorWasSent, .none, some .errorSent⟩,
   ⟨none, some .errorRecv, .remoteError, some .idle⟩,
   ⟨none, some .error, .abort, some .idle⟩,
   ⟨none, some .decryptFailed, .none, none⟩,
   ⟨none, some .sendDone, .none, none⟩,
   ⟨none, some .sendFailed, .abort, some .idle⟩,
   ⟨none, some .discoveryComplete, .none, none⟩,
   ⟨none, none, .abort, some .idle⟩]

def findTransition (state : State) (event : Event) : Transition :=
  (transitionTable.find? fun row =>
    (row.state = some state ∨ row.state = none) ∧ (row.event = some event ∨ row.event = none)).getD
    ⟨none, none, .abort, some .idle⟩

structure FrameRule where
  length : UInt8
  support : UInt8
  ruleA : UInt8
  ruleB : UInt8
deriving DecidableEq, Repr

def singleRuleSupport : UInt8 := 0
def dualRuleSupport : UInt8 := 1
def echoSupport : UInt8 := 2

def frameRules : List FrameRule :=
  [⟨2, singleRuleSupport, nonSecure, nonSecure⟩, ⟨6, echoSupport, nonSecure, tempKeySlot⟩,
   ⟨6, echoSupport, nonSecure, tempKeySlot⟩,
   ⟨3, dualRuleSupport, nonSecure, tempKeySlot⟩,
   ⟨35, singleRuleSupport, nonSecure, nonSecure⟩,
   ⟨3, singleRuleSupport, tempKeySlot, tempKeySlot⟩,
   ⟨19, singleRuleSupport, tempKeySlot, tempKeySlot⟩,
   ⟨2, singleRuleSupport, networkKeySlot, networkKeySlot⟩,
   ⟨3, singleRuleSupport, tempKeySlot, tempKeySlot⟩]

def keySlotPairs : List (UInt8 × UInt8) :=
  [(keyClassUnauthenticated, 0), (keyClassAuthenticated, 1), (keyClassAccess, 2),
   (keyClassAuthenticatedLr, 3), (keyClassAccessLr, 4)]

/-- `m_key_slot_key_class_pair`, indexed by the slot a frame was decrypted with. -/
def keySlotKeyClasses : List UInt8 :=
  [keyClassUnauthenticated, keyClassAuthenticated, keyClassAccess, keyClassAuthenticated,
   keyClassAccess, 0x00, keyClassS0]

inductive Mode where
  | csa
  | ssa
deriving DecidableEq, Repr

inductive SlotKey where
  | temporary (key : Bytes)
  | network (key : Bytes)
deriving DecidableEq, Repr

inductive SendResult where
  | accepted
  | refused
  | failed
deriving DecidableEq, Repr

inductive Up where
  | initiated (peer : Connection)
  | kexReport (peer : Connection) (keys : UInt8) (csa : Bool)
  | challenge (peer : Connection) (publicKey : Bytes) (grantedKeys : UInt8) (dskLength : Nat)
  | inclusionComplete (peer : Connection) (exchangedKeys : UInt8)
  | joiningComplete (peer : Connection) (exchangedKeys : UInt8)
  | inclusionFailed (peer : Connection) (kexFailType : UInt8)
  | neverStarted (peer : Connection) (exchangedKeys : UInt8)
deriving DecidableEq, Repr

/-- The calls into the machine; `postEvent` has the slot a frame was decrypted with, `commandsSupportedGet` is
the answer S2 builds in `inclusion_buf`. -/
inductive Call where
  | init (schemes curves keysToRequest : UInt8)
  | includingStart (conn : Connection)
  | joiningStart (conn : Connection) (csa : UInt8)
  | keyGrant (accept keys csa : UInt8)
  | challengeResponse (accept : UInt8) (response : Bytes)
  | neighborDiscoveryComplete
  | abort
  | postEvent (src : Connection) (frame : Bytes)
  | notifyTimeout
  | sendDone (status : Bool)
  | decryptionFailure (src : Connection)
  | restoreKeys
  | commandsSupportedGet (classes : Bytes)
deriving DecidableEq, Repr

/-- What is logged: the starts in the idle state, the users' answers and the received frames with the
state they found, of which `received` also has `key_requested` and `key_exchange`, what was sent, and
what went up. -/
inductive Entry where
  | started
  | joined
  | keyGrant (found : State) (accept keys csa : UInt8)
  | challenge (found : State) (accept : UInt8)
  | aborted (found : State)
  | received (found : State) (keyRequested keyExchange : UInt8) (src : Connection) (frame : Bytes)
  | sentFrame (con : Connection) (frame : Bytes) (ok : Bool)
  | sentData (con : Connection) (frame : Bytes) (result : SendResult)
  | event (up : Up)
deriving DecidableEq, Repr

/-- Everything outside the machine: the key pair and the ciphers, what `m_evt_handler` calls before it
returns, what becomes of the frames, and the memory behind `m_frame_rules`. -/
structure Env where
  publicKey : Bytes
  privateKey : Bytes
  scalarmult : (secret point : Bytes) → Bytes
  tempkeyExtract : (sharedSecret keys : Bytes) → Bytes
  length_publicKey : publicKey.length = publicKeySize
  length_tempkeyExtract : ∀ sharedSecret keys, (tempkeyExtract sharedSecret keys).length = networkKeySize
  react : Nat → Up → List Call
  sendData : Nat → SendResult
  sendFrame : Nat → Bool
  ruleBeyond : FrameRule

/-- The context and the static variables; a slot is loaded when it holds a key. -/
structure Ctx where
  state : State
  peer : Connection
  mode : Mode
  kexFailCode : UInt8
  keyGranted : UInt8
  keyExchange : UInt8
  keyRequested : UInt8
  kexReportKeys : UInt8
  schemeSupport : UInt8
  curveSupport : UInt8
  csaSupport : UInt8
  kexSetByte2 : UInt8
  publicKey : Mem
  inclusionBuf : Mem
  inclusionBufLength : Nat
  buf : Mem
  length : Nat
  retryCounter : UInt8
  schemes : UInt8
  curves : UInt8
  keys : UInt8
  slots : UInt8 → Option SlotKey
  keystore : UInt8 → Option Bytes
  nEvent : Nat
  nData : Nat
  nFrame : Nat
  log : List Entry

namespace Ctx

def note (s : Ctx) (entry : Entry) : Ctx :=
  { s with log := entry :: s.log }

def prepare (s : Ctx) (frame : Bytes) : Ctx :=
  { s with inclusionBuf := s.inclusionBuf.write 0 frame, inclusionBufLength := frame.length }

def prepared (s : Ctx) : Bytes :=
  s.inclusionBuf.slice 0 s.inclusionBufLength

def encryptFor (s : Ctx) (slot txOptions : UInt8) : Ctx :=
  { s with peer := { s.peer with classId := slot, txOptions := txOptions } }

def withState (s : Ctx) (state : State) : Ctx :=
  { s with state := state }

def withRetries (s : Ctx) (n : UInt8) : Ctx :=
  { s with retryCounter := n }

def withGranted (s : Ctx) (keys : UInt8) : Ctx :=
  { s with keyGranted := keys }

def withExchange (s : Ctx) (keys : UInt8) : Ctx :=
  { s with keyExchange := keys }

def withRequested (s : Ctx) (key : UInt8) : Ctx :=
  { s with keyRequested := key }

def withScheme (s : Ctx) (scheme : UInt8) : Ctx :=
  { s with schemeSupport := scheme }

def withCurve (s : Ctx) (curve : UInt8) : Ctx :=
  { s with curveSupport := curve }

def withCsaSupport (s : Ctx) (csa : UInt8) : Ctx :=
  { s with csaSupport := csa }

def withMode (s : Ctx) (mode : Mode) : Ctx :=
  { s with mode := mode }

def withPeer (s : Ctx) (peer : Connection) : Ctx :=
  { s with peer := peer }

def withPublicKey (s : Ctx) (key : Bytes) : Ctx :=
  { s with publicKey := s.publicKey.write 0 key }

def withFailCode (s : Ctx) (code : UInt8) : Ctx :=
  { s with kexFailCode := code }

def networkKeyUpdate (s : Ctx) (slot : UInt8) (key : SlotKey) : Ctx :=
  { s with slots := Function.update s.slots slot (some key) }

def keystoreClear (s : Ctx) : Ctx :=
  { s with keystore := fun _ => none }

def keystoreWrite (s : Ctx) (keyClass : UInt8) (key : Bytes) : Ctx :=
  if keyClass = keyClassS0 ∨ keyClass ∈ keySlotPairs.map Prod.fst then
    { s with keystore := Function.update s.keystore keyClass (some key) }
  else
    s

def restoreKeys (s : Ctx) : Ctx :=
  { s with
    slots := fun slot =>
      (keySlotPairs.find? fun pair => pair.2 = slot).bind fun pair =>
        (s.keystore pair.1).map .network }

end Ctx

end ZipGateway.Inclusion

import Mathlib.Data.List.FinRange
import ZipGateway.Lib.Machine
import ZipGateway.Lib.Memory

/-!
# The S2 context and its surroundings

The data of `struct S2` as the gateway builds it (`ZW_CONTROLLER`), and around it what the protocol
code calls and is called by: the ciphers, the random generator, the layer below that transmits
frames, and the callbacks into the application and the inclusion machine. The context also carries
a log of the calls the code made, newest first, and the frames the layer below still owes a
`S2_send_frame_done_notify`; nothing the protocol does reads either of them.
-/

namespace ZipGateway

abbrev NodeId := UInt16

abbrev Block := Vector UInt8 16

def Block.ofBytes (bytes : Bytes) : Block :=
  Vector.ofFn fun i => bytes.getD i 0

def Block.zero : Block :=
  Vector.replicate 16 0

def commandClassSecurity2 : UInt8 := 0x9F
def security2NonceGet : UInt8 := 0x01
def security2NonceReport : UInt8 := 0x02
def security2MessageEncapsulation : UInt8 := 0x03
def kexFail : UInt8 := 0x07
def security2CommandsSupportedGet : UInt8 := 0x0D
def security2CommandsSupportedReport : UInt8 := 0x0E

def nonceReportSos : UInt8 := 0x01
def nonceReportMos : UInt8 := 0x02

def encapsulationExtension : UInt8 := 0x01
def encapsulationEncryptedExtension : UInt8 := 0x02

def exthdrCriticalFlag : UInt8 := 0x40
def exthdrMoreFlag : UInt8 := 0x80
def exthdrTypeMask : UInt8 := 0x3F
def exthdrTypeSn : UInt8 := 1
def exthdrTypeMpan : UInt8 := 2
def exthdrTypeMgrp : UInt8 := 3
def exthdrTypeMos : UInt8 := 4

def txoptionVerifyDelivery : UInt8 := 1
def txoptionSinglecastFollowup : UInt8 := 2
def txoptionFirstSinglecastFollowup : UInt8 := 4

def rxoptionMulticast : UInt8 := 1
def rxoptionFollowup : UInt8 := 2

def authTagLen : Nat := 8
def sendDataTimeout : Nat := 65000
def seqDuplWindowSize : UInt8 := 2
def unencryptedClass : UInt8 := 0xFF

abbrev spanTableSize : Nat := 254
abbrev mpanTableSize : Nat := 254
abbrev mosListLength : Nat := 3
def nSecClass : Nat := 7

abbrev SpanRef := Fin spanTableSize
abbrev MpanRef := Fin mpanTableSize

/-- `s2_connection_t`, less the fields that are passed through to the radio untouched. -/
structure Connection where
  lNode : NodeId
  rNode : NodeId
  txOptions : UInt8
  rxOptions : UInt8
  mgrpGroupId : UInt8
  classId : UInt8
deriving DecidableEq, Repr

inductive SpanState where
  | notUsed
  | noSeq
  | sos
  | sosLocalNonce
  | sosRemoteNonce
  | instantiate
  | negotiated
deriving DecidableEq, Repr

/-- The 33 bytes of the union in `struct SPAN`: the generator `rng`, whose first sixteen are also
`r_nonce`. -/
structure SpanData where
  rNonce : Block
  rest : Vector UInt8 17
deriving DecidableEq, Repr

structure Span where
  d : SpanData
  lnode : NodeId
  rnode : NodeId
  rxSeq : UInt8
  txSeq : UInt8
  classId : UInt8
  state : SpanState
deriving DecidableEq, Repr

inductive MpanState where
  | notUsed
  | set
  | mos
deriving DecidableEq, Repr

structure Mpan where
  ownerId : NodeId
  groupId : UInt8
  innerState : Block
  classId : UInt8
  state : MpanState
deriving DecidableEq, Repr

structure MosEntry where
  nodeId : NodeId
  groupId : UInt8
deriving DecidableEq, Repr

structure SecGroup where
  encKey : Block
  mpanKey : Block
  nonceKey : Vector UInt8 32
deriving DecidableEq, Repr

inductive FsmState where
  | idle
  | waitNonceRaport
  | sendingMsg
  | sendingMulticast
  | verifyingDelivery
  | isMosWaitReply
deriving DecidableEq, Repr

inductive TxStatus where
  | ok
  | noAck
  | fail
  | verified
deriving DecidableEq, Repr

inductive DecryptReturnCode where
  | authOk
  | parseFail
  | authFail
  | sequenceFail
deriving DecidableEq, Repr

inductive Extension where
  | sn (entropy : Block)
  | mgrp (groupId : UInt8)
  | mos
  | mpan (groupId : UInt8) (innerState : Block)
deriving DecidableEq, Repr

/-- On whose behalf a frame was handed to the layer below: the `n`th accepted send, or the inclusion
machine, which transmits its plain frames itself. -/
inductive FrameOwner where
  | send (n : Nat)
  | inclusion
deriving DecidableEq, Repr

/-- What made the machine report a send as done: the completion of a frame (`none` when no frame was
outstanding), the refusal of a frame by the layer below, an authenticated reply, the expiry of the
timer, or a nonce report when no retry was left. -/
inductive Origin where
  | frameDone (frame : Option FrameOwner)
  | refused
  | reply
  | timeout
  | nonceReport
deriving DecidableEq, Repr

/-- The calls the code makes: `accepted` comes with the frames under way, `inclusionSendFrame` with the state
of the send machine, `encryptAndSend` with that of its span entry, `ccmDecrypt` with the length returned;
`attach` and `recognise` are extensions. -/
inductive Out where
  | accepted (outstanding : List FrameOwner)
  | sendFrame (con : Connection) (frame : Bytes) (ok : Bool)
  | sendFrameMulti (con : Connection) (frame : Bytes) (ok : Bool)
  | inclusionSendFrame (fsm : FsmState) (con : Connection) (frame : Bytes) (ok : Bool)
  | sendFrameNoCb (con : Connection) (frame : Bytes)
  | setTimeout (interval : Nat)
  | stopTimeout
  | sendDoneEvent (send : Nat) (status : TxStatus) (origin : Origin)
  | msgReceivedEvent (con : Connection) (msg : Bytes)
  | resynchronizationEvent (remoteNode : NodeId) (seqno : UInt8) (localNode : NodeId)
  | inclusionSendDone (ok : Bool)
  | inclusionPostEvent (con : Connection) (cmd : Bytes)
  | inclusionDecryptionFailure (con : Connection)
  | encryptAndSend (span : SpanState)
  | attach (extension : Extension)
  | recognise (extension : Extension)
  | ccmDecrypt (multicast : Bool) (key nonce : Block) (aad text : Bytes) (length : Nat)
deriving DecidableEq, Repr

def Out.isAccepted : Out → Bool
  | .accepted _ => true
  | _ => false

/-- The functions of S2 that a callback may call before it returns. -/
inductive Call where
  | sendData (con : Connection) (buf : Bytes)
  | sendDataMulticast (con : Connection) (buf : Bytes)
  | sendDataWithKeyset (con : Connection) (longRange : Bool) (buf : Bytes)
  | sendDataMulticastWithKeyset (con : Connection) (longRange : Bool) (buf : Bytes)
  | sendDataFollowUpWithKeyset (con : Connection) (longRange : Bool) (buf : Bytes)
  | inclusionSendFrame (con : Connection) (frame : Bytes)
  | networkKeyUpdate (classId : UInt8) (group : SecGroup)
  | clearLoadedKeys
  | freeMpan (ownerId : NodeId) (groupId : UInt8)
deriving DecidableEq, Repr

/-- Everything outside S2: the ciphers, and the answers of the generator, the layer below and the callbacks,
in their order. `stack` is what `s_nonce` and `r_nonce` hold at first. -/
structure Env where
  ccmEncryptAndAuth : (key nonce : Block) → (aad text : Bytes) → Bytes
  ccmDecryptAndAuth : (key nonce : Block) → (aad text : Bytes) → Nat × Bytes
  nextNonceInstantiate : (eiSender eiReceiver : Block) → Vector UInt8 32 → SpanData
  nextNonceGenerate : SpanData → Block × SpanData
  aes128EcbEncrypt : (input key : Block) → Block
  random : Nat → Block
  sendFrame : Nat → Bool
  react : Nat → List Call
  commandsSupported : NodeId → UInt8 → Bytes
  stack : Nat → Block × Block

structure S2 where
  sg : UInt8 → SecGroup
  loadedKeys : UInt8
  myHomeId : UInt32
  peer : Connection
  buf : Mem
  length : Nat
  mpan : Option MpanRef
  spanTable : SpanRef → Span
  mpanTable : MpanRef → Mpan
  mosList : Fin mosListLength → MosEntry
  fsm : FsmState
  retry : UInt8
  workbuf : Mem
  nRandom : Nat
  nFrame : Nat
  nCallback : Nat
  nDecrypt : Nat
  inFlight : List FrameOwner
  out : List Out

namespace S2

def log (s : S2) (o : Out) : S2 :=
  { s with out := o :: s.out }

def classLoaded (s : S2) (classId : UInt8) : Bool :=
  s.loadedKeys.toNat.testBit classId.toNat

def setSpan (s : S2) (i : SpanRef) (span : Span) : S2 :=
  { s with spanTable := Function.update s.spanTable i span }

def setMpan (s : S2) (i : MpanRef) (mpan : Mpan) : S2 :=
  { s with mpanTable := Function.update s.mpanTable i mpan }

def ctrDrbgGenerate (env : Env) (s : S2) : Block × S2 :=
  (env.random s.nRandom, { s with nRandom := s.nRandom + 1 })

def nAccepted (s : S2) : Nat :=
  s.out.countP Out.isAccepted

def zeroConnection : Connection :=
  { lNode := 0, rNode := 0, txOptions := 0, rxOptions := 0, mgrpGroupId := 0, classId := 0 }

def init (home : UInt32) : S2 where
  sg := fun _ =>
    { encKey := Block.zero, mpanKey := Block.zero, nonceKey := Vector.replicate 32 0 }
  loadedKeys := 0
  myHomeId := home
  peer := zeroConnection
  buf := fun _ => 0
  length := 0
  mpan := none
  spanTable := fun _ =>
    { d := { rNonce := Block.zero, rest := Vector.replicate 17 0 }, lnode := 0, rnode := 0
      rxSeq := 0, txSeq := 0, classId := 0, state := .notUsed }
  mpanTable := fun _ =>
    { ownerId := 0, groupId := 0, innerState := Block.zero, classId := 0, state := .notUsed }
  mosList := fun _ => { nodeId := 0, groupId := 0 }
  fsm := .idle
  retry := 0
  workbuf := fun _ => 0
  nRandom := 0
  nFrame := 0
  nCallback := 0
  nDecrypt := 0
  inFlight := []
  out := []

end S2

end ZipGateway

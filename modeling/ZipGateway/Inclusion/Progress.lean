import ZipGateway.Inclusion.Machine

/-!
# What a step of the inclusion can do

`Progress` is what the key exchange has come to: the state of the machine, what was granted and
exchanged, the command in the buffer of the next frame, whether the temporary slots are loaded, and
the log. `Move` lists all that can happen to it, one constructor for each transition that matters;
every call into the machine, with whatever the application calls before it returns, is a sequence of
moves.
-/

namespace ZipGateway.Inclusion

structure Progress where
  state : State
  rNode : NodeId
  mode : Mode
  keyGranted : UInt8
  keyExchange : UInt8
  keyRequested : UInt8
  schemeSupport : UInt8
  curveSupport : UInt8
  command : UInt8
  key : UInt8
  temporary : Bool
  network : Bool
  log : List Entry

def Ctx.progress (s : Ctx) : Progress where
  state := s.state
  rNode := s.peer.rNode
  mode := s.mode
  keyGranted := s.keyGranted
  keyExchange := s.keyExchange
  keyRequested := s.keyRequested
  schemeSupport := s.schemeSupport
  curveSupport := s.curveSupport
  command := s.inclusionBuf 1
  key := s.inclusionBuf 2
  temporary := (s.slots tempKeySlot).isSome
  network := (s.slots networkKeySlot).isSome
  log := s.log

def Up.isTerminal : Up → Bool
  | .initiated _ | .kexReport _ _ _ | .challenge _ _ _ _ => false
  | .inclusionComplete _ _ | .joiningComplete _ _ | .inclusionFailed _ _ | .neverStarted _ _ => true

def State.isJoining : State → Bool
  | .awaitingKexGet | .awaitingKexSet | .awaitingPubKeyA | .awaitingUserAAccept
  | .echoKexSetSending | .awaitingNetKeyReport | .keyExchanged | .sendingFinalTransferEnd => true
  | _ => false

def Entry.isRejection : Entry → Bool
  | .keyGrant _ accept _ _ => accept != acceptInclusion
  | .challenge _ accept => accept != acceptInclusion
  | .aborted _ => true
  | _ => false

def Entry.found? : Entry → Option State
  | .keyGrant found _ _ _ => some found
  | .challenge found _ => some found
  | .aborted found => some found
  | .received found _ _ _ _ => some found
  | _ => none

def Releases (frame : Bytes) (key : UInt8) : Prop :=
  frame[1]? = some networkKeyReport ∧ frame[2]? = some key

/-- What the log has of a frame that is sent: the key it gives away is the one in the buffer. -/
def Progress.Sends (o : Progress) : Entry → Prop
  | .sentFrame _ frame _ | .sentData _ frame _ =>
    ∀ key, Releases frame key → o.command = networkKeyReport ∧ o.key = key
  | _ => False

def Progress.Hears (o : Progress) : Entry → Prop
  | .keyGrant found accept _ _ => found = o.state ∧ (found = .awaitingKexGet → accept = acceptInclusion)
  | .challenge found accept => found = o.state ∧ (found = .awaitingKexGet → accept = acceptInclusion)
  | .aborted found => found = o.state ∧ found ≠ .awaitingKexGet
  | .received found requested exchange src _ =>
    found = o.state ∧ requested = o.keyRequested ∧ exchange = o.keyExchange ∧ src.rNode = o.rNode
  | .event up => up.isTerminal = false
  | _ => False

def kexSetFrame (mode : Mode) (keys : UInt8) : Bytes :=
  [commandClassSecurity2, kexSet, if mode = .csa then csaOn else 0, scheme1Support, curve25519, keys]

def Progress.Accepts (o : Progress) (mode : Mode) (keys : UInt8) : Prop :=
  (∃ csa rest, o.log = .keyGrant o.state acceptInclusion keys csa :: rest) ∨
    (∃ rest, o.log = .challenge o.state acceptInclusion :: rest) ∧ mode = o.mode ∧ keys = o.keyGranted

/-- The frame that was just received, with the slot it was decrypted with. -/
def Progress.Heard (o : Progress) (src : Connection) (frame : Bytes) : Prop :=
  ∃ rest, o.log = .received o.state o.keyRequested o.keyExchange src frame :: rest

structure Progress.Echoed (o : Progress) (src : Connection) (frame : Bytes) : Prop where
  heard : o.Heard src frame
  secure : src.classId = tempKeySlot
  command : frame.getD 1 0 = kexSet
  echo : frame.getD 2 0 &&& echoOn ≠ 0
  csa : frame.getD 2 0 &&& csaOn = if o.mode = .csa then csaOn else 0
  scheme : frame.getD 3 0 = o.schemeSupport
  curve : frame.getD 4 0 = o.curveSupport
  keys : frame.getD 5 0 = o.keyGranted

structure Progress.Requested (o : Progress) (src : Connection) (frame : Bytes) (key : UInt8) :
    Prop where
  heard : o.Heard src frame
  secure : src.classId = tempKeySlot
  command : frame.getD 1 0 = networkKeyGet
  names : frame.getD 2 0 = key
  single : key &&& (key - 1) = 0
  granted : key &&& o.keyGranted ≠ 0

structure Progress.Confirmed (o : Progress) (src : Connection) (frame : Bytes) : Prop where
  heard : o.Heard src frame
  accepted : verifyClassAccepted o.keyRequested o.keyExchange src.classId
  command : frame.getD 1 0 = networkKeyVerify

structure Progress.Still (o o' : Progress) : Prop where
  command : o'.command = o.command
  key : o'.key = o.key
  log : o'.log = o.log

structure Progress.SameSlots (o o' : Progress) : Prop where
  temporary : o'.temporary = o.temporary
  network : o'.network = o.network

inductive Move : Progress → Progress → Prop
  | prepare (o : Progress) (command key : UInt8) (h : command ≠ networkKeyReport) :
      Move o { o with command := command, key := key }
  | sent (o : Progress) (entry : Entry) (h : o.Sends entry) : Move o { o with log := entry :: o.log }
  | heard (o : Progress) (entry : Entry) (h : o.Hears entry) : Move o { o with log := entry :: o.log }
  | restored (o : Progress) : Move o { o with temporary := false, network := false }
  | idle (o o' : Progress) (h : o.state = .idle) (hstate : o'.state = .idle) (hstill : o.Still o')
      (hslots : o.SameSlots o') :
      Move o o'
  | start (o : Progress) (rNode : NodeId) (mode : Mode) (key : UInt8) (h : o.state = .idle) :
      Move o { o with
        state := .awaitingKexReport, rNode := rNode, mode := mode, command := kexGet, key := key,
        log := .started :: o.log }
  | join (o : Progress) (rNode : NodeId) (mode : Mode) (h : o.state = .idle) :
      Move o { o with
        state := .awaitingKexGet, rNode := rNode, mode := mode, log := .joined :: o.log }
  | cancel (o : Progress) (entry : Entry) (h : o.state = .awaitingKexGet)
      (hfound : entry.found? = some .awaitingKexGet) (hentry : entry.isRejection) :
      Move o { o with state := .idle, log := entry :: o.log }
  | fail (o o' : Progress) (peer : Connection) (failType : UInt8) (h : o.state ≠ .idle)
      (hstill : o.Still o') :
      Move o { o' with
        state := .idle, temporary := false, network := false,
        log := .event (.inclusionFailed peer failType) :: o.log }
  | complete (o : Progress) (peer : Connection) (hpeer : peer.rNode = o.rNode)
      (h : o.state = .awaitingTransferEnd ∨ o.state = .awaitingNetKeyGet ∧ o.keyGranted = 0) :
      Move o { o with
        state := .idle, temporary := false, network := false,
        log := .event (.inclusionComplete peer o.keyExchange) :: o.log }
  | joined (o : Progress) (up : Up) (h : o.state.isJoining)
      (hup : (∃ peer keys, up = .joiningComplete peer keys) ∨ ∃ peer keys, up = .neverStarted peer keys) :
      Move o { o with
        state := .idle, temporary := false, network := false, log := .event up :: o.log }
  | error (o o' : Progress) (h : o.state ≠ .idle) (hstate : o'.state = .errorSent)
      (hstill : o.Still o') :
      Move o o'
  | joining (o o' : Progress) (h : o.state.isJoining) (hstate : o'.state.isJoining)
      (hslots : o'.state = .awaitingKexGet → o.state = .awaitingKexGet ∧ o.SameSlots o')
      (hstill : o.Still o') :
      Move o o'
  | reported (o : Progress) (keyGranted keyExchange : UInt8) (h : o.state = .awaitingKexReport) :
      Move o { o with
        state := .awaitingKeyUserAccept, schemeSupport := scheme1Support,
        curveSupport := curve25519, keyGranted := keyGranted, keyExchange := keyExchange }
  | offer (o : Progress) (mode : Mode) (keys : UInt8) (con : Connection) (ok : Bool)
      (h : o.state = .awaitingKeyUserAccept) (haccepts : o.Accepts mode keys) :
      Move o { o with
        state := .awaitingPubKeyB, mode := mode, keyGranted := keys, command := kexSet,
        key := if mode = .csa then csaOn else 0,
        log := .sentFrame con (kexSetFrame mode keys) ok :: o.log }
  | challenge (o : Progress) (h : o.state = .awaitingPubKeyB) :
      Move o { o with state := .awaitingUserAccept }
  | acknowledge (o : Progress) (mode : Mode) (keys : UInt8) (h : o.state = .awaitingUserAccept)
      (haccepts : o.Accepts mode keys) :
      Move o { o with
        state := .awaitingEchoKexSet, mode := mode, keyGranted := keys, temporary := true }
  | echo (o : Progress) (src : Connection) (frame : Bytes) (h : o.state = .awaitingEchoKexSet)
      (hecho : o.Echoed src frame) :
      Move o { o with state := .awaitingNetKeyGet, keyExchange := 0 }
  | release (o : Progress) (src : Connection) (frame : Bytes) (key : UInt8)
      (h : o.state = .awaitingNetKeyGet) (hrequested : o.Requested src frame key) :
      Move o { o with
        state := .awaitingNetKeyVerify, keyRequested := key, keyExchange := o.keyExchange ||| key,
        command := networkKeyReport, key := key }
  | load (o : Progress) (h : o.state = .awaitingNetKeyVerify) : Move o { o with network := true }
  | verify (o : Progress) (src : Connection) (frame : Bytes) (h : o.state = .awaitingNetKeyVerify)
      (hconfirmed : o.Confirmed src frame) :
      Move o { o with
        state := if o.keyExchange = o.keyGranted then .awaitingTransferEnd else .awaitingNetKeyGet,
        temporary := true }

theorem Progress.Still.log_suffix {o o' : Progress} (hstill : o.Still o') : o.log <:+ o'.log :=
  hstill.log ▸ List.suffix_rfl

theorem Move.log_suffix {o o' : Progress} (hmove : Move o o') : o.log <:+ o'.log := by
  cases hmove <;>
    first
    | exact List.suffix_rfl
    | exact List.suffix_cons _ _
    | exact Progress.Still.log_suffix (by assumption)

def Moves : Progress → Progress → Prop :=
  Relation.ReflTransGen Move

end ZipGateway.Inclusion

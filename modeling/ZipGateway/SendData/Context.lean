import ZipGateway.Nodemask

/-!
# The send queues and their surroundings

`ZW_SendDataAppl.c` has two queues: `session_list` for the frames of the application and
`send_data_list` for physical frames. The elements of both are blocks of one pool of eight, and each
block refers to a frame buffer from the heap. A block keeps its contents when it is freed, and the
code goes on reading them.

Between the queues stands `send_endpoint`, which puts the frame of the application into a physical
frame or gives it to a security layer; below them stands the radio. What these do is the
environment's. The process of this file gets its events from the queue of all processes, which holds
32 of them; an event for which there is no room is lost. Here the events are delivered in any order.
Callbacks return before the next call of the module.
-/

namespace ZipGateway

def sessionMembNum : Nat := 8

def frameBufferElementSize : Nat := 256

def processConfNumevents : Nat := 32

def commandClassNoOperation : UInt8 := 0x00
def commandClassNoOperationLr : UInt8 := 0x04

def txOk : UInt8 := 0x00
def txFail : UInt8 := 0x02
def txError : UInt8 := 0xFF

abbrev SendBlock := Fin 8

structure SendParam where
  snode : NodeId
  dnode : NodeId
  discardTimeout : Nat
deriving DecidableEq, Repr

structure FrameBuffer where
  id : Nat
  param : SendParam
  frameData : Mem
  frameLen : Nat

inductive SendCallback where
  | application
  | callbackEx (user : SendBlock)
  | layer
deriving DecidableEq, Repr

def SendCallback.user : SendCallback → Option SendBlock
  | .callbackEx user => some user
  | _ => none

structure SendDataApplSession where
  fb : FrameBuffer
  callback : SendCallback
  discardTimer : Bool

inductive SendEvent where
  | sendNext
  | sendNextLl
  | emergencyTimer
  | backoffTimer
deriving DecidableEq, Repr

/-- What becomes of a frame in `send_endpoint`: it is refused, it is given to `send_data` in the
shape it has then, or a security layer takes it and owes the callback. -/
inductive Route where
  | refused
  | direct (data : Mem) (len : Nat)
  | layered

/-- The calls into the module and out of it, by frame buffers; `result` is the callback of the radio for `fb`,
which completes `popped`. -/
inductive SendOut where
  | accepted (fb : Nat) (handle : Nat)
  | started (fb : Nat)
  | completed (fb : Nat) (status : UInt8)
  | transmitted (fb : Nat)
  | result (fb popped : Nat) (status : UInt8)
deriving DecidableEq, Repr

/-- The answers of the world around the module, each in the sequence they are asked for. -/
structure SendEnv where
  malloc : Nat → Bool
  sendEndpoint : Nat → Route
  radio : Nat → Bool
  commandAnalyzerIsGet : UInt8 → UInt8 → Bool

/-- `others` counts the events of the other processes in the queue, `lost` says that an event of this
one found no room in it. -/
structure SendDataAppl where
  allocated : SendBlock → Bool
  mem : SendBlock → SendDataApplSession
  buffers : List Nat
  sessionList : List SendBlock
  sendDataList : List SendBlock
  lock : Bool
  lockLl : Bool
  currentSession : Option SendBlock
  emergencyTimer : Bool
  backoffTimer : Bool
  backoffNode : NodeId
  posted : List SendEvent
  others : Nat
  lost : Bool
  owedAppl : List SendBlock
  owedRadio : List Nat
  nMalloc : Nat
  nBuffers : Nat
  nRoutes : Nat
  nRadio : Nat
  out : List SendOut

def SendDataApplSession.zero : SendDataApplSession where
  fb := ⟨0, ⟨0, 0, 0⟩, fun _ => 0, 0⟩
  callback := .layer
  discardTimer := false

namespace SendDataAppl

def log (s : SendDataAppl) (o : SendOut) : SendDataAppl :=
  { s with out := o :: s.out }

def room (s : SendDataAppl) : Bool :=
  decide (s.posted.length + s.others < processConfNumevents)

/-- `process_post`, the result of which is not looked at. -/
def post (s : SendDataAppl) (e : SendEvent) : SendDataAppl :=
  { s with
    posted := if s.room then s.posted ++ [e] else s.posted
    lost := s.lost || !s.room }

def init : SendDataAppl where
  allocated := fun _ => false
  mem := fun _ => SendDataApplSession.zero
  buffers := []
  sessionList := []
  sendDataList := []
  lock := false
  lockLl := false
  currentSession := none
  emergencyTimer := false
  backoffTimer := false
  backoffNode := 0
  posted := []
  others := 0
  lost := false
  owedAppl := []
  owedRadio := []
  nMalloc := 0
  nBuffers := 0
  nRoutes := 0
  nRadio := 0
  out := []

end SendDataAppl

end ZipGateway

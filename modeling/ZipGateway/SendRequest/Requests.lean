import ZipGateway.Packet
import ZipGateway.SendData.Context

/-!
# Requests that wait for a response

`ZW_SendRequest.c` sends a command and calls back when the response comes, or when it does not come in
time. Requests are blocks of a pool of four, which are linked in `reqs_list`.

A callback may call `ZW_SendRequest` and `ZW_Abort_SendRequest`. What is left to do after a callback is
kept here as a frame, so that such calls are steps like all others. The callback of a transmission, the
frames received and the timers come from processes of their own, which do not run before the module has
returned. `ZW_SendDataAppl` calls back once for what it accepts, and never before it returns.
-/

namespace ZipGateway

abbrev ReqBlock := Fin 4

inductive ReqState where
  | sending
  | waiting
  | done
deriving DecidableEq, Repr

structure ReqParam where
  snode : NodeId
  dnode : NodeId
  sendpoint : UInt8
  dendpoint : UInt8
  scheme : UInt8
deriving DecidableEq, Repr

structure SendRequestState where
  id : Nat
  param : ReqParam
  state : ReqState
  cls : UInt8
  cmd : UInt8
  timer : Bool
deriving DecidableEq, Repr

inductive ReqFrame where
  | timeout
  | abort (n : UInt8) (s : ReqBlock)
  | response (s : ReqBlock)
deriving DecidableEq, Repr

inductive ReqOut where
  | accepted (id : Nat)
  | failed (id : Nat)
  | answered (id : Nat)
  | returned (id : Nat) (more : Bool)
deriving DecidableEq, Repr

/-- The answers of the world around the module, in the sequence they are asked for. -/
structure ReqEnv where
  sendDataAppl : Nat → Bool
  schemeSelect : Nat → ReqParam → UInt8

structure SendRequest where
  allocated : ReqBlock → Bool
  mem : ReqBlock → SendRequestState
  reqsList : List ReqBlock
  frames : List ReqFrame
  owed : List ReqBlock
  nRequests : Nat
  out : List ReqOut

/-- What follows an element; the link of one that is not in the list is NULL. -/
def followers {α : Type*} [DecidableEq α] (l : List α) (i : α) : List α :=
  (l.dropWhile (· ≠ i)).tail

namespace SendRequest

def init : SendRequest where
  allocated := fun _ => false
  mem := fun _ => ⟨0, ⟨0, 0, 0, 0, 0⟩, .sending, 0, 0, false⟩
  reqsList := []
  frames := []
  owed := []
  nRequests := 0
  out := []

def log (s : SendRequest) (o : ReqOut) : SendRequest :=
  { s with out := o :: s.out }

def setMem (s : SendRequest) (i : ReqBlock) (x : SendRequestState) : SendRequest :=
  { s with mem := Function.update s.mem i x }

def membAlloc (s : SendRequest) : Option ReqBlock :=
  (List.finRange 4).find? fun i => !s.allocated i

def membFree (s : SendRequest) (i : ReqBlock) : SendRequest :=
  { s with allocated := Function.update s.allocated i false }

def listRemove (s : SendRequest) (i : ReqBlock) : SendRequest :=
  { s with reqsList := s.reqsList.erase i }

def listAdd (s : SendRequest) (i : ReqBlock) : SendRequest :=
  { s with reqsList := s.reqsList.erase i ++ [i] }

def fail (s : SendRequest) (i : ReqBlock) (frame : ReqFrame) : SendRequest :=
  let s := ((s.setMem i { s.mem i with state := .done, timer := false }).listRemove i).membFree i
  { s.log (.failed (s.mem i).id) with frames := frame :: s.frames }

def requestTimeout (s : SendRequest) (i : ReqBlock) : SendRequest :=
  (s.setMem i { s.mem i with param := { (s.mem i).param with dnode := 0 } }).fail i .timeout

def zwSendRequestCallback (s : SendRequest) (status : UInt8) (i : ReqBlock) : SendRequest :=
  if status = transmitCompleteOk ∧ (s.mem i).state = .sending then
    s.setMem i { s.mem i with state := .waiting, timer := true }
  else s.requestTimeout i

def tsParamMakeReply (env : ReqEnv) (s : SendRequest) (src : ReqParam) : ReqParam where
  snode := src.dnode
  dnode := src.snode
  sendpoint := src.dendpoint
  dendpoint := src.sendpoint
  scheme := env.schemeSelect s.nRequests src

def zwSendRequest (env : ReqEnv) (s : SendRequest) (p : ReqParam) (pData : Mem) (responseCmd : UInt8)
    (callback : Bool) : SendRequest :=
  if !callback then s
  else
    match s.membAlloc with
    | none => s
    | some i =>
      let id := s.nRequests
      let x : SendRequestState :=
        ⟨id, tsParamMakeReply env s p, .sending, pData 0, responseCmd, (s.mem i).timer⟩
      let s := { s with allocated := Function.update s.allocated i true, nRequests := id + 1 }
      let s := (s.listAdd i).setMem i x
      if env.sendDataAppl id then { s.log (.accepted id) with owed := s.owed ++ [i] }
      else (s.listRemove i).membFree i

def abortLoop (s : SendRequest) (n : UInt8) (rest : List ReqBlock) : SendRequest :=
  match rest.find? fun i =>
    decide ((s.mem i).state = .waiting) && (s.mem i).param.snode == n.toUInt16 with
  | some i => s.fail i (.abort n i)
  | none => s

def zwAbortSendRequest (s : SendRequest) (n : UInt8) : SendRequest :=
  s.abortLoop n s.reqsList

def tsParamCmp (a1 a2 : ReqParam) : Bool :=
  a1.snode == a2.snode && a1.dnode == a2.dnode && a1.sendpoint == a2.sendpoint && a1.dendpoint == a2.dendpoint

/-- A frame is the response a request waits for, with the same security scheme. -/
def responds (s : SendRequest) (p : ReqParam) (cls cmd : UInt8) (i : ReqBlock) : Bool :=
  decide ((s.mem i).state = .waiting) && tsParamCmp (s.mem i).param p && (s.mem i).cls == cls &&
    (s.mem i).cmd == cmd && (s.mem i).param.scheme == p.scheme

def applicationCommandHandler (s : SendRequest) (p : ReqParam) (cls cmd : UInt8) : SendRequest :=
  match s.reqsList.find? (s.responds p cls cmd) with
  | some i =>
    let s := (s.setMem i { s.mem i with state := .done, timer := false }).listRemove i
    { s.log (.answered (s.mem i).id) with frames := .response i :: s.frames }
  | none => s

def callbackReturns (s : SendRequest) (more : Bool) : SendRequest :=
  match s.frames with
  | [] => s
  | .timeout :: rest => { s with frames := rest }
  | .abort n i :: rest =>
    let s := { s with frames := rest }
    s.abortLoop n (followers s.reqsList i)
  | .response i :: rest =>
    let s := { s with frames := rest }.log (.returned (s.mem i).id more)
    if more then (s.setMem i { s.mem i with state := .waiting, timer := true }).listAdd i
    else s.membFree i

end SendRequest

/-- What can happen: the calls of the module, and the return of a callback; outside of callbacks also
the callback of a transmission, a frame and a timer. -/
inductive ReqInput where
  | sendRequest (p : ReqParam) (pData : Mem) (responseCmd : UInt8) (callback : Bool)
  | abort (node : NodeId)
  | callbackReturns (more : Bool)
  | transmitted (n : Nat) (status : UInt8)
  | command (p : ReqParam) (cls cmd : UInt8)
  | timeout (i : ReqBlock)

namespace SendRequest

/-- The callers of `ZW_Abort_SendRequest` have a node id, of which its parameter keeps eight bits. -/
def step (env : ReqEnv) (s : SendRequest) : ReqInput → SendRequest
  | .sendRequest p pData responseCmd callback => zwSendRequest env s p pData responseCmd callback
  | .abort node => s.zwAbortSendRequest node.toUInt8
  | .callbackReturns more => s.callbackReturns more
  | .transmitted n status =>
    if s.frames = [] then
      match s.owed[n]? with
      | some i => { s with owed := s.owed.eraseIdx n }.zwSendRequestCallback status i
      | none => s
    else s
  | .command p cls cmd => if s.frames = [] then s.applicationCommandHandler p cls cmd else s
  | .timeout i =>
    if s.frames = [] ∧ (s.mem i).timer = true then s.requestTimeout i else s

def run (env : ReqEnv) (s : SendRequest) (inputs : List ReqInput) : SendRequest :=
  Machine.run (step env) s inputs

end SendRequest

end ZipGateway

import ZipGateway.SendData.Context

/-!
# The send queues

The functions of `ZW_SendDataAppl.c` that move frames through the two queues, with
`zw_frame_buffer.c` and the block pool they use.
-/

namespace ZipGateway

namespace SendDataAppl

/-! ### Blocks and buffers -/

def membAlloc (s : SendDataAppl) : Option (SendBlock × SendDataAppl) :=
  match (List.finRange 8).find? fun i => !s.allocated i with
  | some i => some (i, { s with allocated := Function.update s.allocated i true })
  | none => none

def membFree (s : SendDataAppl) (i : SendBlock) : SendDataAppl :=
  { s with allocated := Function.update s.allocated i false }

/-- `zw_frame_buffer_create`; the buffer for a frame that is too long is freed at once. -/
def zwFrameBufferCreate (env : SendEnv) (s : SendDataAppl) (p : SendParam) (cmd : Mem)
    (length : Nat) : Option FrameBuffer × SendDataAppl :=
  let ok := env.malloc s.nMalloc
  let s := { s with nMalloc := s.nMalloc + 1 }
  if ok && decide (length < frameBufferElementSize) then
    (some ⟨s.nBuffers, p, cmd, length⟩, { s with nBuffers := s.nBuffers + 1, buffers := s.nBuffers :: s.buffers })
  else (none, s)

def zwFrameBufferFree (s : SendDataAppl) (fb : FrameBuffer) : SendDataAppl :=
  { s with buffers := s.buffers.erase fb.id }

def listAdd (l : List SendBlock) (i : SendBlock) : List SendBlock :=
  l.erase i ++ [i]

def setSession (s : SendDataAppl) (i : SendBlock) (x : SendDataApplSession) : SendDataAppl :=
  { s with mem := Function.update s.mem i x }

/-! ### Completion -/

/-- `s->callback(status, …)` of a session of the application. -/
def complete (s : SendDataAppl) (i : SendBlock) (status : UInt8) : SendDataAppl :=
  s.log (.completed (s.mem i).fb.id status)

def callbackEx (env : SendEnv) (s : SendDataAppl) (status : UInt8) (i : SendBlock) (report : Bool) :
    SendDataAppl :=
  if !s.lock then s
  else
    let s := { s with lock := false }
    let fb := (s.mem i).fb
    let s :=
      if status == txOk && report && env.commandAnalyzerIsGet (fb.frameData 0) (fb.frameData 1) then
        { s with backoffNode := fb.param.dnode, backoffTimer := true }
      else s.post .sendNext
    ((s.zwFrameBufferFree fb).membFree i).complete i status

def runCallback (env : SendEnv) (s : SendDataAppl) (cb : SendCallback) (status : UInt8)
    (report : Bool) : SendDataAppl :=
  match cb with
  | .callbackEx user => callbackEx env s status user report
  | _ => s

def sendDataCallbackFunc (env : SendEnv) (s : SendDataAppl) (status : UInt8) (report : Bool)
    (radio : Option Nat) : SendDataAppl :=
  if !s.lockLl then s
  else
    match s.sendDataList with
    | [] => s
    | i :: rest =>
      let x := s.mem i
      let s := match radio with
        | some fb => s.log (.result fb x.fb.id status)
        | none => s
      let s := { s with sendDataList := rest, emergencyTimer := false }
      let s := (s.zwFrameBufferFree x.fb).membFree i
      (runCallback env { s with lockLl := false } x.callback status report).post .sendNextLl

/-- `do_discard_timeout_memb` while the timer runs; the buffer is not freed. -/
def doDiscardTimeoutMemb (env : SendEnv) (s : SendDataAppl) (i : SendBlock) : SendDataAppl :=
  let x := s.mem i
  if !x.discardTimer then s
  else
    let s := s.setSession i { x with discardTimer := false }
    let s := { s with sendDataList := s.sendDataList.erase i }
    runCallback env (s.membFree i) x.callback txFail false

/-! ### Sending -/

/-- `send_data`; without a buffer, the block is not freed. -/
def sendData (env : SendEnv) (s : SendDataAppl) (p : SendParam) (data : Mem) (len : Nat)
    (cb : SendCallback) : Bool × SendDataAppl :=
  match s.membAlloc with
  | none => (false, s)
  | some (i, s) =>
    match zwFrameBufferCreate env s p data len with
    | (none, s) => (false, s)
    | (some fb, s) =>
      let s := s.setSession i { fb, callback := cb, discardTimer := decide (fb.param.discardTimeout ≠ 0) }
      (true, ({ s with sendDataList := listAdd s.sendDataList i }).post .sendNextLl)

def sendEndpoint (env : SendEnv) (s : SendDataAppl) (i : SendBlock) : Bool × SendDataAppl :=
  let route := env.sendEndpoint s.nRoutes
  let s := { s with nRoutes := s.nRoutes + 1 }
  match route with
  | .refused => (false, s)
  | .direct data len => sendData env s (s.mem i).fb.param data len (.callbackEx i)
  | .layered => (true, { s with owedAppl := s.owedAppl ++ [i] })

def sendFirst (env : SendEnv) (s : SendDataAppl) : SendDataAppl :=
  match s.sessionList with
  | [] => { s with currentSession := none }
  | i :: rest =>
    let s := ({ s with sessionList := rest, currentSession := some i, lock := true }).log (.started (s.mem i).fb.id)
    match sendEndpoint env s i with
    | (true, s) => s
    | (false, s) => callbackEx env s txError i false

def zwSendDataAppl (env : SendEnv) (s : SendDataAppl) (p : SendParam) (data : Mem) (len : Nat) :
    SendDataAppl :=
  match s.membAlloc with
  | none => s
  | some (i, s) =>
    let nop := data 0 == commandClassNoOperation && isLrNode p.dnode
    let create := if nop then
        zwFrameBufferCreate env s p (Mem.ofBytes [commandClassNoOperationLr, 0]) 2
      else zwFrameBufferCreate env s p data len
    match create with
    | (none, s) => s.membFree i
    | (some fb, s) =>
      let s := s.setSession i { fb, callback := .application, discardTimer := (s.mem i).discardTimer }
      (({ s with sessionList := listAdd s.sessionList i }).post .sendNext).log (.accepted fb.id (i.val + 1))

/-- `ZW_SendDataApplAbort`; for a session under way the layers below call back, and the buffer of a waiting
one is not freed. -/
def zwSendDataApplAbort (s : SendDataAppl) (handle : Nat) : SendDataAppl :=
  if h : 0 < handle ∧ handle ≤ sessionMembNum then
    let i : SendBlock := ⟨handle - 1, by simp only [sessionMembNum] at h; omega⟩
    if s.currentSession = some i then s
    else if i ∈ s.sessionList then
      (({ s with sessionList := s.sessionList.erase i }).membFree i).complete i txFail
    else s
  else s

/-! ### The process -/

def sendNextLl (env : SendEnv) (s : SendDataAppl) : SendDataAppl :=
  match s.sendDataList with
  | [] => s
  | i :: _ =>
    if s.lockLl then s
    else
      let s := if (s.mem i).fb.param.discardTimeout ≠ 0 then
          s.setSession i { s.mem i with discardTimer := false }
        else s
      let rc := env.radio s.nRadio
      let s := { s with lockLl := true, nRadio := s.nRadio + 1 }
      if rc then
        ({ s with owedRadio := s.owedRadio ++ [(s.mem i).fb.id], emergencyTimer := true }).log
          (.transmitted (s.mem i).fb.id)
      else sendDataCallbackFunc env s txFail false none

def process (env : SendEnv) (s : SendDataAppl) : SendEvent → SendDataAppl
  | .emergencyTimer => sendDataCallbackFunc env s txFail false none
  | .backoffTimer => s.post .sendNext
  | .sendNext => if !s.lock && !s.backoffTimer then sendFirst env s else s
  | .sendNextLl => sendNextLl env s

def frameRxNotify (s : SendDataAppl) (snode : NodeId) : SendDataAppl :=
  if s.backoffTimer && snode == s.backoffNode then
    ({ s with backoffTimer := false }).post .sendNext
  else s

end SendDataAppl

/-- What can happen: the calls of the application and of other layers, the results of the layers
below, the timers, events of other processes, and the delivery of an event to the process. A timer that
expires waits until there is room for its event. -/
inductive SendInput where
  | sendDataAppl (p : SendParam) (data : Mem) (len : Nat)
  | abort (handle : Nat)
  | sendData (p : SendParam) (data : Mem) (len : Nat)
  | layerDone (n : Nat) (status : UInt8) (report : Bool)
  | radioDone (n : Nat) (status : UInt8) (report : Bool)
  | discard (i : SendBlock)
  | emergencyExpires
  | backoffExpires
  | otherEvents (n : Nat)
  | frameRx (snode : NodeId)
  | deliver (n : Nat)

namespace SendDataAppl

def step (env : SendEnv) (s : SendDataAppl) : SendInput → SendDataAppl
  | .sendDataAppl p data len => zwSendDataAppl env s p data len
  | .abort handle => s.zwSendDataApplAbort handle
  | .sendData p data len => (sendData env s p data len .layer).2
  | .layerDone n status report =>
    match s.owedAppl[n]? with
    | some i => callbackEx env { s with owedAppl := s.owedAppl.eraseIdx n } status i report
    | none => s
  | .radioDone n status report =>
    match s.owedRadio[n]? with
    | some fb =>
      sendDataCallbackFunc env { s with owedRadio := s.owedRadio.eraseIdx n } status report (some fb)
    | none => s
  | .discard i => doDiscardTimeoutMemb env s i
  | .emergencyExpires =>
    if s.emergencyTimer && s.room then ({ s with emergencyTimer := false }).post .emergencyTimer else s
  | .backoffExpires =>
    if s.backoffTimer && s.room then ({ s with backoffTimer := false }).post .backoffTimer else s
  | .otherEvents n => if s.posted.length + n ≤ processConfNumevents then { s with others := n } else s
  | .frameRx snode => s.frameRxNotify snode
  | .deliver n =>
    match s.posted[n]? with
    | some e => process env { s with posted := s.posted.eraseIdx n } e
    | none => s

def run (env : SendEnv) (s : SendDataAppl) (inputs : List SendInput) : SendDataAppl :=
  Machine.run (step env) s inputs

def sampleSendEnv : SendEnv where
  malloc := fun _ => true
  sendEndpoint := fun _ => .direct (fun _ => 0x20) 2
  radio := fun _ => true
  commandAnalyzerIsGet := fun _ _ => false

def sampleSendAppl : SendInput :=
  .sendDataAppl ⟨1, 5, 0⟩ (fun _ => 0x20) 2

end SendDataAppl

end ZipGateway

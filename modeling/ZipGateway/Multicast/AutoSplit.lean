import ZipGateway.Lib.Bitmap
import ZipGateway.Packet

/-!
# Multicast to several security classes

`S2_multicast_auto.c` sends one payload to nodes of different security classes, with one multicast of
`S2_wrap.c` for each class, and with follow-ups in a second round. `S2_wrap.c` walks over the nodes of a
class by itself, one follow-up at a time. Both are driven by `S2_send_done_event`.

The answers of the S2 layer to what it is asked to send are a list that is used up.
-/

namespace ZipGateway.MulticastSplit

open Bitmap (Marked mark)

def zwMaxNodes : Nat := 4000

def nodemaskSize : Nat := zwMaxNodes / 8 + 1

def nodeFlagSecurity2Unauthenticated : UInt8 := 0x10
def nodeFlagSecurity2Authenticated : UInt8 := 0x20
def nodeFlagSecurity2Access : UInt8 := 0x40
def nodeFlagsSecurity : UInt8 := 0x73

def mcAutoNoScheme : Nat := 0
def mcAutoC2 : Nat := 3
def mcAutoC2Fu : Nat := 6
def mcAutoIdle : Nat := 7

inductive McState where
  | idle
  | sendFirst
  | send
  | sendFirstNoFollowup
  | abort
deriving DecidableEq, Repr

section Nodemask

def isValid (n : Nat) : Bool :=
  isClassic n || isLr n

def bitOf (n : Nat) : Nat :=
  if isClassic n then n - 1 else n

def testNode (n : Nat) (mask : Mem) : Bool :=
  isValid n ∧ Marked mask (bitOf n)

def addNode (n : Nat) (mask : Mem) : Mem :=
  if isValid n then mark mask (bitOf n) else mask

def isEmptyMask (mask : Mem) : Bool :=
  (List.range nodemaskSize).all fun i => mask i = 0

end Nodemask

def subMaskOf (flags : UInt8) : Option Nat :=
  if flags &&& nodeFlagSecurity2Access ≠ 0 then some 3
  else if flags &&& nodeFlagSecurity2Authenticated ≠ 0 then some 2
  else if flags &&& nodeFlagSecurity2Unauthenticated ≠ 0 then some 1
  else if flags &&& nodeFlagsSecurity = 0 then some 0
  else none

/-- The parameters of a call: the nodes, their security flags, the payload, and whether follow-ups are
requested. -/
structure Call where
  nodeList : Mem
  flags : Nat → UInt8
  data : Bytes
  followups : Bool

/-- The log of a call; a send comes with the class of its key and whether S2 took it. -/
inductive Out where
  | multicast (cls : Nat) (followups : Bool) (nodes : Mem) (data : Bytes) (taken : Bool)
  | followup (cls node : Nat) (data : Bytes) (taken : Bool)
  | aborted
  | called (status : UInt8)

/-- `auto_mc_state` and `mc_state`, which share the node list; `outstanding` is a send that is not completed,
`calls` counts the calls that returned 1. -/
structure State where
  state : Nat
  terminationState : Nat
  nodeList : Mem
  subMask : Nat → Mem
  data : Bytes
  abort : Bool
  mc : McState
  rNode : UInt8
  mcData : Bytes
  s2Class : Nat
  s2SendCallback : Bool
  answers : List Bool
  outstanding : Bool
  calls : Nat
  call : Call
  log : List Out

def Call.blank : Call := ⟨fun _ => 0, fun _ => 0, [], false⟩

def State.init (answers : List Bool) : State where
  state := mcAutoIdle
  terminationState := mcAutoNoScheme
  nodeList := fun _ => 0
  subMask := fun _ _ => 0
  data := []
  abort := false
  mc := .idle
  rNode := 0
  mcData := []
  s2Class := 0
  s2SendCallback := false
  answers := answers
  outstanding := false
  calls := 0
  call := .blank
  log := []

namespace State

variable (s : State)

def put (x : Out) : State :=
  { s with log := s.log ++ [x] }

/-- What the S2 layer says to the next send; when the list is used up it takes everything. -/
def takes : Bool :=
  s.answers.headD true

end State

section Multicast

variable (s : State)

def sendMulticast (s2Class : Nat) (sendScFollowups : Bool) : State × Bool :=
  if s.mc = .idle then
    let t := { s.put (.multicast s2Class sendScFollowups s.nodeList s.data s.takes) with
      rNode := 1
      mcData := s.data
      s2Class := s2Class
      s2SendCallback := true
      answers := s.answers.tail }
    if s.takes then
      ({ t with
        mc := if sendScFollowups then .sendFirst else .sendFirstNoFollowup
        outstanding := true }, true)
    else (t, false)
  else (s, false)

/-- `scheme_state_map`, as the class of the scheme. -/
def classOfState (state : Nat) : Option Nat :=
  match state with
  | 1 | 4 => some 0
  | 2 | 5 => some 1
  | 3 | 6 => some 2
  | _ => none

def nodeMaskMap (state : Nat) : Nat :=
  if state ≤ 3 then state else state - 3

/-- `s2_send_callback_auto`, of at most eight states. -/
def sendCallbackAuto : Nat → State → UInt8 → State
  | 0, s, _ => s
  | n + 1, s, txStatus =>
    if s.state ≠ mcAutoIdle ∧ (s.state = s.terminationState ∨ s.abort = true) then
      { s with state := mcAutoIdle }.put (.called txStatus)
    else
      let state := if s.state = mcAutoIdle then mcAutoNoScheme else s.state + 1
      let t := { s with state := state, nodeList := s.subMask (nodeMaskMap state) }
      if isEmptyMask t.nodeList then sendCallbackAuto n t txStatus
      else
        match classOfState state with
        | none => sendCallbackAuto n t txStatus
        | some s2Class =>
          let r := sendMulticast t s2Class (decide (mcAutoC2 < state))
          if r.2 then r.1 else sendCallbackAuto n r.1 txStatus

def splitNode (call : Call) (subMask : Nat → Mem) (n : Nat) : Nat → Mem :=
  if testNode n call.nodeList then
    match subMaskOf (call.flags n) with
    | some k => Function.update subMask k (addNode n (subMask k))
    | none => subMask
  else subMask

def splitNodes (call : Call) : Nat → Mem :=
  (List.range' 1 zwMaxNodes).foldl (splitNode call) fun _ _ => 0

def sendMulticastAutoSplit (call : Call) : State × Bool :=
  if s.state ≠ mcAutoIdle then (s, false)
  else
    let t := { s with
      abort := false
      terminationState := if call.followups then mcAutoC2Fu else mcAutoC2
      subMask := splitNodes call
      calls := s.calls + 1
      call := call
      log := [] }
    (sendCallbackAuto 8 t transmitCompleteOk, true)

/-- The loop of `S2_send_done_event` over the node ids: the next one in the mask, or the first one that
is not valid. -/
def nextNode (mask : Mem) (rNode : Nat) : Nat :=
  if isValid rNode then
    ((List.range' rNode (zwClassicMaxNodes + 1 - rNode)).find? fun n => testNode n mask).getD (zwClassicMaxNodes + 1)
  else rNode

def s2zwCode (status : UInt8) : UInt8 :=
  if status = 1 then transmitCompleteNoAck else if status = 2 then transmitCompleteFail
  else transmitCompleteOk

def sendDoneCallback (status : UInt8) : State :=
  let t := { s with s2SendCallback := false }
  if s.s2SendCallback then sendCallbackAuto 8 t (s2zwCode status) else t

def nextFollowup (status : UInt8) : State :=
  let r := nextNode s.nodeList s.rNode.toNat
  let t := { s with rNode := UInt8.ofNat r }
  if isValid r then
    let u := { t.put (.followup s.s2Class r s.mcData s.takes) with
      mc := .send
      answers := s.answers.tail }
    if s.takes then { u with outstanding := true }
    else sendDoneCallback { u with mc := .idle } transmitCompleteFail
  else sendDoneCallback { t with mc := .idle } status

def sendDoneEvent (status : UInt8) : State :=
  match s.mc with
  | .idle => sendDoneCallback s status
  | .sendFirstNoFollowup => sendDoneCallback { s with mc := .idle } status
  | .sendFirst => nextFollowup s status
  | .send => nextFollowup { s with rNode := s.rNode + 1 } status
  | .abort => sendDoneCallback { s with mc := .idle, rNode := s.rNode + 1 } transmitCompleteNoAck

end Multicast

/-- What happens: a call, the completion of a send, `sec2_send_multicast_auto_split_abort`, and
`sec2_abort_multicast`. -/
inductive Event where
  | split (call : Call)
  | done (status : UInt8)
  | abortSplit
  | abortMulticast

def step (s : State) : Event → State
  | .split call => (sendMulticastAutoSplit s call).1
  | .done status =>
    if s.outstanding then sendDoneEvent { s with outstanding := false } status else s
  | .abortSplit => { s.put .aborted with abort := true }
  | .abortMulticast =>
    if s.mc ≠ .idle then { s.put .aborted with mc := .abort } else s

def run (answers : List Bool) (events : List Event) : State :=
  Machine.run step (.init answers) events

end ZipGateway.MulticastSplit

import ZipGateway.TransportService.Context

/-!
# The state machine of the Transport Service

The table of `transport2_fsm.c`. The code looks for a transition from the end of the table; an event
without one leaves the state as it is.
-/

namespace ZipGateway

structure T2Transition where
  st : T2State
  ev : T2Event
  nextSt : T2State

def trans : List T2Transition :=
  [⟨.idle, .startRecv, .receiving⟩, ⟨.idle, .startSend, .sendFrag⟩, ⟨.idle, .sendNewFrag, .sendFrag⟩,
   ⟨.sendFrag, .sendNewFrag, .sendFrag⟩,
   ⟨.receiving, .sendNewFrag, .sendFrag⟩,
   ⟨.waitAck, .sendNewFrag, .sendFrag⟩,
   ⟨.receiving, .recvNewFrag, .receiving⟩,
   ⟨.receiving, .duplFrame, .idle⟩,
   ⟨.receiving, .noSessionId, .sendFragWait⟩,
   ⟨.receiving, .scastDiffNode, .sendFragWait⟩,
   ⟨.sendFrag, .scastDiffNode, .sendFragWait⟩,
   ⟨.waitAck, .scastDiffNode, .sendFragWait⟩,
   ⟨.receiving, .diffSession, .idle⟩,
   ⟨.receiving, .subseqDiffSession, .sendFragWait⟩,
   ⟨.receiving, .fragReqComplWaitDiffNode, .idle⟩,
   ⟨.receiving, .fragReqComplWaitDiffSession, .idle⟩,
   ⟨.sendFragWait, .success, .receiving⟩,
   ⟨.sendFragWait, .success2, .sendFrag⟩,
   ⟨.sendFragWait, .success3, .waitAck⟩,
   ⟨.sendFragComplete, .success, .idle⟩,
   ⟨.sendFragReq, .success, .receiving⟩,
   ⟨.receiving, .fragRxTimer, .findMissFrag⟩,
   ⟨.idle, .fragRxTimer, .idle⟩,
   ⟨.receiving, .bcastDiffNode, .receiving⟩,
   ⟨.receiving, .recvLastFrag, .findMissFrag⟩,
   ⟨.waitAck, .sendFragComplete, .sendFragComplete⟩,
   ⟨.receiving, .recvFragCompl, .idle⟩,
   ⟨.waitAck, .fragReqOrCompl, .waitAck⟩,
   ⟨.waitAck, .fragRxTimer, .idle⟩,
   ⟨.receiving, .fragReqOrCompl, .receiving⟩,
   ⟨.sendFrag, .fragReqOrCompl, .receiving⟩,
   ⟨.findMissFrag, .missingFrag, .sendFragReq⟩,
   ⟨.findMissFrag, .missingFragBcast, .idle⟩,
   ⟨.findMissFrag, .sendFragComplete, .sendFragComplete⟩,
   ⟨.findMissFrag, .noSendFragComplete, .idle⟩,
   ⟨.sendFrag, .recvFragWait, .sendFrag⟩,
   ⟨.receiving, .recvFragWait, .sendFrag⟩,
   ⟨.sendFrag, .sendLastFrag, .sendLastFrag⟩,
   ⟨.sendFrag, .sendLastMissFrag, .sendLastFrag⟩,
   ⟨.sendLastFrag, .success, .waitAck⟩,
   ⟨.waitAck, .fragComplTimer, .sendLastFrag⟩,
   ⟨.waitAck, .fragComplTimerReq, .idle⟩,
   ⟨.waitAck, .fragComplTimer2, .idle⟩,
   ⟨.waitAck, .failureLastFrag2, .idle⟩,
   ⟨.waitAck, .recvFragReq, .sendFrag⟩,
   ⟨.receiving, .recvFragReq, .sendFrag⟩,
   ⟨.waitAck, .recvFragCompl, .idle⟩,
   ⟨.sendFrag, .sendNxtMissFrag, .sendFrag⟩,
   ⟨.sendFrag, .fragComplTimer, .idle⟩,
   ⟨.sendFrag, .fragComplTimerReq, .idle⟩,
   ⟨.sendFrag, .sentMissFrag, .waitAck⟩,
   ⟨.sendFrag, .tieBreak, .receiving⟩,
   ⟨.sendLastFrag, .tieBreak, .receiving⟩,
   ⟨.waitAck, .recvFragWait, .sendFrag⟩,
   ⟨.sendLastFrag, .fail, .idle⟩,
   ⟨.waitAck, .tieBreak, .receiving⟩]

def findTransition (cstate : T2State) (event : T2Event) : Option T2Transition :=
  trans.reverse.find? fun t => t.st == cstate && t.ev == event

namespace TransportService

def t2SmPostEvent (s : TransportService) (ev : T2Event) : TransportService :=
  match findTransition s.currentState ev with
  | some t => { s with currentState := t.nextSt }
  | none => s

theorem t2SmPostEvent_eq (s : TransportService) (ev : T2Event) :
    s.t2SmPostEvent ev = { s with currentState := (s.t2SmPostEvent ev).currentState } := by
  unfold t2SmPostEvent
  split <;> rfl

/-- `recv_or_send() == 1`. -/
def isReceving (s : TransportService) : Bool :=
  match s.currentState with
  | .receiving | .sendFragComplete | .sendFragReq | .sendFragWait | .findMissFrag => true
  | _ => false

/-- `recv_or_send() == 0`. -/
def isSending (s : TransportService) : Bool :=
  match s.currentState with
  | .sendFrag | .sendLastFrag | .waitAck => true
  | _ => false

end TransportService

end ZipGateway

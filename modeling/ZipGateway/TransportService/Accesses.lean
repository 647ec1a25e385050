import ZipGateway.TransportService.Receive

/-!
# The places the code computes

The arrays of `transport_service2.c` are functions in the model and its divisions are total, so the state says
nothing of the entries that are touched and of what is divided by. `accesses` lists them for an event, function
by function as the code makes them: the session ids that index the two completion lists, the bytes of the
receive buffer and of its bitmap, and the divisors of `send_frag_wait_cmd` and `send_first_frag`. `copies` lists
the calls of `reply_frag_req` that copy from the datagram, by the states they are made in.
-/

namespace ZipGateway

inductive Access where
  | fragComplList (session : Nat)
  | recvFragComplList (session : Nat)
  | bytesRecvdBitmask (i : Nat)
  | datagramData (offset size : Nat)
  | quotient (divisor : Nat)
deriving DecidableEq, Repr

/-- `frag_compl_list` has 15 entries and `recv_frag_compl_list` 16. -/
def Access.InBounds : Access → Prop
  | .fragComplList session => session < 15
  | .recvFragComplList session => session < 16
  | .bytesRecvdBitmask i => i < datagramSizeMax / 8 + 1
  | .datagramData offset size => offset + size ≤ datagramSizeMax
  | .quotient divisor => divisor ≠ 0

instance : (a : Access) → Decidable a.InBounds
  | .fragComplList session => inferInstanceAs (Decidable (session < 15))
  | .recvFragComplList session => inferInstanceAs (Decidable (session < 16))
  | .bytesRecvdBitmask i => inferInstanceAs (Decidable (i < datagramSizeMax / 8 + 1))
  | .datagramData offset size => inferInstanceAs (Decidable (offset + size ≤ datagramSizeMax))
  | .quotient divisor => inferInstanceAs (Decidable (divisor ≠ 0))

namespace Access

def AllInBounds (accesses : List Access) : Prop :=
  ∀ a ∈ accesses, a.InBounds

instance (accesses : List Access) : Decidable (AllInBounds accesses) :=
  inferInstanceAs (Decidable (∀ a ∈ accesses, a.InBounds))

theorem allInBounds_nil : AllInBounds [] :=
  fun _ hmem => absurd hmem List.not_mem_nil

theorem AllInBounds.cons {a : Access} {accesses : List Access} (ha : a.InBounds)
    (h : AllInBounds accesses) : AllInBounds (a :: accesses) :=
  List.forall_mem_cons.mpr ⟨ha, h⟩

theorem AllInBounds.append {first second : List Access} (hfirst : AllInBounds first)
    (hsecond : AllInBounds second) : AllInBounds (first ++ second) :=
  List.forall_mem_append.mpr ⟨hfirst, hsecond⟩

end Access

def markAccesses (i : Nat) : Nat → List Access
  | 0 => []
  | size + 1 => .bytesRecvdBitmask (i / 8) :: if datagramSizeMax < i then [] else markAccesses (i + 1) size

namespace TransportService

def sendFirstFragAccesses (env : TsEnv) (s : TransportService) : List Access :=
  let s := startSession env s
  [.fragComplList s.scb.cmn.sessionId, .quotient s.takeFirstFrag.scb.datalenToSend]

def sendSubseqFragAccesses (s : TransportService) : List Access :=
  [.fragComplList s.scb.cmn.sessionId]

def replyFragReqAccesses (s : TransportService) : List Access :=
  [.fragComplList s.scb.cmn.sessionId]

def sendFragWaitCmdAccesses (s : TransportService) : List Access :=
  if s.scb.sending then []
  else if s.rcb.cmn.sessionId = noSession then []
  else [.quotient s.rcb.curRecvdDataSize]

def sendFragWaitOrFlagAccesses (s : TransportService) : List Access :=
  if s.scb.sending then [] else s.sendFragWaitCmdAccesses

def tsSenddataCbAccesses (s : TransportService) : List Access :=
  if s.scb.flagReplyFragReq then replyFragReqAccesses { s with scb.flagReplyFragReq := false }
  else if s.flagSendFragWait then (s.setFlagSendFragWait false).sendFragWaitCmdAccesses
  else []

def markFragReceivedAccesses (s : TransportService) (offset size : Nat) : List Access :=
  if offset ≠ 0 ∧ s.rcb.bytesRecvdBitmask 0 &&& 1 = 0 then
    (s.t2SmPostEvent .subseqDiffSession).sendFragWaitOrFlagAccesses
  else markAccesses offset size

def sendFragCompleteCmdAccesses (s : TransportService) : List Access :=
  if 0x0f < s.rcb.cmn.sessionId then []
  else [.datagramData 0 s.rcb.datagramSize, .recvFragComplList s.rcb.cmn.sessionId]

def findMissingAccesses (s : TransportService) : List Access :=
  if s.getNextMissingOffset % 256 ≠ 0 then []
  else if s.rcb.cmn.p.rxFlags = receiveStatusTypeBroad then []
  else (s.t2SmPostEvent .sendFragComplete).sendFragCompleteCmdAccesses

def rxTimerExpiredAccesses (s : TransportService) : List Access :=
  let s := (s.ctimerStop .rx).t2SmPostEvent .fragRxTimer
  if s.rcb.rxDataState ∧ s.getNextMissingOffset ≠ 0 then [] else s.findMissingAccesses

def finishFirstFragmentAccesses (m : Bool × TransportService) : List Access :=
  if m.1 then []
  else if m.2.rcb.curRecvdDataSize = m.2.rcb.datagramSize then
    (m.2.t2SmPostEvent .sendFragComplete).sendFragCompleteCmdAccesses
  else []

def receiveFirstFragmentAccesses (env : TsEnv) (s : TransportService) (pCmd : Mem) (len : Nat) : List Access :=
  let size := len - firstFragNonpayloadLength
  if len ≤ firstFragNonpayloadLength ∨ fcsOk pCmd len = false then []
  else if fragSession pCmd ≠ s.rcb.cmn.sessionId ∧ s.rcb.cmn.sessionId ≠ noSession then []
  else if datagramSizeMax < fragDatagramSize pCmd then []
  else
    .recvFragComplList (fragSession pCmd) :: .datagramData 0 size ::
      ((s.openSession pCmd len).markFragReceivedAccesses 0 size ++
        finishFirstFragmentAccesses (markFragReceived env (s.openSession pCmd len) 0 size))

def finishSubseqFragmentAccesses (m : Bool × TransportService) (pCmd : Mem) (size : Nat) : List Access :=
  if m.1 then []
  else
    .datagramData (fragDatagramOffset pCmd) size ::
      if fragDatagramSize pCmd ≤ fragDatagramOffset pCmd + size then
        ((m.2.storeSubseqFragment pCmd size).t2SmPostEvent .recvLastFrag).findMissingAccesses
      else []

def receiveSubsequentFragmentAccesses (env : TsEnv) (s : TransportService) (pCmd : Mem) (len : Nat) : List Access :=
  let size := len - subseqFragNonpayloadLength
  let t := (s.setCurRecvdDataSize size).ctimerSet .rx
  if len ≤ subseqFragNonpayloadLength ∨ fcsOk pCmd len = false then []
  else
    .recvFragComplList (fragSession pCmd) ::
      if s.rcb.recvFragComplList (fragSession pCmd) then []
      else if fragSession pCmd ≠ s.rcb.cmn.sessionId ∧ s.rcb.cmn.sessionId ≠ noSession then []
      else if datagramSizeMax < fragDatagramOffset pCmd + size then []
      else if datagramSizeMax < fragDatagramSize pCmd then []
      else
        t.markFragReceivedAccesses (fragDatagramOffset pCmd) size ++
          finishSubseqFragmentAccesses (markFragReceived env t (fragDatagramOffset pCmd) size) pCmd size

def acceptSegmentRequestAccesses (s : TransportService) (pCmd : Mem) : List Access :=
  let s := ({ s.ctimerStop .fc with scb.missingOffset := segmentOffset pCmd }).t2SmPostEvent .recvFragReq
  if s.scb.sending then [] else s.replyFragReqAccesses

def receiveSegmentRequestAccesses (s : TransportService) (pCmd : Mem) : List Access :=
  match s.segmentRefused pCmd with
  | some _ => []
  | none => s.acceptSegmentRequestAccesses pCmd

def receiveSegmentCompleteAccesses (s : TransportService) (pCmd : Mem) : List Access :=
  match s.segmentRefused pCmd with
  | some _ => []
  | none => [.fragComplList (segmentSession pCmd)]

def receiveSegmentWaitAccesses (s : TransportService) : List Access :=
  .fragComplList s.scb.cmn.sessionId ::
    if s.scb.fragComplList s.scb.cmn.sessionId then []
    else
      let s := s.t2SmPostEvent .recvFragWait
      tsSenddataCbAccesses { s with scb.transmissionAborted := s.scb.cmn.sessionId }

def receiveAccesses (env : TsEnv) (s : TransportService) (pCmd : Mem) (len : Nat) : List Access :=
  if pCmd 0 ≠ commandClassTransportService then []
  else if cmdType pCmd = commandFirstFragment then
    receiveFirstFragmentAccesses env s.abortIfTieBroken pCmd len
  else if cmdType pCmd = commandSubsequentFragment then
    receiveSubsequentFragmentAccesses env s.abortIfTieBroken pCmd len
  else if cmdType pCmd = commandSegmentRequest then
    (s.t2SmPostEvent .fragReqOrCompl).receiveSegmentRequestAccesses pCmd
  else if cmdType pCmd = commandSegmentComplete then
    (s.t2SmPostEvent .fragReqOrCompl).receiveSegmentCompleteAccesses pCmd
  else if cmdType pCmd = commandSegmentWait then s.receiveSegmentWaitAccesses
  else []

def refuseThirdNodeAccesses (s : TransportService) : List Access :=
  if s.currentState = .sendFragWait then [] else (s.t2SmPostEvent .scastDiffNode).sendFragWaitOrFlagAccesses

def refuseSubseqFragmentAccesses (s : TransportService) (pCmd : Mem) : List Access :=
  if datagramSizeMax < fragDatagramSize pCmd then []
  else (s.t2SmPostEvent .subseqDiffSession).sendFragWaitOrFlagAccesses

def filterFrameAccesses (env : TsEnv) (s : TransportService) (p : TsParam) (pCmd : Mem) (len : Nat) : List Access :=
  if s.fromThirdNode p ∧ p.rxFlags = receiveStatusTypeSingle then s.refuseThirdNodeAccesses
  else if s.fromThirdNode p ∧ p.rxFlags = receiveStatusTypeBroad then []
  else if s.rcb.cmn.sessionId = noSession ∧ cmdType pCmd = commandSubsequentFragment then
    s.refuseSubseqFragmentAccesses pCmd
  else receiveAccesses env (s.postRecv.initializeOnce.setRcbP p) pCmd len

def applicationCommandHandlerAccesses (env : TsEnv) (s : TransportService) (p : TsParam) (pCmd : Mem)
    (cmdLength : UInt8) : List Access :=
  let s := tieBreak env ((s.log (.received p pCmd cmdLength.toNat)).ctimerSet .reset) p
  if p.snode = p.dnode ∨ datagramSizeMax < cmdLength.toNat then []
  else filterFrameAccesses env (s.setFragWaitP p) p pCmd cmdLength.toNat

def sendDataAccesses (env : TsEnv) (s : TransportService) (p : TsParam) (pData : Mem) (dataLength : UInt16) :
    List Access :=
  let call := s.nCalls
  let s := ({ s with nCalls := call + 1 }).ctimerSet .reset
  if s.isSending || s.isReceving then []
  else
    sendFirstFragAccesses env ((s.log (.called call p true)).acceptSendData call p pData dataLength).postStartSend

def expireAccesses (env : TsEnv) (s : TransportService) : Timer → List Access
  | .fc => []
  | .rx => s.rxTimerExpiredAccesses
  | .reset => []
  | .waitRestart => sendFirstFragAccesses env s
  | .btwn2Frags => s.sendSubseqFragAccesses

def accesses (env : TsEnv) (s : TransportService) : TsEvent → List Access
  | .sendData p pData dataLength => sendDataAccesses env s p pData dataLength
  | .frame p pCmd cmdLength => applicationCommandHandlerAccesses env s p pCmd cmdLength
  | .transmitDone cb _ =>
    if cb = .tsSenddataCb ∧ cb ∈ s.owed then tsSenddataCbAccesses { s with owed := s.owed.erase cb } else []
  | .expired t => if s.timers t then expireAccesses env (s.ctimerStop t) t else []

/-! ## The replies to segment requests -/

def replyFragReqCopies (s : TransportService) : List TransportService :=
  if s.scb.fragComplList s.scb.cmn.sessionId then [] else [s]

def tsSenddataCbCopies (s : TransportService) : List TransportService :=
  if s.scb.flagReplyFragReq then replyFragReqCopies { s with scb.flagReplyFragReq := false } else []

def receiveSegmentRequestCopies (s : TransportService) (pCmd : Mem) : List TransportService :=
  match s.segmentRefused pCmd with
  | some _ => []
  | none =>
    let s := ({ s.ctimerStop .fc with scb.missingOffset := segmentOffset pCmd }).t2SmPostEvent .recvFragReq
    if s.scb.sending then [] else s.replyFragReqCopies

def receiveSegmentWaitCopies (s : TransportService) : List TransportService :=
  if s.scb.fragComplList s.scb.cmn.sessionId then []
  else
    let s := s.t2SmPostEvent .recvFragWait
    tsSenddataCbCopies { s with scb.transmissionAborted := s.scb.cmn.sessionId }

def receiveCopies (s : TransportService) (pCmd : Mem) : List TransportService :=
  if pCmd 0 ≠ commandClassTransportService then []
  else if cmdType pCmd = commandSegmentRequest then
    (s.t2SmPostEvent .fragReqOrCompl).receiveSegmentRequestCopies pCmd
  else if cmdType pCmd = commandSegmentWait then s.receiveSegmentWaitCopies
  else []

def filterFrameCopies (s : TransportService) (p : TsParam) (pCmd : Mem) : List TransportService :=
  if s.fromThirdNode p ∧ (p.rxFlags = receiveStatusTypeSingle ∨ p.rxFlags = receiveStatusTypeBroad) then []
  else if s.rcb.cmn.sessionId = noSession ∧ cmdType pCmd = commandSubsequentFragment then []
  else receiveCopies (s.postRecv.initializeOnce.setRcbP p) pCmd

def applicationCommandHandlerCopies (env : TsEnv) (s : TransportService) (p : TsParam) (pCmd : Mem)
    (cmdLength : UInt8) : List TransportService :=
  let s := tieBreak env ((s.log (.received p pCmd cmdLength.toNat)).ctimerSet .reset) p
  if p.snode = p.dnode ∨ datagramSizeMax < cmdLength.toNat then []
  else filterFrameCopies (s.setFragWaitP p) p pCmd

def copies (env : TsEnv) (s : TransportService) : TsEvent → List TransportService
  | .frame p pCmd cmdLength => applicationCommandHandlerCopies env s p pCmd cmdLength
  | .transmitDone cb _ =>
    if cb = .tsSenddataCb ∧ cb ∈ s.owed then tsSenddataCbCopies { s with owed := s.owed.erase cb } else []
  | _ => []

end TransportService

end ZipGateway

import ZipGateway.S2.Context

/-!
# The SPAN, MPAN and MOS tables

Lookups allocate: a peer or group without an entry takes a free one, and when the table is full a
random one, whose owner thereby loses its synchronization. The lookups of `S2_span_ok`,
`S2_verify_seq` and `S2_send_nonce_report` therefore change the context.
-/

namespace ZipGateway

def SpanState.usable : SpanState → Bool
  | .negotiated | .sosRemoteNonce => true
  | _ => false

namespace S2

variable (env : Env)

def randomEntry (rnd : Block) : Fin 254 :=
  ⟨rnd[0].toNat % 254, Nat.mod_lt _ (by decide)⟩

def spanMatches (con : Connection) (span : Span) : Bool :=
  span.state != .notUsed && span.lnode == con.lNode && span.rnode == con.rNode

/-- The entry of a connection, or one taken for it, which keeps the class, generator and received sequence
number it had. -/
def findSpanByNode (s : S2) (con : Connection) : SpanRef × S2 :=
  match (List.finRange spanTableSize).find? fun i => spanMatches con (s.spanTable i) with
  | some i => (i, s)
  | none =>
    let rnd := (s.ctrDrbgGenerate env).1
    let s := (s.ctrDrbgGenerate env).2
    let i :=
      ((List.finRange spanTableSize).find? fun i => (s.spanTable i).state == .notUsed).getD (randomEntry rnd)
    (i, s.setSpan i { s.spanTable i with
        state := .noSeq, lnode := con.lNode, rnode := con.rNode, txSeq := rnd[1] })

def mpanMatches (s : S2) (ownerId : NodeId) (groupId : UInt8) (mpan : Mpan) : Bool :=
  mpan.state != .notUsed && mpan.groupId == groupId && mpan.ownerId == ownerId && s.classLoaded mpan.classId

def findMpanByGroupId (s : S2) (ownerId : NodeId) (groupId : UInt8) (createNew : Bool) : Option MpanRef × S2 :=
  match (List.finRange mpanTableSize).find? fun i =>
      s.mpanMatches ownerId groupId (s.mpanTable i) with
  | some i => (some i, s)
  | none =>
    if createNew then
      let rnd := (s.ctrDrbgGenerate env).1
      let s := (s.ctrDrbgGenerate env).2
      let i :=
        ((List.finRange mpanTableSize).find? fun i => (s.mpanTable i).state == .notUsed).getD (randomEntry rnd)
      let innerState := (s.ctrDrbgGenerate env).1
      let s := (s.ctrDrbgGenerate env).2
      (some i, s.setMpan i
        { ownerId := ownerId, groupId := groupId, innerState := innerState
          classId := s.peer.classId, state := if ownerId = 0 then .set else .mos })
    else
      (none, s)

def spanOk (s : S2) (con : Connection) : Bool × S2 :=
  let i := (s.findSpanByNode env con).1
  let s := (s.findSpanByNode env con).2
  ((s.spanTable i).state.usable && (s.spanTable i).classId == con.classId, s)

/-- A frame is a duplicate when its sequence number is one of the last `S2_SEQ_DUPL_WINDOW_SIZE`
ones; a new entry takes whatever comes. -/
def verifySeq (s : S2) (con : Connection) (seq : UInt8) : Bool × S2 :=
  let i := (s.findSpanByNode env con).1
  let s := (s.findSpanByNode env con).2
  let span := s.spanTable i
  if span.state = .noSeq ∨ span.rxSeq - seq ≥ seqDuplWindowSize then
    (true, s.setSpan i { span with rxSeq := seq })
  else
    (false, s)

def isNodeMos (s : S2) (node : NodeId) : Bool :=
  (List.finRange mosListLength).any fun i => (s.mosList i).nodeId == node

def isFollowup (txOptions : UInt8) : Bool :=
  txOptions &&& (txoptionSinglecastFollowup ||| txoptionFirstSinglecastFollowup) != 0

def setNodeMos (s : S2) (node : NodeId) : S2 :=
  match s.mpan with
  | some m =>
    if (s.fsm = .verifyingDelivery ∨ s.fsm = .sendingMsg) ∧ isFollowup s.peer.txOptions then
      match (List.finRange mosListLength).find? fun i => (s.mosList i).nodeId == 0 with
      | some i =>
        { s with
          mosList := Function.update s.mosList i { nodeId := node, groupId := (s.mpanTable m).groupId } }
      | none => s
    else s
  | none => s

def bigintAdd : (carry : Nat) → Bytes → Bytes → Bytes
  | carry, a :: as, b :: bs =>
    UInt8.ofNat (a.toNat + b.toNat + carry) :: bigintAdd ((a.toNat + b.toNat + carry) / 256) as bs
  | _, _, _ => []

def nextMpanState (mpan : Mpan) : Mpan :=
  { mpan with
    innerState := Block.ofBytes (bigintAdd 0 mpan.innerState.toList [0, 0, 0, 0, 0, 0, 0, 0, 0, 0, 0, 0, 0, 0, 0, 1]) }

def freeMpan (s : S2) (ownerId : NodeId) (groupId : UInt8) : S2 :=
  match (List.finRange mpanTableSize).find? fun i =>
      (s.mpanTable i).groupId == groupId && (s.mpanTable i).ownerId == ownerId with
  | some i => s.setMpan i { s.mpanTable i with state := .notUsed }
  | none => s

def sendNonceReport (s : S2) (con : Connection) (flags : UInt8) : S2 :=
  let i := (s.findSpanByNode env con).1
  let s := (s.findSpanByNode env con).2
  let header := [commandClassSecurity2, security2NonceReport, (s.spanTable i).txSeq, flags]
  if flags &&& nonceReportSos != 0 then
    let rnd := (s.ctrDrbgGenerate env).1
    let s := (s.ctrDrbgGenerate env).2
    let span := s.spanTable i
    let s := s.setSpan i { span with
        state := .sosLocalNonce, d := { span.d with rNonce := rnd }, txSeq := span.txSeq + 1 }
    s.log (.sendFrameNoCb con (header ++ rnd.toList))
  else
    let span := s.spanTable i
    let s := s.setSpan i { span with txSeq := span.txSeq + 1 }
    s.log (.sendFrameNoCb con header)

def storeNonce (s : S2) (i : SpanRef) (buf : Mem) (len : Nat) : S2 :=
  if len ≥ 4 + 16 ∧ buf 3 &&& nonceReportSos ≠ 0 then
    let span := s.spanTable i
    s.setSpan i { span with
        d := { span.d with rNonce := Block.ofBytes (buf.slice 4 16) }
        state := .sosRemoteNonce }
  else
    s

def storeMos (s : S2) (buf : Mem) (len : Nat) : S2 :=
  if buf 3 &&& nonceReportMos ≠ 0 ∧ len ≥ 3 then s.setNodeMos s.peer.rNode else s

/-- `S2_register_nonce`; the flags it returns are read whether or not the frame holds them. -/
def registerNonce (s : S2) (buf : Mem) (len : Nat) : UInt8 × S2 :=
  let seqOk := (s.verifySeq env s.peer (buf 2)).1
  let s := (s.verifySeq env s.peer (buf 2)).2
  if seqOk then
    let i := (s.findSpanByNode env s.peer).1
    let s := (s.findSpanByNode env s.peer).2
    (buf 3, (s.storeNonce i buf len).storeMos buf len)
  else
    (0, s)

def isPeernode (s : S2) (con : Connection) : Bool :=
  con.lNode == s.peer.lNode && con.rNode == s.peer.rNode

def setPeer (s : S2) (con : Connection) (buf : Bytes) : S2 :=
  { s with peer := con, buf := .ofBytes buf, length := buf.length }

end ZipGateway.S2

import ZipGateway.Lib.Bitmap
import ZipGateway.TransportService.Receive

/-!
# What the reassembly of datagrams depends on

The sending side, the timers but one, and the answers to segment commands do not touch the
reassembly. `reassembly` is the part of the state they leave alone.
-/

set_option maxRecDepth 8000

namespace ZipGateway

def TsOut.concernsReceiver : TsOut → Bool
  | .received .. => true
  | .opened .. => true
  | .delivered .. => true
  | .discarded => true
  | _ => false

structure Reassembly where
  fresh : Bool
  rxTimer : Bool
  session : Nat
  source : NodeId
  peer : NodeId
  dest : NodeId
  size : Nat
  data : Mem
  mask : Mem
  completed : Nat → Bool
  history : List TsOut

variable (p : TsParam)

namespace TransportService

def reassembly (s : TransportService) : Reassembly where
  fresh := s.flagInitializeOnce
  rxTimer := s.timers .rx
  session := s.rcb.cmn.sessionId
  source := s.rcb.currentSnode
  peer := s.rcb.cmn.p.snode
  dest := s.rcb.cmn.p.dnode
  size := s.rcb.datagramSize
  data := s.rcb.datagramData
  mask := s.rcb.bytesRecvdBitmask
  completed := s.rcb.recvFragComplList
  history := s.out.filter TsOut.concernsReceiver

section Inert

variable (s : TransportService)

@[simp]
theorem reassembly_mk (scb : SendingCntrlBlk) (st : T2State) (tie : Bool) (max : Nat) (buf : Mem)
    (owed : List TxCallback) (nCalls nRaw nLast nRand : Nat) :
    reassembly { s with
      scb := scb, currentState := st, flagTieBroken := tie, fragmentMaxPayload := max
      t2TxBuf := buf, owed := owed, nCalls := nCalls, nRaw := nRaw, nLast := nLast
      nRand := nRand } = s.reassembly := rfl

@[simp]
theorem reassembly_t2SmPostEvent (ev : T2Event) : (s.t2SmPostEvent ev).reassembly = s.reassembly := by
  rw [t2SmPostEvent_eq]
  exact reassembly_mk ..

theorem reassembly_log (o : TsOut) : (s.log o).reassembly = { s.reassembly with
      history := if o.concernsReceiver then o :: s.reassembly.history else s.reassembly.history } := by
  simp only [reassembly, log, List.filter_cons]

@[simp]
theorem reassembly_ctimerSet (t : Timer) : (s.ctimerSet t).reassembly =
    { s.reassembly with rxTimer := s.reassembly.rxTimer || decide (t = .rx) } := by
  cases t <;> simp [reassembly, ctimerSet, Function.update]

@[simp]
theorem reassembly_ctimerStop (t : Timer) : (s.ctimerStop t).reassembly =
    { s.reassembly with rxTimer := s.reassembly.rxTimer && decide (t ≠ .rx) } := by
  cases t <;> simp [reassembly, ctimerStop, Function.update]

@[simp]
theorem reassembly_setFragComplList (i : Nat) (b : Bool) : (s.setFragComplList i b).reassembly = s.reassembly := rfl

@[simp]
theorem reassembly_setFlagSendFragWait (b : Bool) : (s.setFlagSendFragWait b).reassembly = s.reassembly := rfl

@[simp]
theorem reassembly_handOver (snode dnode : NodeId) (frame : Bytes) (txFlags : UInt8)
    (cb : Option TxCallback) (ok : Bool) :
    (s.handOver snode dnode frame txFlags cb ok).reassembly = s.reassembly := rfl

@[simp]
theorem reassembly_tsSendRaw (env : TsEnv) (snode dnode : NodeId) (buf : Mem) (len : Nat)
    (txFlags : UInt8) (cb : Option TxCallback) :
    (s.tsSendRaw env snode dnode buf len txFlags cb).2.reassembly = s.reassembly := rfl

@[simp]
theorem reassembly_complete (status : UInt8) : (s.complete status).reassembly = s.reassembly := by
  unfold complete
  split
  · exact reassembly_log ..
  · rfl

@[simp]
theorem reassembly_sendFragment (env : TsEnv) (len : Nat) (cb : TxCallback) :
    (s.sendFragment env len cb).2.reassembly = s.reassembly := rfl

@[simp]
theorem reassembly_fillSubseqFrag (offset : Nat) : (s.fillSubseqFrag offset).reassembly = s.reassembly := rfl

@[simp]
theorem reassembly_fillFirstFrag : s.fillFirstFrag.reassembly = s.reassembly := rfl

@[simp]
theorem reassembly_tryLastFrag (ok : Bool) : (s.tryLastFrag ok).reassembly = s.reassembly := by
  simp [tryLastFrag]

@[simp]
theorem reassembly_retryLastFrag (refusals : Nat) : (retryLastFrag refusals s).reassembly = s.reassembly := by
  induction refusals generalizing s with
  | zero => exact reassembly_tryLastFrag s true
  | succ refusals ih => rw [retryLastFrag, ih, reassembly_tryLastFrag]

variable (env : TsEnv)

@[simp]
theorem reassembly_awaitFragComplete : s.awaitFragComplete.reassembly = s.reassembly := by
  unfold awaitFragComplete
  split <;> simp

@[simp]
theorem reassembly_sendLastFrag : (sendLastFrag env s).reassembly = s.reassembly := by
  simp [sendLastFrag]

@[simp]
theorem reassembly_takeSubseqFrag : s.takeSubseqFrag.reassembly = s.reassembly := rfl

@[simp]
theorem reassembly_buildSubseqFrag : s.buildSubseqFrag.reassembly = s.reassembly := rfl

@[simp]
theorem reassembly_advanceSubseqFrag (r : Bool × TransportService) :
    (advanceSubseqFrag r).reassembly = r.2.reassembly := by
  unfold advanceSubseqFrag
  dsimp only
  split <;> rfl

@[simp]
theorem reassembly_sendSubseqFrag : (sendSubseqFrag env s).reassembly = s.reassembly := by
  unfold sendSubseqFrag emitSubseqFrag
  dsimp only
  split
  · simp
  · split <;> simp

@[simp]
theorem reassembly_startSession : (startSession env s).reassembly = s.reassembly := rfl

@[simp]
theorem reassembly_takeFirstFrag : s.takeFirstFrag.reassembly = s.reassembly := rfl

@[simp]
theorem reassembly_sendFirstFrag : (sendFirstFrag env s).reassembly = s.reassembly := by
  unfold sendFirstFrag emitFirstFrag
  dsimp only
  split
  · simp
  · split <;> simp

@[simp]
theorem reassembly_takeMissingFrag : s.takeMissingFrag.reassembly = s.reassembly := rfl

@[simp]
theorem reassembly_replyFragReq : (replyFragReq env s).reassembly = s.reassembly := by
  unfold replyFragReq emitMissingFrag
  dsimp only
  split
  · rfl
  · split <;> simp

@[simp]
theorem reassembly_sendFragWaitCmd : (sendFragWaitCmd env s).reassembly = s.reassembly := by
  unfold sendFragWaitCmd sendFragWaitSending sendFragWaitReceiving
  split
  · simp
  · rw [reassembly_t2SmPostEvent, reassembly_tsSendRaw]
    exact reassembly_ctimerSet s .reset |>.trans (by simp)

@[simp]
theorem reassembly_tsSenddataCb : (tsSenddataCb env s).reassembly = s.reassembly := by
  unfold tsSenddataCb
  split
  · simp
  · split
    · simp
    · split <;> simp

@[simp]
theorem reassembly_tempCallbackReplyFragReq (status : UInt8) :
    (s.tempCallbackReplyFragReq status).reassembly = s.reassembly := by
  unfold tempCallbackReplyFragReq
  dsimp only
  split <;> simp

@[simp]
theorem reassembly_fcTimerExpired : (fcTimerExpired env s).reassembly = s.reassembly := by
  unfold fcTimerExpired
  dsimp only
  split
  · simp
  · split
    · simp
    · split <;> simp

@[simp]
theorem reassembly_acceptSendData (call : Nat) (p : TsParam) (pData : Mem) (dataLength : UInt16) :
    (s.acceptSendData call p pData dataLength).reassembly = s.reassembly := rfl

@[simp]
theorem reassembly_postStartSend : s.postStartSend.reassembly = s.reassembly := by
  unfold postStartSend
  split <;> simp

@[simp]
theorem reassembly_sendData (pData : Mem) (dataLength : UInt16) :
    (sendData env s p pData dataLength).reassembly = s.reassembly := by
  unfold sendData
  dsimp only
  split <;> simp [reassembly_log, TsOut.concernsReceiver]

@[simp]
theorem reassembly_sendFragWaitOrFlag : (sendFragWaitOrFlag env s).reassembly = s.reassembly := by
  unfold sendFragWaitOrFlag
  split <;> simp

@[simp]
theorem reassembly_abortIfTieBroken : s.abortIfTieBroken.reassembly = s.reassembly := by
  unfold abortIfTieBroken
  split <;> rfl

@[simp]
theorem reassembly_dropDuplicate : s.dropDuplicate.reassembly = s.reassembly := by
  unfold dropDuplicate
  split <;> simp

@[simp]
theorem reassembly_receiveSegmentRequest (pCmd : Mem) :
    (receiveSegmentRequest env s pCmd).reassembly = s.reassembly := by
  unfold receiveSegmentRequest acceptSegmentRequest
  dsimp only
  split
  · simp
  · split <;> simp

@[simp]
theorem reassembly_receiveSegmentComplete (pCmd : Mem) : (s.receiveSegmentComplete pCmd).reassembly = s.reassembly := by
  unfold receiveSegmentComplete acceptSegmentComplete
  split <;> simp

theorem reassembly_pendingSegments (n : Nat) : reassembly { s with rcb.cmn.pendingSegments := n } = s.reassembly := rfl

@[simp]
theorem reassembly_receiveSegmentWait (pCmd : Mem) : (receiveSegmentWait env s pCmd).reassembly = s.reassembly := by
  unfold receiveSegmentWait
  dsimp only
  split
  · simp
  · rw [reassembly_ctimerSet, reassembly_pendingSegments]
    simp

@[simp]
theorem reassembly_tieBreak : (tieBreak env s p).reassembly = s.reassembly := by
  unfold tieBreak
  split <;> simp

@[simp]
theorem reassembly_refuseThirdNode : (refuseThirdNode env s).reassembly = s.reassembly := by
  unfold refuseThirdNode
  split <;> simp

@[simp]
theorem reassembly_refuseSubseqFragment (pCmd : Mem) : (refuseSubseqFragment env s pCmd).reassembly = s.reassembly := by
  unfold refuseSubseqFragment
  split <;> simp

@[simp]
theorem reassembly_postRecv : s.postRecv.reassembly = s.reassembly := by
  unfold postRecv
  split <;> simp

@[simp]
theorem reassembly_setFragWaitP : (s.setFragWaitP p).reassembly = s.reassembly := rfl

@[simp]
theorem reassembly_setCurRecvdDataSize (size : Nat) : (s.setCurRecvdDataSize size).reassembly = s.reassembly := rfl

end Inert

end TransportService

/-! ### The bytes a fragment brings -/

theorem fragSession_le (pCmd : Mem) : fragSession pCmd ≤ 0xf := by
  have hand : (pCmd 3).toNat &&& 0xf0 ≤ 0xf0 := Nat.and_le_right
  simp only [fragSession, UInt8.toNat_shiftRight, UInt8.toNat_and, Nat.shiftRight_eq_div_pow]
  change ((pCmd 3).toNat &&& 0xf0) / 2 ^ 4 ≤ 0xf
  omega

theorem markBytes_marked (mask : Mem) (i size k : Nat) (h : i + size ≤ datagramSizeMax) :
    Bitmap.Marked (markBytes mask i size) k ↔ (i ≤ k ∧ k < i + size) ∨ Bitmap.Marked mask k := by
  induction size generalizing mask i with
  | zero =>
    simp only [markBytes]
    constructor
    · exact fun hk => .inr hk
    · rintro (⟨hle, hlt⟩ | hk)
      · omega
      · exact hk
  | succ size ih =>
    have hnext := ih (Bitmap.mark mask i) (i + 1) (by omega)
    simp only [markBytes]
    rw [if_neg (by omega)]
    change Bitmap.Marked (markBytes (Bitmap.mark mask i) (i + 1) size) k ↔ _
    rw [hnext, Bitmap.marked_mark]
    constructor
    · rintro (hk | hk | hk)
      · exact .inl (by omega)
      · exact .inl (by omega)
      · exact .inr hk
    · rintro (hk | hk)
      · by_cases heq : i = k
        · exact .inr (.inl heq)
        · exact .inl (by omega)
      · exact .inr (.inr hk)

theorem bitmaskBits_eq : bitmaskBits = (List.range 208).map fun n => (n / 8, n % 8) := by
  decide

def isMissing (mask : Mem) (n : Nat) : Bool :=
  !decide (Bitmap.Marked mask n) && n != 0

theorem find?_bitmaskBits (mask : Mem) :
    (bitmaskBits.find? fun (i, j) => mask i &&& (1 <<< UInt8.ofNat j) == 0 && i * 8 + j != 0) =
      ((List.range 208).find? (isMissing mask)).map fun n => (n / 8, n % 8) := by
  rw [bitmaskBits_eq, List.find?_map]
  congr 2
  funext n
  have hn : n / 8 * 8 + n % 8 = n := Nat.div_add_mod' n 8
  simp only [Function.comp, isMissing, Bitmap.Marked, hn]
  by_cases hzero : mask (n / 8) &&& (1 <<< UInt8.ofNat (n % 8)) = 0 <;> simp [hzero]

namespace Reassembly

def Gapless (r : Reassembly) : Prop :=
  ∀ k, 0 < k → k < r.size → Bitmap.Marked r.mask k

def discard (r : Reassembly) : Reassembly :=
  { r with
    data := fun _ => 0, session := noSession, source := 0, peer := 0, dest := 0
    mask := fun _ => 0, history := .discarded :: r.history }

def deliver (r : Reassembly) : Reassembly :=
  { r with
    completed := Function.update r.completed r.session true
    session := noSession, source := 0, rxTimer := false
    history := .delivered r.peer r.dest (r.data.slice 0 r.size) :: r.history }

def start (r : Reassembly) (pCmd : Mem) (len : Nat) : Reassembly :=
  let size := len - firstFragNonpayloadLength
  { r with
    rxTimer := true
    session := fragSession pCmd
    completed := Function.update r.completed (fragSession pCmd) false
    size := fragDatagramSize pCmd
    source := r.peer
    data := r.data.write 0 (pCmd.slice firstHdrLen size)
    mask := markBytes (fun _ => 0) 0 size
    history := .opened :: r.history }

def store (r : Reassembly) (pCmd : Mem) (len : Nat) : Reassembly :=
  let size := len - subseqFragNonpayloadLength
  { r with
    rxTimer := true
    size := fragDatagramSize pCmd
    data := r.data.write (fragDatagramOffset pCmd) (pCmd.slice subseqHdrLen size)
    mask := markBytes r.mask (fragDatagramOffset pCmd) size }

/-- Every byte that was marked satisfies `P` at its offset. -/
def Holds (P : Nat → UInt8 → Prop) (r : Reassembly) : Prop :=
  ∀ k, Bitmap.Marked r.mask k → P k (r.data k)

theorem data_write {data : Mem} {off hdr size k : Nat} {pCmd : Mem} (hle : off ≤ k)
    (hlt : k < off + size) : data.write off (pCmd.slice hdr size) k = pCmd (hdr + (k - off)) := by
  rw [Mem.write_of_mem hle (by simpa using hlt), List.getD_eq_getElem?_getD, Mem.getElem?_slice (by omega)]
  rfl

section Holds

variable {P : Nat → UInt8 → Prop} {r : Reassembly} {pCmd : Mem} {len : Nat}

theorem marked_start (hlen : len ≤ datagramSizeMax) (k : Nat) :
    Bitmap.Marked (r.start pCmd len).mask k ↔ k < len - firstFragNonpayloadLength := by
  have hmark := markBytes_marked (fun _ => 0) 0 (len - firstFragNonpayloadLength) k (by omega)
  have hzero := Bitmap.not_marked_zero k
  change Bitmap.Marked (markBytes _ 0 _) k ↔ _
  rw [hmark]
  simp [hzero]

theorem holds_start (hlen : len ≤ datagramSizeMax)
    (hbytes : ∀ k, k < len - firstFragNonpayloadLength → P k (pCmd (firstHdrLen + k))) :
    (r.start pCmd len).Holds P := by
  intro k hk
  have hlt := (marked_start hlen k).mp hk
  change P k (r.data.write 0 _ k)
  rw [data_write (Nat.zero_le k) (by omega)]
  exact hbytes k hlt

theorem holds_store (h : r.Holds P)
    (hbound : fragDatagramOffset pCmd + (len - subseqFragNonpayloadLength) ≤ datagramSizeMax)
    (hbytes : ∀ k, fragDatagramOffset pCmd ≤ k → k < fragDatagramOffset pCmd + (len - subseqFragNonpayloadLength) →
      P k (pCmd (subseqHdrLen + (k - fragDatagramOffset pCmd)))) :
    (r.store pCmd len).Holds P := by
  intro k hk
  change P k (r.data.write _ _ k)
  by_cases hin : fragDatagramOffset pCmd ≤ k ∧ k < fragDatagramOffset pCmd + (len - subseqFragNonpayloadLength)
  · rw [data_write hin.1 hin.2]
    exact hbytes k hin.1 hin.2
  · have hold : Bitmap.Marked r.mask k :=
      ((markBytes_marked r.mask _ _ k hbound).mp hk).resolve_left hin
    have hsame : r.data.write (fragDatagramOffset pCmd)
        (pCmd.slice subseqHdrLen (len - subseqFragNonpayloadLength)) k = r.data k := by
      rcases Nat.lt_or_ge k (fragDatagramOffset pCmd) with hlt | hge
      · exact Mem.write_of_lt _ hlt
      · refine Mem.write_of_le ?_
        rw [Mem.length_slice]
        omega
    rw [hsame]
    exact h k hold

theorem Gapless.holds (hgapless : r.Gapless) (hhead : Bitmap.Marked r.mask 0) (h : r.Holds P)
    {k : Nat} (hk : k < r.size) : P k (r.data k) := by
  by_cases hzero : k = 0
  · subst hzero
    exact h 0 hhead
  · exact h k (hgapless k (Nat.pos_of_ne_zero hzero) hk)

end Holds

def take (r : Reassembly) (p : TsParam) : Reassembly :=
  if r.fresh then
    { r with
      fresh := false, session := noSession, source := 0, data := fun _ => 0, mask := fun _ => 0
      peer := p.snode, dest := p.dnode }
  else { r with peer := p.snode, dest := p.dnode }

end Reassembly

namespace TransportService

section Gaps

variable (s : TransportService)

theorem getNextMissingOffset_cases : (s.getNextMissingOffset = 0 ∧ (s.reassembly.size ≤ 208 → s.reassembly.Gapless)) ∨
      (0 < s.getNextMissingOffset ∧ s.getNextMissingOffset < 208 ∧ s.getNextMissingOffset < s.reassembly.size ∧
        ¬ Bitmap.Marked s.reassembly.mask s.getNextMissingOffset) := by
  unfold getNextMissingOffset
  dsimp only
  rw [find?_bitmaskBits]
  cases hfind : (List.range 208).find? (isMissing s.rcb.bytesRecvdBitmask) with
  | none =>
    left
    refine ⟨rfl, fun hsize k hpos hlt => ?_⟩
    have hk := List.find?_range_eq_none.mp hfind k (by omega)
    change Bitmap.Marked s.rcb.bytesRecvdBitmask k
    simpa [isMissing, Nat.ne_of_gt hpos] using hk
  | some n =>
    obtain ⟨hmissing, hmem, hfirst⟩ := List.find?_range_eq_some.mp hfind
    have hn : n / 8 * 8 + n % 8 = n := Nat.div_add_mod' n 8
    obtain ⟨hclear, hne⟩ : ¬ Bitmap.Marked s.rcb.bytesRecvdBitmask n ∧ n ≠ 0 := by
      simpa [isMissing] using hmissing
    simp only [Option.map_some, hn]
    by_cases hle : s.rcb.datagramSize ≤ n
    · rw [if_pos hle]
      left
      refine ⟨rfl, fun _ k hpos hlt => ?_⟩
      have hk := hfirst k (Nat.lt_of_lt_of_le hlt hle)
      change Bitmap.Marked s.rcb.bytesRecvdBitmask k
      simpa [isMissing, Nat.ne_of_gt hpos] using hk
    · rw [if_neg hle]
      right
      exact ⟨Nat.pos_of_ne_zero hne, List.mem_range.mp hmem, Nat.lt_of_not_le hle, hclear⟩

end Gaps

section Active

variable (env : TsEnv) (s : TransportService)

@[simp]
theorem reassembly_discardAllReceivedFragments : s.discardAllReceivedFragments.reassembly = s.reassembly.discard := by
  unfold discardAllReceivedFragments
  rw [reassembly_log]
  rfl

@[simp]
theorem reassembly_sendFragCompleteCmd : (sendFragCompleteCmd env s).reassembly =
    if 0xf < s.reassembly.session then s.reassembly else s.reassembly.deliver := by
  unfold sendFragCompleteCmd
  change _ = if 0xf < s.rcb.cmn.sessionId then _ else _
  split
  · rfl
  · rw [reassembly_t2SmPostEvent, reassembly_ctimerStop]
    simp only [reassembly, Reassembly.deliver, log, tsSendRaw, handOver, ctimerSet]
    simp [List.filter_cons, TsOut.concernsReceiver]

@[simp]
theorem reassembly_flagRetryFragReqOnce (n : Nat) :
    reassembly { s with rcb.flagRetryFragReqOnce := n } = s.reassembly := rfl

@[simp]
theorem reassembly_rxDataState (b : Bool) : reassembly { s with rcb.rxDataState := b } = s.reassembly := rfl

@[simp]
theorem reassembly_retryFragReq (retries : Nat) : (retryFragReq env s retries).reassembly = s.reassembly := by
  induction retries generalizing s with
  | zero => simp [retryFragReq]
  | succ retries ih =>
    unfold retryFragReq
    dsimp only
    split
    · simp
    · rw [ih, reassembly_flagRetryFragReqOnce]
      simp

theorem reassembly_sendFragReqCmd : (sendFragReqCmd env s).reassembly = s.reassembly ∨
    (sendFragReqCmd env s).reassembly = { s.reassembly with rxTimer := true } := by
  unfold sendFragReqCmd
  dsimp only
  split
  · exact .inl (by simp)
  · split
    · exact .inl rfl
    · right
      rw [reassembly_ctimerSet, reassembly_t2SmPostEvent, reassembly_rxDataState, reassembly_retryFragReq]
      simp

theorem reassembly_findMissing (hsize : s.reassembly.size ≤ datagramSizeMax) :
    (findMissing env s).reassembly = s.reassembly ∨
      (findMissing env s).reassembly = { s.reassembly with rxTimer := true } ∨
      (findMissing env s).reassembly = s.reassembly.discard ∨
      (s.reassembly.Gapless ∧ s.reassembly.session ≤ 0xf ∧ (findMissing env s).reassembly = s.reassembly.deliver) := by
  have hmissing := s.getNextMissingOffset_cases
  unfold findMissing
  dsimp only
  split
  · split
    · exact .inr (.inr (.inl (reassembly_discardAllReceivedFragments s)))
    · have hreq := reassembly_sendFragReqCmd env (s.t2SmPostEvent .missingFrag)
      rw [reassembly_t2SmPostEvent] at hreq
      rcases hreq with hreq | hreq
      · exact .inl hreq
      · exact .inr (.inl hreq)
  · rename_i hnone
    split
    · exact .inl rfl
    · rw [reassembly_sendFragCompleteCmd, reassembly_t2SmPostEvent]
      by_cases hsession : 0xf < s.reassembly.session
      · rw [if_pos hsession]
        exact .inl rfl
      · rw [if_neg hsession]
        rcases hmissing with ⟨hzero, hgapless⟩ | ⟨hpos, hlt, hrest⟩
        · have h208 : s.reassembly.size ≤ 208 := Nat.le_trans hsize (by decide)
          exact .inr (.inr (.inr ⟨hgapless h208, Nat.le_of_not_lt hsession, rfl⟩))
        · omega

theorem reassembly_openSession (pCmd : Mem) (len : Nat) :
    (markFragReceived env (s.openSession pCmd len) 0 (len - firstFragNonpayloadLength)).1 = false ∧
      (markFragReceived env (s.openSession pCmd len) 0
        (len - firstFragNonpayloadLength)).2.reassembly = s.reassembly.start pCmd len := by
  constructor
  · simp [markFragReceived]
  · simp only [markFragReceived, ne_eq, not_true_eq_false, false_and, if_false]
    simp only [reassembly, openSession, log, ctimerSet, Reassembly.start]
    simp [List.filter_cons, TsOut.concernsReceiver]

structure AcceptsFirst (s : TransportService) (pCmd : Mem) (len : Nat) : Prop where
  long : firstFragNonpayloadLength < len
  fcs : fcsOk pCmd len = true
  session : fragSession pCmd = s.reassembly.session ∨ s.reassembly.session = noSession
  size : fragDatagramSize pCmd ≤ datagramSizeMax

theorem reassembly_receiveFirstFragment (pCmd : Mem) (len : Nat) :
    (receiveFirstFragment env s pCmd len).reassembly = s.reassembly ∨ (s.AcceptsFirst pCmd len ∧
        ((receiveFirstFragment env s pCmd len).reassembly = s.reassembly.start pCmd len ∨
          (len - firstFragNonpayloadLength = fragDatagramSize pCmd ∧ (receiveFirstFragment env s pCmd len).reassembly =
              (s.reassembly.start pCmd len).deliver))) := by
  unfold receiveFirstFragment
  split
  · exact .inl (by simp)
  · rename_i hlong
    split
    · exact .inl (by simp)
    · rename_i hsession
      split
      · exact .inl (by simp)
      · rename_i hsize
        right
        obtain ⟨hmark, hstart⟩ := reassembly_openSession env s pCmd len
        have hsess : fragSession pCmd = s.reassembly.session ∨ s.reassembly.session = noSession := by
          by_contra hnot
          exact hsession (not_or.mp hnot)
        have hfcs : fcsOk pCmd len = true := by
          by_contra hnot
          exact hlong (.inr (Bool.not_eq_true _ ▸ hnot))
        have haccepts : s.AcceptsFirst pCmd len :=
          ⟨Nat.lt_of_not_le fun h => hlong (.inl h), hfcs, hsess, Nat.le_of_not_lt hsize⟩
        refine ⟨haccepts, ?_⟩
        unfold finishFirstFragment
        rw [hmark, if_neg Bool.false_ne_true]
        split
        · rename_i hdone
          right
          refine ⟨hdone, ?_⟩
          rw [reassembly_sendFragCompleteCmd, reassembly_t2SmPostEvent, hstart, if_neg]
          change ¬ 0xf < fragSession pCmd
          exact Nat.not_lt.mpr (fragSession_le pCmd)
        · left
          rw [reassembly_rxDataState, hstart]

structure AcceptsSubseq (s : TransportService) (pCmd : Mem) (len : Nat) : Prop where
  long : subseqFragNonpayloadLength < len
  fcs : fcsOk pCmd len = true
  fresh : s.reassembly.completed (fragSession pCmd) = false
  session : fragSession pCmd = s.reassembly.session ∨ s.reassembly.session = noSession
  bound : fragDatagramOffset pCmd + (len - subseqFragNonpayloadLength) ≤ datagramSizeMax
  size : fragDatagramSize pCmd ≤ datagramSizeMax

theorem reassembly_storeSubseqFragment (pCmd : Mem) (size : Nat) : (s.storeSubseqFragment pCmd size).reassembly =
      { s.reassembly with
        size := fragDatagramSize pCmd
        data := s.reassembly.data.write (fragDatagramOffset pCmd) (pCmd.slice subseqHdrLen size) } :=
  rfl

theorem reassembly_receiveSubsequentFragment (pCmd : Mem) (len : Nat) :
    (receiveSubsequentFragment env s pCmd len).reassembly = s.reassembly ∨ (s.AcceptsSubseq pCmd len ∧
        ((receiveSubsequentFragment env s pCmd len).reassembly = { s.reassembly with rxTimer := true } ∨
          (fragDatagramOffset pCmd = 0 ∨ Bitmap.Marked s.reassembly.mask 0) ∧
          ((receiveSubsequentFragment env s pCmd len).reassembly = s.reassembly.store pCmd len ∨
            (receiveSubsequentFragment env s pCmd len).reassembly = (s.reassembly.store pCmd len).discard ∨
            ((s.reassembly.store pCmd len).Gapless ∧ s.reassembly.session ≤ 0xf ∧
              (receiveSubsequentFragment env s pCmd len).reassembly = (s.reassembly.store pCmd len).deliver)))) := by
  unfold receiveSubsequentFragment
  dsimp only
  split
  · exact .inl (by simp)
  rename_i hlong
  split
  · exact .inl (by simp)
  rename_i hcompleted
  split
  · exact .inl (by simp)
  rename_i hsession
  split
  · exact .inl (by simp)
  rename_i hbound
  split
  · exact .inl (by simp)
  rename_i hsize
  right
  have hsess : fragSession pCmd = s.reassembly.session ∨ s.reassembly.session = noSession := by
    by_contra hnot
    exact hsession (not_or.mp hnot)
  have hfcs : fcsOk pCmd len = true := by
    by_contra hnot
    exact hlong (.inr (Bool.not_eq_true _ ▸ hnot))
  have haccepts : s.AcceptsSubseq pCmd len :=
    ⟨Nat.lt_of_not_le fun h => hlong (.inl h), hfcs, Bool.not_eq_true _ ▸ hcompleted, hsess,
      Nat.le_of_not_lt hbound, Nat.le_of_not_lt hsize⟩
  refine ⟨haccepts, ?_⟩
  unfold markFragReceived
  split
  · left
    simp [finishSubseqFragment]
  · rename_i hfirst
    right
    have hzero : fragDatagramOffset pCmd = 0 ∨ Bitmap.Marked s.reassembly.mask 0 := by
      by_contra hnot
      obtain ⟨hne, hclear⟩ := not_or.mp hnot
      have hbit : s.reassembly.mask 0 &&& 1 = 0 := by simpa [Bitmap.Marked] using hclear
      exact hfirst ⟨hne, hbit⟩
    refine ⟨hzero, ?_⟩
    unfold finishSubseqFragment
    rw [if_neg Bool.false_ne_true]
    dsimp only
    split
    · generalize hstored : ((storeSubseqFragment _ pCmd _).t2SmPostEvent .recvLastFrag) = t
      have ht : t.reassembly = s.reassembly.store pCmd len := by
        rw [← hstored, reassembly_t2SmPostEvent, reassembly_storeSubseqFragment]
        simp [reassembly, Reassembly.store, setCurRecvdDataSize, ctimerSet]
      have hmissing := reassembly_findMissing env t (by rw [ht]; exact Nat.le_of_not_lt hsize)
      rw [ht] at hmissing
      rcases hmissing with h | h | h | h
      · exact .inl h
      · exact .inl h
      · exact .inr (.inl h)
      · exact .inr (.inr h)
    · left
      rw [reassembly_rxDataState, reassembly_storeSubseqFragment]
      simp [reassembly, Reassembly.store, setCurRecvdDataSize, ctimerSet]

theorem reassembly_take : ((s.postRecv.initializeOnce).setRcbP p).reassembly = s.reassembly.take p := by
  have hpost := s.reassembly_postRecv
  unfold initializeOnce Reassembly.take
  rw [← hpost]
  change _ = if s.postRecv.flagInitializeOnce then _ else _
  split <;> rfl

end Active

end TransportService

end ZipGateway

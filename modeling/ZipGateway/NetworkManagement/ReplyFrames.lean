import Mathlib.Data.List.GetD
import Mathlib.Data.List.TakeDrop
import Mathlib.Tactic.IntervalCases
import ZipGateway.Lib.Memory

/-!
# Reply frames of the network management

The frames about one node are built in one buffer. A frame is right if it is written inside the buffer, if it is as
long as its own fields say, if it has the classes of the node, and if it does not depend on what was in the buffer.
-/

namespace ZipGateway.ReplyFrames

def rawBufSize : Nat := 256
def commandClassNetworkManagementInclusion : UInt8 := 0x34
def commandClassNetworkManagementProxy : UInt8 := 0x52
def commandClassAssociation : UInt8 := 0x85
def commandClassIpAssociation : UInt8 := 0x5C
def nodeAddStatus : UInt8 := 0x02
def extendedNodeAddStatus : UInt8 := 0x16
def nodeInfoCachedReport : UInt8 := 0x04
def nmMultiChannelCapabilityReport : UInt8 := 0x08
def nmMultiChannelAggregatedMembersReport : UInt8 := 0x0A
def addNodeStatusFailed : UInt8 := 7
def addNodeStatusSecurityFailed : UInt8 := 9

@[ext]
structure Nms where
  buf : Mem
  bufLen : Nat
  top : Nat

namespace Nms

def put (s : Nms) (off : Nat) (data : Bytes) : Nms :=
  { s with buf := s.buf.write off data, top := max s.top (off + data.length) }

def frame (s : Nms) : Bytes := s.buf.slice 0 s.bufLen

end Nms

def memInsert (find add : UInt8) (m : Nat) : Bytes → Nat → Bytes
  | [], _ => []
  | b :: src, k =>
    if k < m then
      if b = find then if m ≤ k + 1 then [b] else b :: add :: memInsert find add m src (k + 2)
      else b :: memInsert find add m src (k + 1)
    else []

def withIp (classes : Bytes) : Bytes :=
  classes.flatMap fun b => if b = commandClassAssociation then [b, commandClassIpAssociation] else [b]

/-- The node information of an endpoint: the two device classes and the command classes. -/
structure EndpointInfo where
  info : Mem
  len : UInt8

def EndpointInfo.classes (ep : EndpointInfo) : Bytes := ep.info.slice 2 (ep.len.toNat - 2)

/-- The classes in the reports; a length below 2 wraps round, and `max` ends the loop. -/
def EndpointInfo.insert (ep : EndpointInfo) (max : Nat) : Bytes :=
  memInsert commandClassAssociation commandClassIpAssociation max
    (ep.info.slice 2 (if ep.len < 2 then max else ep.len.toNat - 2)) 0

/-- What the steps of adding a node know: `size` is that of the type of the buffer. -/
structure NodeAdd where
  size : Nat
  lr : Bool
  seq : UInt8
  lrNode : Bool
  source : UInt16
  pCmd : Bytes
  capability : UInt8
  security : UInt8
  status : UInt8
  size_ge : 12 ≤ size
  size_le : size ≤ rawBufSize
  bLen_lt : pCmd.length < 256

namespace NodeAdd

variable (a : NodeAdd)

def cmd : UInt8 := if a.lr then extendedNodeAddStatus else nodeAddStatus

def nmPrepareForNodeAddStatus (s : Nms) : Nms :=
  let s := (s.put 0 (.replicate a.size 0)).put 0 [commandClassNetworkManagementInclusion]
  let s := s.put 1 [a.cmd]
  let s := { s with bufLen := (s.buf 6).toNat + 6 }
  (s.put 2 [a.seq]).put 6 [1]

/-- The steps from `NM_NODE_FOUND` to `NM_EV_SECURITY_DONE`. -/
def secured (s : Nms) : Nms :=
  let s := if a.lrNode then (s.put 4 [(a.source >>> 8).toUInt8]).put 5 [a.source.toUInt8]
    else s.put 5 [a.source.toUInt8]
  let s := (s.put 6 [UInt8.ofNat a.pCmd.length + 3]).put 9 a.pCmd
  ((s.put 7 [a.capability]).put 8 [a.security]).put 3 [a.status]

def run (m : Mem) : Nms := a.secured (a.nmPrepareForNodeAddStatus ⟨m, 0, 0⟩)

end NodeAdd

/-- What is known of the node when it has been probed. -/
structure Probed where
  nodeType : UInt8
  probeDone : Bool
  ep : EndpointInfo
  grantedKeys : UInt8
  kexFail : UInt8
  reportDsk : Bool
  dsk : Bytes
  dsk_length : dsk.length = 16

def Probed.max (p : Probed) (isStatus : Bool) : Nat :=
  if p.reportDsk && isStatus then rawBufSize - 12 - (3 + 16) else rawBufSize - 12 - 3

/-- The first half of `NM_EV_NODE_PROBE_DONE`, up to the command classes. -/
def reportClasses (p : Probed) (s : Nms) : Nms :=
  if p.probeDone then
    let classes := p.ep.insert (p.max (s.buf 1 = nodeAddStatus))
    let s := ((s.put 9 [p.nodeType]).put 10 [p.ep.info 0]).put 11 [p.ep.info 1]
    let s := (s.put 12 classes).put 6 [UInt8.ofNat (classes.length + 6)]
    { s with bufLen := (s.buf 6).toNat + 6 }
  else { s.put 6 [6] with bufLen := 6 + 6 }

def reportKeys (p : Probed) (s : Nms) : Nms :=
  let s := { s.put s.bufLen [p.grantedKeys, p.kexFail] with bufLen := s.bufLen + 2 }
  if s.buf 1 = nodeAddStatus then
    if p.reportDsk then
      let s := { s with bufLen := if rawBufSize - 17 < s.bufLen then rawBufSize - 17 else s.bufLen }
      let s := { s.put s.bufLen [16] with bufLen := s.bufLen + 1 }
      { s.put s.bufLen p.dsk with bufLen := s.bufLen + 16 }
    else { s.put s.bufLen [0] with bufLen := s.bufLen + 1 }
  else s

def probeDone (p : Probed) (s : Nms) : Nms := reportKeys p (reportClasses p s)

def addFailed (s : Nms) : Nms := { (s.put 3 [addNodeStatusFailed]).put 6 [1] with bufLen := 7 }

def txDoneSelfDestruct (s : Nms) : Nms :=
  { s with bufLen := s.bufLen + (s.buf 6).toNat - 1 }

def selfDestruct (retried removed : Bool) (s : Nms) : Nms :=
  let s := txDoneSelfDestruct s
  let s := if retried then txDoneSelfDestruct s else s
  s.put 3 [if removed then addNodeStatusFailed else addNodeStatusSecurityFailed]

def ilog2From (x : Nat) : Nat → Nat
  | 0 => 0
  | i + 1 => if x.testBit i then i else ilog2From x i

def ilog2 (x : Nat) : Nat := ilog2From x 16

/-- A node of the resource directory and what the protocol knows of it. -/
structure CachedNode where
  capability : UInt8
  security : UInt8
  grantedKeys : UInt8
  basic : UInt8
  generic : UInt8
  specific : UInt8
  statusDone : Bool
  ageSec : UInt32
  ep : EndpointInfo

def CachedNode.properties1 (n : CachedNode) : UInt8 :=
  (if n.statusDone then (0 : UInt8) else 1) <<< 4 ||| UInt8.ofNat (ilog2 (n.ageSec.toNat / 60)) &&& 0xF

def buildNodeInfoCachedReport (seq : UInt8) (node : Option CachedNode) (m : Mem) : Nms :=
  let s := (Nms.mk m 0 0).put 0 (.replicate rawBufSize 0)
  let s := s.put 0 [commandClassNetworkManagementProxy, nodeInfoCachedReport, seq]
  match node with
  | some n =>
    let s := (s.put 4 [n.capability, n.security, n.grantedKeys, n.basic, n.generic, n.specific]).put 3 [n.properties1]
    let classes := if 2 ≤ n.ep.len then n.ep.insert (rawBufSize - 10) else []
    { s.put 10 classes with bufLen := 10 + classes.length }
  | none => { s.put 3 [(2 : UInt8) <<< 4] with bufLen := 10 }

/-- A request about an endpoint: its node and the extended id. -/
structure EndpointGet where
  seq : UInt8
  nodeId : UInt8
  extended : Bytes
  endpoint : UInt8

def endpointReport (clear : Nat) (get : EndpointGet) (cmd b4 b5 : UInt8) (data : Bytes) (sizeofFrame : Nat) (m : Mem) :
    Nms :=
  let s := (Nms.mk m 0 0).put 0 (.replicate clear 0)
  let s := s.put 0 [commandClassNetworkManagementProxy, cmd, get.seq, get.nodeId, b4, b5]
  let s := (s.put 6 data).put (6 + data.length) (if get.nodeId = 0xFF then get.extended else [0, 0])
  { s with bufLen := sizeofFrame + data.length }

def capabilityReport (clear : Nat) (get : EndpointGet) (ep : EndpointInfo) : Mem → Nms :=
  endpointReport clear get nmMultiChannelCapabilityReport (ep.len - 2) (get.endpoint &&& 0x7F)
    (ep.info.slice 0 ep.len.toNat) 11

def aggregatedMembersReport (get : EndpointGet) (members : Bytes) : Mem → Nms :=
  endpointReport 0 get nmMultiChannelAggregatedMembersReport (get.endpoint &&& 0x7F) (UInt8.ofNat members.length)
    members 9

/-- A frame that `build` makes of any earlier contents of the buffer: `implied` is the length that its fields tell,
`listed` the classes in it. -/
structure Right (build : Mem → Nms) (implied : Bytes → Nat) (listed : Bytes → Bytes) (classes : Bytes) : Prop where
  inside : ∀ m, (build m).top ≤ rawBufSize
  length : ∀ m, (build m).bufLen = implied (build m).frame
  classes : ∀ m, listed (build m).frame = classes
  fresh : ∀ m m', (build m).frame = (build m').frame

section Insert

variable {m k : Nat} {src : Bytes} {ep : EndpointInfo}

theorem memInsert_eq : memInsert commandClassAssociation commandClassIpAssociation m src k =
    (withIp src).take (m - k) := by
  induction src generalizing k with
  | nil => simp [memInsert, withIp]
  | cons b src ih =>
    rw [memInsert]
    split
    · rename_i hk
      obtain ⟨n, hn⟩ : ∃ n, m - k = n + 1 := ⟨m - k - 1, by omega⟩
      split
      · rename_i hb
        split
        · have hn : m - k = 1 := by omega
          simp [withIp, hb, hn]
        · obtain ⟨n', rfl⟩ : ∃ n', n = n' + 1 := ⟨n - 1, by omega⟩
          rw [ih, show m - (k + 2) = n' by omega, hn]
          simp [withIp, hb]
      · rename_i hb
        rw [ih, show m - (k + 1) = n by omega, hn]
        simp [withIp, hb]
    · rw [show m - k = 0 by omega, List.take_zero]

theorem length_le_withIp (classes : Bytes) : classes.length ≤ (withIp classes).length := by
  induction classes with
  | nil => exact Nat.le_refl _
  | cons b classes ih =>
    rw [withIp, List.flatMap_cons, List.length_append, List.length_cons]
    change classes.length ≤ (classes.flatMap _).length at ih
    split
    · exact Nat.le_trans (Nat.succ_le_succ ih) (by simp only [List.length_cons, List.length_nil]; omega)
    · exact Nat.le_trans (Nat.succ_le_succ ih) (by simp only [List.length_cons, List.length_nil]; omega)

theorem length_insert_le (ep : EndpointInfo) (max : Nat) : (ep.insert max).length ≤ max := by
  rw [EndpointInfo.insert, memInsert_eq, List.length_take]
  omega

theorem insert_eq_iff {max : Nat} (hmax : 0 < max) :
    ep.insert max = withIp ep.classes ↔ 2 ≤ ep.len ∧ (withIp ep.classes).length ≤ max := by
  rw [EndpointInfo.insert, memInsert_eq, Nat.sub_zero]
  by_cases hlen : ep.len < 2
  · rw [if_pos hlen]
    have hnone : ep.classes = [] := by
      rw [EndpointInfo.classes, Nat.sub_eq_zero_of_le]
      · rfl
      · exact Nat.le_of_lt (UInt8.lt_iff_toNat_lt.mp hlen)
    refine iff_of_false (fun heq => ?_) fun h => absurd h.1 (UInt8.not_le.mpr hlen)
    have hle := length_le_withIp (ep.info.slice 2 max)
    have hlength := congrArg List.length heq
    rw [hnone, List.length_take] at hlength
    rw [Mem.length_slice] at hle
    change min max _ = 0 at hlength
    omega
  · rw [if_neg hlen]
    exact (List.take_eq_self_iff _).trans (and_iff_right (UInt8.not_lt.mp hlen)).symm

end Insert

section Frames

def Same (n : Nat) (s s' : Nms) : Prop := ∀ i < n, s.buf i = s'.buf i

variable {n off : Nat} {s s' : Nms} {data : Bytes}

theorem put_buf (s : Nms) (off : Nat) (data : Bytes) (i : Nat) : (s.put off data).buf i =
    if off ≤ i ∧ i < off + data.length then data.getD (i - off) 0 else s.buf i := rfl

theorem Same.put {k : Nat} (h : Same n s s') (hk : ∀ i < k, n ≤ i → off ≤ i ∧ i < off + data.length) :
    Same k (s.put off data) (s'.put off data) := by
  intro i hi
  rw [put_buf, put_buf]
  split
  · rfl
  · exact h i (Nat.lt_of_not_le fun hle => by have hin := hk i hi hle; contradiction)

theorem Same.keep (h : Same n s s') (off : Nat) (data : Bytes) : Same n (s.put off data) (s'.put off data) :=
  h.put fun _ hi hle => absurd hi (Nat.not_lt.mpr hle)

theorem same_cleared {size : Nat} (hn : n ≤ size) (m m' : Mem) :
    Same n ((Nms.mk m 0 0).put 0 (.replicate size 0)) ((Nms.mk m' 0 0).put 0 (.replicate size 0)) :=
  Same.put (n := 0) (fun i hi => absurd hi (Nat.not_lt_zero i)) fun _ hi _ => by simp; omega

theorem Same.frame (h : Same n s s') (hlen : s.bufLen = s'.bufLen) (hle : s.bufLen ≤ n) : s.frame = s'.frame := by
  rw [Nms.frame, Nms.frame, ← hlen]
  exact Mem.slice_congr fun i _ hi => h i (by omega)

theorem frame_getD {i : Nat} (hi : i < s.bufLen) : s.frame.getD i 0 = s.buf i := by
  rw [Nms.frame, List.getD_eq_getElem?_getD, Mem.getElem?_slice hi, Option.getD_some, Nat.zero_add]

variable {a : NodeAdd} {p : Probed} {m m' : Mem}

theorem run_fields (a : NodeAdd) (m : Mem) : (a.run m).bufLen = 6 ∧ (a.run m).buf 6 = UInt8.ofNat a.pCmd.length + 3 ∧
    (a.run m).buf 1 = a.cmd ∧ (a.run m).top = max a.size (9 + a.pCmd.length) := by
  have hsize := a.size_ge
  have hclear : ((((Nms.mk m 0 0).put 0 (.replicate a.size 0)).put 0 [commandClassNetworkManagementInclusion]).put 1
      [a.cmd]).buf 6 = 0 := by
    simp [put_buf, show 6 < a.size by omega]
  refine ⟨?_, ?_, ?_, ?_⟩
  · cases hlr : a.lrNode <;> simp only [NodeAdd.run, NodeAdd.secured, hlr, if_true, if_false, Bool.false_eq_true] <;>
      exact congrArg (·.toNat + 6) hclear
  · cases hlr : a.lrNode <;> simp [NodeAdd.run, NodeAdd.secured, hlr, put_buf]
  · cases hlr : a.lrNode <;>
      simp [NodeAdd.run, NodeAdd.secured, NodeAdd.nmPrepareForNodeAddStatus, hlr, put_buf]
  · cases hlr : a.lrNode <;>
      simp [NodeAdd.run, NodeAdd.secured, NodeAdd.nmPrepareForNodeAddStatus, hlr, Nms.put] <;> omega

theorem prepared_same (a : NodeAdd) (m m' : Mem) :
    Same 12 (a.nmPrepareForNodeAddStatus ⟨m, 0, 0⟩) (a.nmPrepareForNodeAddStatus ⟨m', 0, 0⟩) :=
  ((((same_cleared a.size_ge m m').keep _ _).keep _ _).keep _ _).keep _ _

theorem run_same (a : NodeAdd) (m m' : Mem) : Same 12 (a.run m) (a.run m') := by
  have hprepared := prepared_same a m m'
  unfold NodeAdd.run NodeAdd.secured
  split
  · exact ((((((hprepared.keep _ _).keep _ _).keep _ _).keep _ _).keep _ _).keep _ _).keep _ _
  · exact (((((hprepared.keep _ _).keep _ _).keep _ _).keep _ _).keep _ _).keep _ _

def Probed.reported (p : Probed) (isStatus : Bool) : Bytes := if p.probeDone then p.ep.insert (p.max isStatus) else []

theorem length_reported_le (p : Probed) (isStatus : Bool) : (p.reported isStatus).length ≤ p.max isStatus := by
  unfold Probed.reported
  split
  · exact length_insert_le _ _
  · exact Nat.zero_le _

/-- The state when the classes are written: its length, its own length field and command, its classes, the end of
what is written, and that it depends on the first bytes only. -/
structure Reported (p : Probed) (cmd : UInt8) (s t : Nms) (n : Nat) : Prop where
  bufLen : t.bufLen = 12 + n
  length : t.buf 6 = UInt8.ofNat (n + 6)
  command : t.buf 1 = cmd
  classes : t.buf.slice 12 n = p.reported (cmd = nodeAddStatus)
  top : t.top ≤ max s.top (12 + n) ∧ s.top ≤ t.top

theorem reportClasses_reported {cmd : UInt8} (hcmd : s.buf 1 = cmd) (htop : 12 ≤ s.top) {n : Nat}
    (hn : (p.reported (cmd = nodeAddStatus)).length = n) (hle : n ≤ 241) : Reported p cmd s (reportClasses p s) n := by
  subst hcmd
  unfold Probed.reported at hn
  cases hdone : p.probeDone with
  | false =>
    rw [hdone] at hn
    obtain rfl : 0 = n := hn
    have heq : reportClasses p s = { s.put 6 [6] with bufLen := 6 + 6 } := by simp [reportClasses, hdone]
    rw [heq]
    exact ⟨rfl, by simp [put_buf], by simp [put_buf], by simp [Probed.reported, hdone], by simp [Nms.put]; omega⟩
  | true =>
    rw [hdone, if_pos rfl] at hn
    set classes := p.ep.insert (p.max (s.buf 1 = nodeAddStatus)) with hclasses
    have heq : reportClasses p s =
        { ((((s.put 9 [p.nodeType]).put 10 [p.ep.info 0]).put 11 [p.ep.info 1]).put 12 classes).put 6
            [UInt8.ofNat (n + 6)] with bufLen := 12 + n } := by
      simp [reportClasses, hdone, ← hclasses, hn, put_buf]
      omega
    rw [heq]
    refine ⟨rfl, by simp [put_buf], by simp [put_buf], ?_, by simp [Nms.put, hn]; omega⟩
    rw [Probed.reported, hdone, if_pos rfl, ← hclasses, ← hn]
    exact (Mem.slice_write_of_disjoint (.inr (by simp))).trans (Mem.slice_write_self _ _ _)

theorem put_append (s : Nms) (off : Nat) (data rest : Bytes) :
    (s.put off data).put (off + data.length) rest = s.put off (data ++ rest) := by
  have hbuf : ((s.put off data).put (off + data.length) rest).buf = (s.put off (data ++ rest)).buf := by
    funext i
    simp only [put_buf, List.length_append]
    rcases Nat.lt_or_ge i (off + data.length) with hlt | hge
    · rw [if_neg (by omega)]
      by_cases hoff : off ≤ i
      · rw [if_pos ⟨hoff, hlt⟩, if_pos ⟨hoff, by omega⟩, List.getD_append _ _ _ _ (by omega)]
      · rw [if_neg (by omega), if_neg (by omega)]
    · rw [if_neg (show ¬(off ≤ i ∧ i < off + data.length) by omega)]
      by_cases hend : i < off + data.length + rest.length
      · rw [if_pos ⟨hge, hend⟩, if_pos ⟨by omega, by omega⟩, List.getD_append_right _ _ _ _ (by omega), Nat.sub_sub]
      · rw [if_neg (by omega), if_neg (by omega)]
  have htop : ((s.put off data).put (off + data.length) rest).top = (s.put off (data ++ rest)).top := by
    simp only [Nms.put, List.length_append]
    omega
  exact Nms.ext hbuf rfl htop

def Probed.extra (p : Probed) (cmd : UInt8) : Bytes :=
  [p.grantedKeys, p.kexFail] ++ if cmd = nodeAddStatus then if p.reportDsk then 16 :: p.dsk else [0] else []

theorem reportKeys_eq (hone : 1 < s.bufLen)
    (hroom : p.reportDsk = true → s.buf 1 = nodeAddStatus → s.bufLen + 2 ≤ rawBufSize - 17) : reportKeys p s =
      { s.put s.bufLen (p.extra (s.buf 1)) with bufLen := s.bufLen + (p.extra (s.buf 1)).length } := by
  have hkeys := put_append s s.bufLen [p.grantedKeys, p.kexFail]
  have hcmd : (s.put s.bufLen [p.grantedKeys, p.kexFail]).buf 1 = s.buf 1 := by rw [put_buf, if_neg (by omega)]
  simp only [reportKeys, Probed.extra, hcmd]
  split
  · rename_i hstatus
    split
    · rename_i hdsk
      have hroom := hroom hdsk hstatus
      have hdskPut := put_append (s.put s.bufLen [p.grantedKeys, p.kexFail]) (s.bufLen + 2) [16] p.dsk
      rw [if_neg (by omega)]
      show ({ ((s.put s.bufLen [p.grantedKeys, p.kexFail]).put (s.bufLen + 2) [16]).put (s.bufLen + 2 + 1) p.dsk with
        bufLen := s.bufLen + 2 + 1 + 16 } : Nms) = _
      rw [show s.bufLen + 2 + 1 = s.bufLen + 2 + [(16 : UInt8)].length from rfl, hdskPut, ← hkeys]
      simp [p.dsk_length]
    · rw [← hkeys]
      rfl
  · rw [List.append_nil]
    rfl

theorem reportClasses_same (h : Same 12 s s') {n : Nat} (hn : (p.reported (s.buf 1 = nodeAddStatus)).length = n) :
    Same (12 + n) (reportClasses p s) (reportClasses p s') := by
  have hcmd := h 1 (by omega)
  subst hn
  unfold Probed.reported reportClasses
  rw [← hcmd]
  split
  · refine Same.keep (Same.put (((h.keep _ _).keep _ _).keep _ _) fun i hi hle => ⟨hle, hi⟩) 6 _
  · exact h.keep _ _

def statusLength (f : Bytes) : Nat :=
  let n := 6 + (f.getD 6 0).toNat
  n + 2 + if f.getD 1 0 = nodeAddStatus then 1 + (f.getD (n + 2) 0).toNat else 0

def statusClasses (f : Bytes) : Bytes := (f.drop 12).take ((f.getD 6 0).toNat - 6)

theorem added_iff (a : NodeAdd) (p : Probed) :
    Right (fun m => probeDone p (a.run m)) statusLength statusClasses (if p.probeDone then withIp p.ep.classes else []) ↔
      a.pCmd.length ≤ 247 ∧ (p.probeDone = true → 2 ≤ p.ep.len ∧
        (withIp p.ep.classes).length ≤ p.max (a.cmd = nodeAddStatus)) := by
  obtain ⟨n, hn⟩ : ∃ n, (p.reported (a.cmd = nodeAddStatus)).length = n := ⟨_, rfl⟩
  have hmax := length_reported_le p (a.cmd = nodeAddStatus)
  have hsize := a.size_le
  rw [hn] at hmax
  have hextra : (p.extra a.cmd).length =
      if a.cmd = nodeAddStatus then if p.reportDsk then 19 else 3 else 2 := by
    unfold Probed.extra
    split_ifs <;> simp [p.dsk_length]
  have hfit : n ≤ 241 ∧ 12 + n + (p.extra a.cmd).length ≤ rawBufSize ∧
      (p.reportDsk = true → a.cmd = nodeAddStatus → 12 + n + 2 ≤ rawBufSize - 17) := by
    rw [hextra]
    unfold Probed.max rawBufSize at *
    by_cases hstatus : a.cmd = nodeAddStatus <;> cases hdsk : p.reportDsk <;> simp [hstatus, hdsk] at hmax ⊢ <;> omega
  have hreported : ∀ m, Reported p a.cmd (a.run m) (reportClasses p (a.run m)) n := fun m => by
    obtain ⟨-, -, hcmd, htop⟩ := run_fields a m
    have hge := a.size_ge
    exact reportClasses_reported hcmd (by omega) hn hfit.1
  have hsame : ∀ m m', Same (12 + n) (reportClasses p (a.run m)) (reportClasses p (a.run m')) := fun m m' =>
    reportClasses_same (run_same a m m') (by rw [(run_fields a m).2.2.1]; exact hn)
  have hdone : ∀ m, probeDone p (a.run m) = { (reportClasses p (a.run m)).put (12 + n) (p.extra a.cmd) with
      bufLen := 12 + n + (p.extra a.cmd).length } := fun m => by
    obtain ⟨hlen, -, hcmd, -, -⟩ := hreported m
    have heq := reportKeys_eq (p := p) (s := reportClasses p (a.run m)) (by omega) (by rw [hlen, hcmd]; exact hfit.2.2)
    rwa [hlen, hcmd] at heq
  generalize he : p.extra a.cmd = extra at hextra hfit hdone
  have hlow : ∀ m, ∀ i < 12 + n, (probeDone p (a.run m)).frame.getD i 0 = (reportClasses p (a.run m)).buf i :=
    fun m i hi => by
      rw [hdone m, frame_getD (Nat.lt_of_lt_of_le hi (Nat.le_add_right _ _))]
      exact if_neg (by omega)
  have hsix : ∀ m, ((probeDone p (a.run m)).frame.getD 6 0).toNat = n + 6 := fun m => by
    rw [hlow m 6 (by omega), (hreported m).length, UInt8.toNat_ofNat', Nat.mod_eq_of_lt (by omega)]
  have hclasses : ∀ m, statusClasses (probeDone p (a.run m)).frame = p.reported (a.cmd = nodeAddStatus) := fun m => by
    have hslice : (probeDone p (a.run m)).frame = ((reportClasses p (a.run m)).buf.write (12 + n) extra).slice 0
        (12 + (n + extra.length)) := by
      rw [hdone m, ← Nat.add_assoc]
      rfl
    rw [statusClasses, hsix m, hslice, Mem.drop_slice, Nat.add_sub_cancel, Mem.take_slice, ← (hreported m).classes]
    exact Mem.slice_write_of_disjoint (.inl (by omega))
  have htop : ∀ m, (probeDone p (a.run m)).top = max (reportClasses p (a.run m)).top (12 + n + extra.length) := fun m => by
    rw [hdone m]
    rfl
  constructor
  · intro h
    have hinside := h.inside fun _ => 0
    rw [htop] at hinside
    have hrun := (hreported fun _ => 0).top.2
    rw [(run_fields a _).2.2.2] at hrun
    unfold rawBufSize at hinside
    refine ⟨by omega, fun hp => ?_⟩
    have hlisted := (hclasses fun _ => 0).symm.trans (h.classes _)
    rw [Probed.reported, if_pos hp, if_pos hp] at hlisted
    exact (insert_eq_iff (by unfold Probed.max rawBufSize; split <;> omega)).mp hlisted
  · rintro ⟨hnif, hlisted⟩
    refine ⟨fun m => ?_, fun m => ?_, fun m => ?_, fun m m' => ?_⟩
    · have hrun := (hreported m).top.1
      rw [(run_fields a m).2.2.2] at hrun
      rw [htop]
      unfold rawBufSize at *
      omega
    · have hlength : (probeDone p (a.run m)).bufLen = 12 + n + extra.length := by rw [hdone m]
      have hdsk : a.cmd = nodeAddStatus →
          (probeDone p (a.run m)).frame.getD (12 + n + 2) 0 = if p.reportDsk then 16 else 0 := fun hstatus => by
        rw [frame_getD (by rw [hlength, hextra, if_pos hstatus]; split <;> omega), hdone m]
        show (if 12 + n ≤ 12 + n + 2 ∧ 12 + n + 2 < 12 + n + extra.length then extra.getD (12 + n + 2 - (12 + n)) 0
          else _) = _
        rw [if_pos ⟨by omega, by rw [hextra, if_pos hstatus]; split <;> omega⟩, Nat.add_sub_cancel_left, ← he,
          Probed.extra, if_pos hstatus]
        split <;> rfl
      simp only [statusLength]
      rw [hsix m, hlow m 1 (by omega), (hreported m).command, hlength, hextra,
        show 6 + (n + 6) + 2 = 12 + n + 2 by omega]
      split
      · rename_i hstatus
        rw [hdsk hstatus]
        split <;> rfl
      · rfl
    · rw [hclasses m, Probed.reported]
      split
      · rename_i hp
        exact (insert_eq_iff (by unfold Probed.max rawBufSize; split <;> omega)).mpr (hlisted hp)
      · rfl
    · refine Same.frame (n := 12 + n + extra.length) ?_ (by rw [hdone m, hdone m']) (by rw [hdone m])
      rw [hdone m, hdone m']
      exact (hsame m m').put fun i hi hle => ⟨hle, hi⟩

end Frames

theorem addFailed_iff {prepared : Mem → Nms} (hsame : ∀ m m', Same 12 (prepared m) (prepared m')) {top : Nat}
    (htop : ∀ m, (prepared m).top = top) (hge : 12 ≤ top) :
    Right (fun m => addFailed (prepared m)) (fun f => 6 + (f.getD 6 0).toNat) (List.drop 7) [] ↔ top ≤ rawBufSize := by
  have hmax : ∀ m, (addFailed (prepared m)).top = top := fun m => by
    simp [addFailed, Nms.put, htop]
    omega
  refine ⟨fun h => hmax (fun _ => 0) ▸ h.inside _, fun hle => ⟨fun m => hmax m ▸ hle, fun m => ?_, fun m => ?_, fun m m' => ?_⟩⟩
  · rw [frame_getD (show 6 < 7 by decide)]
    simp [addFailed, put_buf]
  · exact List.drop_of_length_le (by rw [Nms.frame, Mem.length_slice]; exact Nat.le_refl 7)
  · refine Same.frame (n := 12) ?_ rfl (show 7 ≤ 12 by decide)
    exact ((hsame m m').keep _ _).keep _ _

/-- A frame about a node that destroys itself is never right: the first call of `NM_EV_TX_DONE_SELF_DESTRUCT` leaves
its length one short, and the second adds it once more. -/
theorem selfDestruct_not_right (a : NodeAdd) (retried removed : Bool) (listed : Bytes → Bytes) (classes : Bytes) :
    ¬Right (fun m => selfDestruct retried removed (a.run m)) (fun f => 6 + (f.getD 6 0).toNat) listed classes := by
  intro h
  have hinside := h.inside fun _ => 0
  have hlength := h.length fun _ => 0
  obtain ⟨hlen, hsix, -, htop⟩ := run_fields a fun _ => 0
  generalize a.run (fun _ => 0) = s at hinside hlength hlen hsix htop
  have hnif : a.pCmd.length ≤ 247 := by
    have hle : s.top ≤ (selfDestruct retried removed s).top := by
      cases retried <;> exact Nat.le_max_left _ _
    unfold rawBufSize at hinside
    omega
  have hbyte : (s.buf 6).toNat = a.pCmd.length + 3 := by
    rw [hsix, UInt8.toNat_add, UInt8.toNat_ofNat', Nat.mod_eq_of_lt (show a.pCmd.length < 2 ^ 8 by omega)]
    exact Nat.mod_eq_of_lt (by simp; omega)
  have hbufLen : (selfDestruct retried removed s).bufLen =
      if retried then 6 + (s.buf 6).toNat - 1 + (s.buf 6).toNat - 1 else 6 + (s.buf 6).toNat - 1 := by
    cases retried <;> simp [selfDestruct, txDoneSelfDestruct, Nms.put, hlen]
  have hfield : (selfDestruct retried removed s).buf 6 = s.buf 6 := by
    cases retried <;> simp [selfDestruct, txDoneSelfDestruct, put_buf]
  rw [frame_getD (by rw [hbufLen]; split <;> omega), hfield, hbufLen] at hlength
  split at hlength <;> omega

section Age

theorem ilog2From_spec (x n : Nat) : x % 2 ^ n = 0 ∧ ilog2From x n = 0 ∨
    ilog2From x n < n ∧ 2 ^ ilog2From x n ≤ x % 2 ^ n ∧ x % 2 ^ n < 2 ^ (ilog2From x n + 1) := by
  induction n with
  | zero => exact .inl ⟨Nat.mod_one x, rfl⟩
  | succ n ih =>
    rw [ilog2From, Nat.testBit_eq_decide_div_mod_eq, Nat.mod_pow_succ]
    have hlt := Nat.mod_lt x (Nat.two_pow_pos n)
    by_cases hbit : x / 2 ^ n % 2 = 1
    · rw [hbit]
      exact .inr ⟨by simp, by simp, by simp [Nat.pow_succ]; omega⟩
    · rw [show x / 2 ^ n % 2 = 0 by omega]
      simp only [Nat.mul_zero, Nat.add_zero]
      obtain h | ⟨h, hbounds⟩ := ih
      · exact .inl h
      · exact .inr ⟨by simpa using Nat.lt_succ_of_lt h, hbounds⟩

/-- The age field is the logarithm of the minutes, and at most 15. -/
def AgeRight (k minutes : Nat) : Prop := 2 ^ k ≤ minutes ∧ (minutes < 2 ^ (k + 1) ∨ k = 15)

theorem ageRight_iff (x : Nat) : AgeRight (ilog2 x) x ↔ 1 ≤ x ∧ (x < 65536 ∨ 32768 ≤ x % 65536) := by
  have hspec := ilog2From_spec x 16
  unfold AgeRight
  change x % 65536 = 0 ∧ ilog2 x = 0 ∨ ilog2 x < 16 ∧ 2 ^ ilog2 x ≤ x % 65536 ∧ x % 65536 < 2 ^ (ilog2 x + 1) at hspec
  generalize ilog2 x = k at hspec ⊢
  obtain ⟨hzero, rfl⟩ | ⟨hk, hspec⟩ := hspec
  · omega
  · interval_cases k <;> omega

theorem properties1_age (n : CachedNode) : (n.properties1 &&& 0xF).toNat = ilog2 (n.ageSec.toNat / 60) := by
  have hall : ∀ (b : Bool) (k : Fin 16), (((if b then (0 : UInt8) else 1) <<< 4 ||| UInt8.ofNat k &&& 0xF) &&& 0xF).toNat =
      k := by decide
  refine hall n.statusDone ⟨_, ?_⟩
  obtain ⟨-, h⟩ | ⟨h, -⟩ := ilog2From_spec (n.ageSec.toNat / 60) 16
  · exact Nat.lt_of_le_of_lt (Nat.le_of_eq h) (by decide)
  · exact h

end Age

theorem cached_iff (seq : UInt8) (n : CachedNode) :
    (Right (buildNodeInfoCachedReport seq (some n)) List.length (List.drop 10) (withIp n.ep.classes) ∧
      ∀ m, AgeRight ((buildNodeInfoCachedReport seq (some n) m).frame.getD 3 0 &&& 0xF).toNat (n.ageSec.toNat / 60)) ↔
      (withIp n.ep.classes).length ≤ rawBufSize - 10 ∧ 1 ≤ n.ageSec.toNat / 60 ∧
        (n.ageSec.toNat / 60 < 65536 ∨ 32768 ≤ n.ageSec.toNat / 60 % 65536) := by
  obtain ⟨classes, hc⟩ : ∃ classes, classes = if 2 ≤ n.ep.len then n.ep.insert (rawBufSize - 10) else [] := ⟨_, rfl⟩
  have hle : classes.length ≤ 246 := by
    rw [hc]
    split
    · exact length_insert_le _ _
    · exact Nat.zero_le _
  have hbuild : ∀ m, buildNodeInfoCachedReport seq (some n) m =
      { (((((Nms.mk m 0 0).put 0 (.replicate rawBufSize 0)).put 0
            [commandClassNetworkManagementProxy, nodeInfoCachedReport, seq]).put 4
            [n.capability, n.security, n.grantedKeys, n.basic, n.generic, n.specific]).put 3 [n.properties1]).put 10
          classes with bufLen := 10 + classes.length } := fun m => by rw [hc]; rfl
  have hlisted : ∀ m, (buildNodeInfoCachedReport seq (some n) m).frame.drop 10 = classes := fun m => by
    rw [hbuild m]
    exact (Mem.drop_slice _ 0 classes.length 10).trans (Mem.slice_write_self _ _ _)
  have hage : ∀ m, ((buildNodeInfoCachedReport seq (some n) m).frame.getD 3 0 &&& 0xF).toNat =
      ilog2 (n.ageSec.toNat / 60) := fun m => by
    rw [hbuild m, frame_getD (Nat.lt_of_lt_of_le (by decide) (Nat.le_add_right 10 _)), ← properties1_age]
    simp [put_buf]
  have hclasses : classes = withIp n.ep.classes ↔ (withIp n.ep.classes).length ≤ rawBufSize - 10 := by
    rw [hc]
    split
    · rename_i hlen
      exact (insert_eq_iff (by decide)).trans (and_iff_right hlen)
    · rename_i hlen
      have hnone : n.ep.classes = [] := by
        have hlt : n.ep.len.toNat < 2 := UInt8.lt_iff_toNat_lt.mp (UInt8.not_le.mp hlen)
        rw [EndpointInfo.classes, Nat.sub_eq_zero_of_le (Nat.le_of_lt hlt), Mem.slice_zero]
      rw [hnone]
      exact iff_of_true rfl (Nat.zero_le _)
  rw [← ageRight_iff, ← hclasses]
  constructor
  · rintro ⟨h, hright⟩
    exact ⟨(hlisted fun _ => 0).symm.trans (h.classes _), hage (fun _ => 0) ▸ hright fun _ => 0⟩
  · rintro ⟨heq, hright⟩
    refine ⟨⟨fun m => ?_, fun m => by rw [Nms.frame, Mem.length_slice], fun m => (hlisted m).trans heq, fun m m' => ?_⟩,
      fun m => (hage m).symm ▸ hright⟩
    · rw [hbuild m]
      simp only [Nms.put, List.length_replicate, List.length_cons, List.length_nil, rawBufSize]
      omega
    · refine Same.frame (n := rawBufSize) ?_ (by rw [hbuild m, hbuild m']) (by rw [hbuild m]; exact Nat.add_le_add_left hle 10)
      rw [hbuild m, hbuild m']
      exact ((((same_cleared (Nat.le_refl _) m m').keep _ _).keep _ _).keep _ _).keep _ _

theorem unknown_right (seq : UInt8) : Right (buildNodeInfoCachedReport seq none) List.length (List.drop 10) [] := by
  have hlength : ∀ m, (buildNodeInfoCachedReport seq none m).bufLen = 10 := fun m => by
    simp only [buildNodeInfoCachedReport]
  refine ⟨fun m => ?_, fun m => by rw [Nms.frame, Mem.length_slice], fun m => ?_, fun m m' => ?_⟩
  · simp only [buildNodeInfoCachedReport, Nms.put, List.length_replicate, List.length_cons, List.length_nil, rawBufSize]
    omega
  · exact List.drop_of_length_le (by rw [Nms.frame, Mem.length_slice, hlength])
  · refine Same.frame (n := 10) ?_ (by rw [hlength, hlength]) (by rw [hlength])
    exact ((same_cleared (show 10 ≤ rawBufSize by decide) m m').keep _ _).keep _ _

theorem endpointReport_fields (clear : Nat) (get : EndpointGet) (cmd b4 b5 : UInt8) (data : Bytes) {size : Nat}
    (hsize : 6 ≤ size) (m : Mem) : (endpointReport clear get cmd b4 b5 data size m).bufLen = size + data.length ∧
      (endpointReport clear get cmd b4 b5 data size m).frame.getD 4 0 = b4 ∧
      (endpointReport clear get cmd b4 b5 data size m).frame.getD 5 0 = b5 := by
  have hlen : (endpointReport clear get cmd b4 b5 data size m).bufLen = size + data.length := rfl
  refine ⟨hlen, ?_, ?_⟩
  · rw [frame_getD (by omega)]
    simp [endpointReport, put_buf]
    omega
  · rw [frame_getD (by omega)]
    simp [endpointReport, put_buf]
    omega

theorem capabilityReport_not_right (clear : Nat) (get : EndpointGet) (ep : EndpointInfo) (listed : Bytes → Bytes)
    (classes : Bytes) : ¬Right (capabilityReport clear get ep) (fun f => 8 + (f.getD 4 0).toNat + 2) listed classes := by
  intro h
  have hlength := h.length fun _ => 0
  obtain ⟨hlen, hfield, -⟩ := endpointReport_fields clear get nmMultiChannelCapabilityReport (ep.len - 2)
    (get.endpoint &&& 0x7F) (ep.info.slice 0 ep.len.toNat) (show 6 ≤ 11 by decide) fun _ => 0
  rw [capabilityReport, hlen, hfield, Mem.length_slice, UInt8.toNat_sub] at hlength
  have hlt := ep.len.toNat_lt
  change 11 + ep.len.toNat = 8 + (256 - 2 + ep.len.toNat) % 256 + 2 at hlength
  omega

theorem aggregatedMembersReport_not_right (get : EndpointGet) {members : Bytes} (hmembers : members.length < 256)
    (listed : Bytes → Bytes) (classes : Bytes) :
    ¬Right (aggregatedMembersReport get members) (fun f => 6 + (f.getD 5 0).toNat + 2) listed classes := by
  intro h
  have hlength := h.length fun _ => 0
  obtain ⟨hlen, -, hfield⟩ := endpointReport_fields 0 get nmMultiChannelAggregatedMembersReport
    (get.endpoint &&& 0x7F) (UInt8.ofNat members.length) members (show 6 ≤ 9 by decide) fun _ => 0
  rw [aggregatedMembersReport, hlen, hfield, UInt8.toNat_ofNat', Nat.mod_eq_of_lt hmembers] at hlength
  omega

/-- Which frames are right, whatever the data of the node are. -/
theorem reply_frames_iff (a : NodeAdd) : (∀ p : Probed,
      Right (fun m => probeDone p (a.run m)) statusLength statusClasses (if p.probeDone then withIp p.ep.classes else []) ↔
        a.pCmd.length ≤ 247 ∧ (p.probeDone = true → 2 ≤ p.ep.len ∧
          (withIp p.ep.classes).length ≤ p.max (a.cmd = nodeAddStatus))) ∧
    (Right (fun m => addFailed (a.nmPrepareForNodeAddStatus ⟨m, 0, 0⟩)) (fun f => 6 + (f.getD 6 0).toNat)
      (List.drop 7) []) ∧
    (Right (fun m => addFailed (a.run m)) (fun f => 6 + (f.getD 6 0).toNat) (List.drop 7) [] ↔ a.pCmd.length ≤ 247) ∧
    (∀ retried removed : Bool, ¬Right (fun m => selfDestruct retried removed (a.run m))
      (fun f => 6 + (f.getD 6 0).toNat) statusClasses (a.pCmd.drop 3)) ∧
    (∀ seq, Right (buildNodeInfoCachedReport seq none) List.length (List.drop 10) []) ∧
    (∀ (seq : UInt8) (n : CachedNode),
      (Right (buildNodeInfoCachedReport seq (some n)) List.length (List.drop 10) (withIp n.ep.classes) ∧
        ∀ m, AgeRight ((buildNodeInfoCachedReport seq (some n) m).frame.getD 3 0 &&& 0xF).toNat (n.ageSec.toNat / 60)) ↔
        (withIp n.ep.classes).length ≤ rawBufSize - 10 ∧ 1 ≤ n.ageSec.toNat / 60 ∧
          (n.ageSec.toNat / 60 < 65536 ∨ 32768 ≤ n.ageSec.toNat / 60 % 65536)) ∧
    (∀ (clear : Nat) (get : EndpointGet) (ep : EndpointInfo), ¬Right (capabilityReport clear get ep)
      (fun f => 8 + (f.getD 4 0).toNat + 2) (fun f => (f.drop 8).take (f.getD 4 0).toNat) (withIp ep.classes)) ∧
    ∀ (get : EndpointGet) (members : Bytes), members.length < 256 → ¬Right (aggregatedMembersReport get members)
      (fun f => 6 + (f.getD 5 0).toNat + 2) (fun f => (f.drop 6).take (f.getD 5 0).toNat) members := by
  refine ⟨added_iff a, ?_, ?_, fun retried removed => selfDestruct_not_right a retried removed _ _,
    unknown_right, cached_iff, fun clear get ep => capabilityReport_not_right clear get ep _ _,
    fun get _ hmembers => aggregatedMembersReport_not_right get hmembers _ _⟩
  · have hge := a.size_ge
    refine (addFailed_iff (prepared_same a) (fun m => ?_) hge).mpr a.size_le
    simp [NodeAdd.nmPrepareForNodeAddStatus, Nms.put]
    omega
  · have hge := a.size_ge
    have hle := a.size_le
    rw [addFailed_iff (run_same a) (fun m => (run_fields a m).2.2.2) (by omega)]
    unfold rawBufSize at *
    omega

theorem reply_frames_iff_members : ¬Right (aggregatedMembersReport ⟨1, 5, [0, 0], 1⟩ [2, 3])
    (fun f => 6 + (f.getD 5 0).toNat + 2) (fun f => (f.drop 6).take (f.getD 5 0).toNat) [2, 3] :=
  (reply_frames_iff ⟨12, false, 1, false, 5, [], 0, 0, 0, by decide, by decide, by decide⟩).2.2.2.2.2.2.2 _ _
    (by decide)

def switchEndpoint : EndpointInfo := ⟨Mem.ofBytes [0x10, 0x01, 0x25], 3⟩

theorem capability_report_too_long : ¬∀ (clear : Nat) (get : EndpointGet) (ep : EndpointInfo),
    Right (capabilityReport clear get ep) (fun f => 8 + (f.getD 4 0).toNat + 2)
      (fun f => (f.drop 8).take (f.getD 4 0).toNat) (withIp ep.classes) := by
  intro hall
  have hlength := (hall 256 ⟨1, 5, [0, 0], 1⟩ switchEndpoint).length fun _ => 0
  exact absurd hlength (by decide)

end ZipGateway.ReplyFrames

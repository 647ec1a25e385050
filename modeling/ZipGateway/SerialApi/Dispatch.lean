import Mathlib
import ZipGateway.Lib.Memory

/-!
# Frames from the chip

`Dispatch` decodes a frame that the chip has sent and calls the callback of its function id. The fields are at
fixed places, but a node id has two bytes in long-range mode. What a callback gets is compared with the layout
in the comment above its case, read field by field.
-/

namespace ZipGateway.SerialApi

abbrev idxCmd : Nat := 2
abbrev idxData : Nat := 3

def bufSize : Nat := 180

def updateStateNodeInfoForeignHomeidReceived : UInt8 := 0x85
def updateStateNodeInfoSmartstartHomeidReceivedLr : UInt8 := 0x87
def updateStateIncludedNodeInfoReceived : UInt8 := 0x86
def addNodeStatusAddingSlave : UInt8 := 3
def addNodeStatusAddingController : UInt8 := 4

inductive FuncId where
  | zwApplicationControllerUpdate | applicationCommandHandler | promiscuousApplicationCommandHandler
  | applicationCommandHandlerBridge | zwSendNodeInformation | zwSendDataBridge | zwSendData | zwSendTestFrame
  | zwSendDataMultiBridge | memoryPutBuffer | zwSetDefault | zwControllerChange | zwCreateNewPrimary
  | zwRemoveNodeFromNetwork | zwAddNodeToNetwork | zwReplicationSendData | zwAssignReturnRoute
  | zwDeleteReturnRoute | zwAssignSucReturnRoute | zwSendSucId | zwDeleteSucReturnRoute | zwSetLearnMode
  | zwSetSlaveLearnMode | zwSetSucNodeId | zwRequestNodeNeighborUpdate | zwRequestNetworkUpdate
  | zwRemoveFailedNodeId | zwReplaceFailedNode | serialapiStarted
deriving DecidableEq, Repr

def funcId : UInt8 → Option FuncId
  | 0x49 => some .zwApplicationControllerUpdate
  | 0x04 => some .applicationCommandHandler
  | 0xD1 => some .promiscuousApplicationCommandHandler
  | 0xA8 => some .applicationCommandHandlerBridge
  | 0x12 => some .zwSendNodeInformation
  | 0xA9 => some .zwSendDataBridge
  | 0x13 => some .zwSendData
  | 0xBE => some .zwSendTestFrame
  | 0xAB => some .zwSendDataMultiBridge
  | 0x24 => some .memoryPutBuffer
  | 0x42 => some .zwSetDefault
  | 0x4D => some .zwControllerChange
  | 0x4C => some .zwCreateNewPrimary
  | 0x4B => some .zwRemoveNodeFromNetwork
  | 0x4A => some .zwAddNodeToNetwork
  | 0x45 => some .zwReplicationSendData
  | 0x46 => some .zwAssignReturnRoute
  | 0x47 => some .zwDeleteReturnRoute
  | 0x51 => some .zwAssignSucReturnRoute
  | 0x57 => some .zwSendSucId
  | 0x55 => some .zwDeleteSucReturnRoute
  | 0x50 => some .zwSetLearnMode
  | 0xA4 => some .zwSetSlaveLearnMode
  | 0x54 => some .zwSetSucNodeId
  | 0x48 => some .zwRequestNodeNeighborUpdate
  | 0x53 => some .zwRequestNetworkUpdate
  | 0x61 => some .zwRemoveFailedNodeId
  | 0x63 => some .zwReplaceFailedNode
  | 0x0A => some .serialapiStarted
  | _ => none

/-- A call of a callback, with pointers and lengths as bytes. -/
inductive Call where
  | applicationControllerUpdate (bStatus : UInt8) (bNodeId : UInt16) (pCmd : Bytes) (prospectHomeId : Option Bytes)
  | applicationCommandHandler (rxStatus : UInt8) (destNode sourceNode : UInt16) (pCmd : Bytes)
  | applicationCommandHandlerBridge (rxStatus : UInt8) (destNode sourceNode : UInt16) (pCmd : Bytes)
  | learnInfo (func : FuncId) (bStatus : UInt8) (bSource : UInt16) (pCmd : Bytes)
  | slaveLearnMode (bStatus : UInt8) (onode nnode : UInt16)
  | serialApiStarted (pData : Bytes)
  | txStatus (func : FuncId) (txStatus : UInt8) (report : Option Bytes)
  | done (func : FuncId)
deriving DecidableEq, Repr

/-- What one frame does: it reads the first `reach` bytes of the frame and may be one in front of it, writes
`copied` bytes from the start of `pCmd` on, and calls a callback, which it may forget. -/
structure Effect where
  reach : Nat := 0
  front : Bool := false
  copied : Nat := 0
  call : Option Call := none
  cleared : Bool := false
  aborted : Bool := false

/-- The statics of the module: `byLen` is the length of the last response, and `ahead` the byte in front of
the frame. -/
structure Statics where
  lrEnabled : Bool
  byLen : UInt8
  ahead : UInt8
  registered : FuncId → Bool

def detectBufferOverflow (len : Nat) : Bool :=
  decide (bufSize < len)

theorem detectBufferOverflow_eq_false {len : Nat} (h : len ≤ bufSize) : detectBufferOverflow len = false :=
  decide_eq_false (Nat.not_lt.mpr h)

def idLen (lr : Bool) : Nat := if lr then 2 else 1

def nodeId (lr : Bool) (pData : Mem) (i : Nat) (init : UInt16) : UInt16 :=
  if lr then (pData i).toUInt16 <<< 8 ||| (pData (i + 1)).toUInt16 else init ||| (pData i).toUInt16

section Cases

variable (s : Statics) (pData : Mem)

/-- `srcId` is what the variable of the third branch holds before it is set. -/
def applicationControllerUpdate (srcId : UInt16) : Effect :=
  let bStatus := pData idxData
  let j := 4 + idLen s.lrEnabled
  if detectBufferOverflow (idxData + 2) then {}
  else if bStatus = updateStateNodeInfoForeignHomeidReceived ∨
      bStatus = updateStateNodeInfoSmartstartHomeidReceivedLr then
    let length := min (pData j).toNat bufSize
    { reach := j + 5 + length
      copied := length
      call := some (.applicationControllerUpdate bStatus (nodeId s.lrEnabled pData 4 0)
        (pData.slice (j + 5) length) (some (pData.slice (j + 1) 4))) }
  else if bStatus = updateStateIncludedNodeInfoReceived then
    { reach := j + 6
      copied := 5
      call := some (.applicationControllerUpdate bStatus (nodeId s.lrEnabled pData 5 srcId)
        (pData.slice (j + 1) 5) none) }
  else
    { reach := j + 1 + (pData j).toNat
      copied := (pData j).toNat
      call := some (.applicationControllerUpdate bStatus (nodeId s.lrEnabled pData 4 0)
        (pData.slice (j + 1) (pData j).toNat) none) }

def applicationCommandHandler : Effect :=
  let j := 4 + idLen s.lrEnabled
  if detectBufferOverflow (idxData + 2) then {}
  else
    { reach := j + 1 + (pData j).toNat
      copied := (pData j).toNat
      call := some (.applicationCommandHandler (pData idxData) 0 (nodeId s.lrEnabled pData 4 0)
        (pData.slice (j + 1) (pData j).toNat)) }

def promiscuousApplicationCommandHandler : Effect :=
  if s.lrEnabled then { aborted := true }
  else if s.registered .applicationCommandHandler then
    if detectBufferOverflow (idxData + 2) then {}
    else
      { reach := max (6 + (pData 5).toNat) s.byLen.toNat
        front := decide (s.byLen = 0)
        copied := (pData 5).toNat
        call := some (.applicationCommandHandler (pData idxData)
          (if s.byLen = 0 then s.ahead else pData (s.byLen.toNat - 1)).toUInt16 (pData 4).toUInt16
          (pData.slice 6 (pData 5).toNat)) }
  else {}

def applicationCommandHandlerBridge : Effect :=
  let j := 4 + 2 * idLen s.lrEnabled
  if detectBufferOverflow (idxData + 3) then {}
  else
    { reach := j + 1 + (pData j).toNat
      copied := (pData j).toNat
      call := some (.applicationCommandHandlerBridge (pData idxData) (nodeId s.lrEnabled pData 4 0)
        (nodeId s.lrEnabled pData (4 + idLen s.lrEnabled) 0) (pData.slice (j + 1) (pData j).toNat)) }

def zwSendData (func : FuncId) (len : Nat) : Effect :=
  let reach := if 29 ≤ len then 29 else if 24 ≤ len then 24 else 5
  { reach := reach
    cleared := true
    call := if s.registered func then
        some (.txStatus func (pData 4) (if 24 ≤ len then some (pData.slice 5 (reach - 5)) else none))
      else none }

def learnInfo (func : FuncId) : Effect :=
  let bStatus := pData 4
  let j := 5 + idLen s.lrEnabled
  if bStatus = addNodeStatusAddingSlave ∨ bStatus = addNodeStatusAddingController then
    if detectBufferOverflow (pData j).toNat then { reach := j + 1 }
    else
      { reach := j + 1 + (pData j).toNat
        copied := (pData j).toNat
        call := some (.learnInfo func bStatus (nodeId s.lrEnabled pData 5 0) (pData.slice (j + 1) (pData j).toNat)) }
  else { reach := 5, call := some (.learnInfo func bStatus 0 []) }

def zwSetLearnMode : Effect :=
  let j := 5 + idLen s.lrEnabled
  if detectBufferOverflow j then { reach := j }
  else
    { reach := j + 1 + (pData j).toNat
      copied := (pData j).toNat
      call := some (.learnInfo .zwSetLearnMode (pData 4) (nodeId s.lrEnabled pData 5 0)
        (pData.slice (j + 1) (pData j).toNat)) }

def zwSetSlaveLearnMode : Effect :=
  { reach := 7, call := some (.slaveLearnMode (pData 4) (pData 5).toUInt16 (pData 6).toUInt16) }

def serialapiStarted : Effect :=
  { reach := 6 + (pData 5).toNat
    copied := (pData 5).toNat
    call := some (.serialApiStarted (pData.slice 6 (pData 5).toNat)) }

def statusOnly (func : FuncId) : Effect :=
  { reach := 5
    cleared := decide (func = .zwSendTestFrame)
    call := some (.txStatus func (pData 4) none) }

/-- A case of the switch; all but four of them look at their callback first. -/
def dispatchCase (srcId : UInt16) (len : Nat) (func : FuncId) : Effect :=
  match func with
  | .promiscuousApplicationCommandHandler => promiscuousApplicationCommandHandler s pData
  | .zwSendDataBridge | .zwSendData => zwSendData s pData func len
  | func =>
    if s.registered func then
      match func with
      | .zwApplicationControllerUpdate => applicationControllerUpdate s pData srcId
      | .applicationCommandHandler => applicationCommandHandler s pData
      | .applicationCommandHandlerBridge => applicationCommandHandlerBridge s pData
      | .memoryPutBuffer | .zwSetDefault => { call := some (.done func) }
      | .zwControllerChange | .zwCreateNewPrimary | .zwRemoveNodeFromNetwork | .zwAddNodeToNetwork =>
        learnInfo s pData func
      | .zwSetLearnMode => zwSetLearnMode s pData
      | .zwSetSlaveLearnMode => zwSetSlaveLearnMode pData
      | .serialapiStarted => serialapiStarted pData
      | func => statusOnly pData func
    else {}

def dispatch (srcId : UInt16) (len : Nat) : Effect :=
  if pData 1 = 1 then {}
  else match funcId (pData idxCmd) with
    | some func => dispatchCase s pData srcId len func
    | none => {}

end Cases

section Layout

def takeByte : Bytes → Option (UInt8 × Bytes)
  | [] => none
  | b :: rest => some (b, rest)

def takeBytes (n : Nat) (fields : Bytes) : Option (Bytes × Bytes) :=
  if n ≤ fields.length then some (fields.take n, fields.drop n) else none

def takeNodeId (lr : Bool) (fields : Bytes) : Option (UInt16 × Bytes) := do
  let (b, rest) ← takeByte fields
  if lr then
    let (lsb, rest) ← takeByte rest
    return (b.toUInt16 <<< 8 ||| lsb.toUInt16, rest)
  else return (b.toUInt16, rest)

/-- `funcID | bStatus | bSource | bLen | pCmd[ ]`. -/
def learnLayout (lr : Bool) (func : FuncId) (fields : Bytes) : Option Call := do
  let (_, rest) ← takeByte fields
  let (bStatus, rest) ← takeByte rest
  let (bSource, rest) ← takeNodeId lr rest
  let (bLen, rest) ← takeByte rest
  let (pCmd, _) ← takeBytes bLen.toNat rest
  return .learnInfo func bStatus bSource pCmd

/-- `funcID | txStatus`. -/
def statusLayout (func : FuncId) (fields : Bytes) : Option Call := do
  let (_, rest) ← takeByte fields
  let (txStatus, _) ← takeByte rest
  return .txStatus func txStatus none

/-- The call that the comment above a case describes; none when fields are missing, and for `ZW_SendData` and
the learn mode of a slave. -/
def documented (lr : Bool) (func : FuncId) (fields : Bytes) : Option Call :=
  match func with
  | .zwApplicationControllerUpdate => do
    let (bStatus, rest) ← takeByte fields
    let (source, rest) ← takeNodeId lr rest
    if bStatus = updateStateNodeInfoForeignHomeidReceived ∨ bStatus = updateStateNodeInfoSmartstartHomeidReceivedLr then
      let (bLen, rest) ← takeByte rest
      let (homeId, rest) ← takeBytes 4 rest
      let (info, _) ← takeBytes bLen.toNat rest
      return .applicationControllerUpdate bStatus source info (some homeId)
    else if bStatus = updateStateIncludedNodeInfoReceived then
      let (info, _) ← takeBytes 5 rest
      return .applicationControllerUpdate bStatus source info none
    else
      let (bLen, rest) ← takeByte rest
      let (info, _) ← takeBytes bLen.toNat rest
      return .applicationControllerUpdate bStatus source info none
  | .applicationCommandHandler => do
    let (rxStatus, rest) ← takeByte fields
    let (source, rest) ← takeNodeId lr rest
    let (cmdLength, rest) ← takeByte rest
    let (pCmd, _) ← takeBytes cmdLength.toNat rest
    return .applicationCommandHandler rxStatus 0 source pCmd
  -- The destination is the last byte of the frame, by the comment of the function on `byLen`.
  | .promiscuousApplicationCommandHandler => do
    let (rxStatus, rest) ← takeByte fields
    let (source, rest) ← takeByte rest
    let (cmdLength, rest) ← takeByte rest
    let (pCmd, _) ← takeBytes cmdLength.toNat rest
    return .applicationCommandHandler rxStatus (fields.getLastD 0).toUInt16 source.toUInt16 pCmd
  | .applicationCommandHandlerBridge => do
    let (rxStatus, rest) ← takeByte fields
    let (dest, rest) ← takeNodeId lr rest
    let (source, rest) ← takeNodeId lr rest
    let (cmdLength, rest) ← takeByte rest
    let (pCmd, _) ← takeBytes cmdLength.toNat rest
    return .applicationCommandHandlerBridge rxStatus dest source pCmd
  | .memoryPutBuffer | .zwSetDefault => some (.done func)
  | .zwControllerChange | .zwCreateNewPrimary | .zwRemoveNodeFromNetwork | .zwAddNodeToNetwork
  | .zwSetLearnMode => learnLayout lr func fields
  | .serialapiStarted => do
    let (_, rest) ← takeBytes 5 fields
    let (cmdClassLength, rest) ← takeByte rest
    let (cmdClass, _) ← takeBytes cmdClassLength.toNat rest
    return .serialApiStarted cmdClass
  | .zwSendDataBridge | .zwSendData | .zwSetSlaveLearnMode => none
  | func => statusLayout func fields

example : documented true .memoryPutBuffer [] = some (.done .memoryPutBuffer) := by
  simp only [documented]

variable {α : Type} (p : Mem) (len i n : Nat) (a : α)

theorem takeByte_bind (f : UInt8 × Bytes → Option α) : (takeByte (p.slice i (len - i))).bind f = some a ↔
      i < len ∧ f (p i, p.slice (i + 1) (len - (i + 1))) = some a := by
  by_cases h : i < len
  · rw [Mem.slice_cons p h]
    simp [takeByte, h]
  · rw [Nat.sub_eq_zero_of_le (by omega)]
    simp [takeByte, h]

theorem takeBytes_bind (f : Bytes × Bytes → Option α) : (takeBytes n (p.slice i (len - i))).bind f = some a ↔
      n ≤ len - i ∧ f (p.slice i n, p.slice (i + n) (len - (i + n))) = some a := by
  by_cases h : n ≤ len - i
  · obtain ⟨k, hk⟩ := Nat.exists_eq_add_of_le h
    rw [takeBytes, Mem.length_slice, if_pos h, Option.bind_some, hk, Mem.take_slice, Mem.drop_slice,
      show len - (i + n) = k by omega]
    simp
  · simp [takeBytes, h]

theorem takeNodeId_bind (lr : Bool) (f : UInt16 × Bytes → Option α) :
    (takeNodeId lr (p.slice i (len - i))).bind f = some a ↔
      i + idLen lr ≤ len ∧ f (nodeId lr p i 0, p.slice (i + idLen lr) (len - (i + idLen lr))) = some a := by
  cases lr
  · simp only [takeNodeId, Option.bind_eq_bind, Option.bind_assoc, takeByte_bind, idLen, nodeId,
      Bool.false_eq_true, if_false, UInt16.zero_or]
    exact Iff.rfl
  · simp only [takeNodeId, Option.bind_eq_bind, Option.bind_assoc, takeByte_bind, if_true, idLen, nodeId]
    exact and_assoc.symm.trans (and_congr (by omega) Iff.rfl)

end Layout

/-- A frame of the queue: its first byte is its length, and it is a request. -/
structure Received where
  pData : Mem
  len : Nat
  le_len : 3 ≤ len
  pData_zero : (pData 0).toNat = len
  pData_one : pData 1 = 0

def FuncId.callback : FuncId → FuncId
  | .promiscuousApplicationCommandHandler => .applicationCommandHandler
  | func => func

/-- What a frame is to do: nothing outside it is read, `pCmd` is not left, and where it has the fields of the
layout its callback gets them. -/
structure Faithful (s : Statics) (frame : Received) (e : Effect) : Prop where
  reach : e.reach ≤ frame.len
  front : e.front = false
  copied : e.copied ≤ bufSize
  aborted : e.aborted = false
  called : ∀ func, funcId (frame.pData idxCmd) = some func → s.registered func.callback →
    ∀ call, documented s.lrEnabled func (frame.pData.slice idxData (frame.len - idxData)) = some call →
      e.call = some call

/-- The bytes behind the length at `j` lie in the frame and fit into `pCmd`. -/
def Fits (p : Mem) (len j : Nat) : Prop :=
  j + 1 + (p j).toNat ≤ len ∧ (p j).toNat ≤ bufSize

def SoundLearnInfo (s : Statics) (p : Mem) (len : Nat) : Prop :=
  let j := 5 + idLen s.lrEnabled
  if p 4 = addNodeStatusAddingSlave ∨ p 4 = addNodeStatusAddingController then
    j + 1 ≤ len ∧ (j + 1 + (p j).toNat ≤ len ↔ (p j).toNat ≤ bufSize)
  else 5 ≤ len ∧ (j + 1 + (p j).toNat ≤ len → nodeId s.lrEnabled p 5 0 = 0 ∧ p j = 0)

/-- When the frame of a function does what it is to do. -/
def Sound (s : Statics) (srcId : UInt16) (p : Mem) (len : Nat) (func : FuncId) : Prop :=
  let j := 4 + idLen s.lrEnabled
  match func with
  | .promiscuousApplicationCommandHandler => s.lrEnabled = false ∧
    (s.registered .applicationCommandHandler → Fits p len 5 ∧
      s.byLen ≠ 0 ∧ s.byLen.toNat ≤ len ∧ p (s.byLen.toNat - 1) = p (len - 1))
  | .zwSendDataBridge | .zwSendData => 5 ≤ len
  | func => s.registered func → match func with
    | .zwApplicationControllerUpdate =>
      if p 3 = updateStateNodeInfoForeignHomeidReceived ∨ p 3 = updateStateNodeInfoSmartstartHomeidReceivedLr then
        j + 5 + min (p j).toNat bufSize ≤ len ∧ (j + 5 + (p j).toNat ≤ len → (p j).toNat ≤ bufSize)
      else if p 3 = updateStateIncludedNodeInfoReceived then
        j + 6 ≤ len ∧ (if s.lrEnabled then p 4 = p 5 ∧ p 5 = p 6 else (p 4).toUInt16 = srcId ||| (p 5).toUInt16) ∧
          ∀ i < 5, p (j + 1 + i) = p (j + i)
      else Fits p len j
    | .applicationCommandHandler => Fits p len j
    | .applicationCommandHandlerBridge => Fits p len (4 + 2 * idLen s.lrEnabled)
    | .memoryPutBuffer | .zwSetDefault => True
    | .zwControllerChange | .zwCreateNewPrimary | .zwRemoveNodeFromNetwork | .zwAddNodeToNetwork =>
      SoundLearnInfo s p len
    | .zwSetLearnMode => Fits p len (5 + idLen s.lrEnabled)
    | .zwSetSlaveLearnMode => 7 ≤ len
    | .serialapiStarted => 6 + (p 5).toNat ≤ len ∧ (p 5).toNat ≤ bufSize ∧
      (9 + (p 8).toNat ≤ len → p 5 = p 8 ∧ ∀ i < (p 5).toNat, p (6 + i) = p (9 + i))
    | _ => 5 ≤ len

example (s : Statics) (p : Mem) (len : Nat) : Sound s 0 p len .memoryPutBuffer := by
  simp only [Sound, implies_true]

section Documented

variable {p : Mem} {len : Nat} {lr : Bool} {call : Call}

theorem slice_inj {i j n k : Nat} : p.slice i n = p.slice j k ↔ n = k ∧ ∀ x < n, p (i + x) = p (j + x) := by
  constructor
  · intro h
    have hlen : n = k := by simpa using congrArg List.length h
    subst hlen
    exact ⟨rfl, fun x hx => by simpa [Mem.slice, hx] using congrArg (·[x]?) h⟩
  · rintro ⟨rfl, h⟩
    exact List.map_congr_left fun x hx => h x (List.mem_range.mp hx)

theorem documented_nodeInfo (h : p 3 = updateStateNodeInfoForeignHomeidReceived ∨
    p 3 = updateStateNodeInfoSmartstartHomeidReceivedLr) :
    documented lr .zwApplicationControllerUpdate (p.slice 3 (len - 3)) = some call ↔
      4 + idLen lr + 5 + (p (4 + idLen lr)).toNat ≤ len ∧ .applicationControllerUpdate (p 3) (nodeId lr p 4 0)
          (p.slice (4 + idLen lr + 5) (p (4 + idLen lr)).toNat) (some (p.slice (4 + idLen lr + 1) 4)) = call := by
  simp only [documented, Option.bind_eq_bind, takeByte_bind, takeNodeId_bind, takeBytes_bind, if_pos h,
    Option.pure_def, Option.some.injEq, ← and_assoc, Nat.add_assoc, Nat.reduceAdd]
  exact and_congr (by omega) Iff.rfl

theorem documented_included (h : p 3 = updateStateIncludedNodeInfoReceived) :
    documented lr .zwApplicationControllerUpdate (p.slice 3 (len - 3)) = some call ↔ 4 + idLen lr + 5 ≤ len ∧
        .applicationControllerUpdate (p 3) (nodeId lr p 4 0) (p.slice (4 + idLen lr) 5) none = call := by
  have hnot : ¬(p 3 = updateStateNodeInfoForeignHomeidReceived ∨
      p 3 = updateStateNodeInfoSmartstartHomeidReceivedLr) := by
    rw [h]
    decide
  simp only [documented, Option.bind_eq_bind, takeByte_bind, takeNodeId_bind, takeBytes_bind, if_neg hnot, if_pos h,
    Option.pure_def, Option.some.injEq, ← and_assoc, Nat.add_assoc, Nat.reduceAdd]
  exact and_congr (by omega) Iff.rfl

theorem documented_controllerUpdate (h : ¬(p 3 = updateStateNodeInfoForeignHomeidReceived ∨
    p 3 = updateStateNodeInfoSmartstartHomeidReceivedLr)) (h' : p 3 ≠ updateStateIncludedNodeInfoReceived) :
    documented lr .zwApplicationControllerUpdate (p.slice 3 (len - 3)) = some call ↔
      4 + idLen lr + 1 + (p (4 + idLen lr)).toNat ≤ len ∧ .applicationControllerUpdate (p 3) (nodeId lr p 4 0)
          (p.slice (4 + idLen lr + 1) (p (4 + idLen lr)).toNat) none = call := by
  simp only [documented, Option.bind_eq_bind, takeByte_bind, takeNodeId_bind, takeBytes_bind, if_neg h, if_neg h',
    Option.pure_def, Option.some.injEq, ← and_assoc, Nat.add_assoc, Nat.reduceAdd]
  exact and_congr (by omega) Iff.rfl

theorem documented_applicationCommandHandler :
    documented lr .applicationCommandHandler (p.slice 3 (len - 3)) = some call ↔
      4 + idLen lr + 1 + (p (4 + idLen lr)).toNat ≤ len ∧ .applicationCommandHandler (p 3) 0 (nodeId lr p 4 0)
          (p.slice (4 + idLen lr + 1) (p (4 + idLen lr)).toNat) = call := by
  simp only [documented, Option.bind_eq_bind, takeByte_bind, takeNodeId_bind, takeBytes_bind, Option.pure_def,
    Option.some.injEq, ← and_assoc, Nat.add_assoc, Nat.reduceAdd]
  exact and_congr (by omega) Iff.rfl

theorem documented_promiscuous : documented lr .promiscuousApplicationCommandHandler (p.slice 3 (len - 3)) = some call ↔
      6 + (p 5).toNat ≤ len ∧
        .applicationCommandHandler (p 3) (p (len - 1)).toUInt16 (p 4).toUInt16 (p.slice 6 (p 5).toNat) = call := by
  simp only [documented, Option.bind_eq_bind, takeByte_bind, takeBytes_bind, Option.pure_def, Option.some.injEq,
    ← and_assoc, Nat.reduceAdd]
  refine and_congr_left' (by omega) |>.trans (and_congr_right fun h => ?_)
  obtain ⟨k, hk⟩ := Nat.exists_eq_add_of_le (show 4 ≤ len by omega)
  rw [hk, show 4 + k - 3 = k + 1 by omega, Mem.slice_add]
  simp [Mem.slice, show 4 + k - 1 = 3 + k by omega]

theorem documented_bridge : documented lr .applicationCommandHandlerBridge (p.slice 3 (len - 3)) = some call ↔
      4 + 2 * idLen lr + 1 + (p (4 + 2 * idLen lr)).toNat ≤ len ∧
        .applicationCommandHandlerBridge (p 3) (nodeId lr p 4 0) (nodeId lr p (4 + idLen lr) 0)
          (p.slice (4 + 2 * idLen lr + 1) (p (4 + 2 * idLen lr)).toNat) = call := by
  simp only [documented, Option.bind_eq_bind, takeByte_bind, takeNodeId_bind, takeBytes_bind, Option.pure_def,
    Option.some.injEq, ← and_assoc, Nat.add_assoc, Nat.reduceAdd, Nat.two_mul]
  exact and_congr (by omega) Iff.rfl

theorem learnLayout_iff (func : FuncId) : learnLayout lr func (p.slice 3 (len - 3)) = some call ↔
      5 + idLen lr + 1 + (p (5 + idLen lr)).toNat ≤ len ∧
        .learnInfo func (p 4) (nodeId lr p 5 0) (p.slice (5 + idLen lr + 1) (p (5 + idLen lr)).toNat) = call := by
  simp only [learnLayout, Option.bind_eq_bind, takeByte_bind, takeNodeId_bind, takeBytes_bind, Option.pure_def,
    Option.some.injEq, ← and_assoc, Nat.add_assoc, Nat.reduceAdd]
  exact and_congr (by omega) Iff.rfl

theorem statusLayout_iff (func : FuncId) :
    statusLayout func (p.slice 3 (len - 3)) = some call ↔ 5 ≤ len ∧ .txStatus func (p 4) none = call := by
  simp only [statusLayout, Option.bind_eq_bind, takeByte_bind, Option.pure_def, Option.some.injEq, ← and_assoc,
    Nat.reduceAdd]
  exact and_congr (by omega) Iff.rfl

theorem documented_serialapiStarted : documented lr .serialapiStarted (p.slice 3 (len - 3)) = some call ↔
      9 + (p 8).toNat ≤ len ∧ .serialApiStarted (p.slice 9 (p 8).toNat) = call := by
  simp only [documented, Option.bind_eq_bind, takeByte_bind, takeBytes_bind, Option.pure_def, Option.some.injEq,
    ← and_assoc, Nat.reduceAdd]
  exact and_congr (by omega) Iff.rfl

end Documented

section Cases

variable {s : Statics} {frame : Received} {func : FuncId} {srcId : UInt16}

theorem faithful_iff (hf : funcId (frame.pData idxCmd) = some func) {e : Effect} {B : Prop} {c : Call}
    (hd : ∀ call, documented s.lrEnabled func (frame.pData.slice 3 (frame.len - 3)) = some call ↔ B ∧ c = call) :
    Faithful s frame e ↔ e.reach ≤ frame.len ∧ e.front = false ∧ e.copied ≤ bufSize ∧ e.aborted = false ∧
      (s.registered func.callback → B → e.call = some c) := by
  constructor
  · exact fun h => ⟨h.reach, h.front, h.copied, h.aborted, fun hr hB => h.called func hf hr c ((hd c).mpr ⟨hB, rfl⟩)⟩
  · rintro ⟨hreach, hfront, hcopied, haborted, hcall⟩
    refine ⟨hreach, hfront, hcopied, haborted, fun func' hf' hr call h => ?_⟩
    cases hf.symm.trans hf'
    obtain ⟨hB, rfl⟩ := (hd call).mp h
    exact hcall hr hB

theorem faithful_empty (h : s.registered func.callback = false) (hf : funcId (frame.pData idxCmd) = some func) :
    Faithful s frame {} := by
  refine ⟨Nat.zero_le _, rfl, Nat.zero_le _, rfl, fun func' hf' hr => ?_⟩
  cases hf.symm.trans hf'
  rw [h] at hr
  contradiction

theorem toNat_word (a b : UInt8) : (a.toUInt16 <<< 8 ||| b.toUInt16).toNat = a.toNat * 256 + b.toNat := by
  have ha := a.toNat_lt
  have hb := b.toNat_lt
  rw [UInt16.toNat_or, UInt16.toNat_shiftLeft, UInt8.toNat_toUInt16, UInt8.toNat_toUInt16]
  change a.toNat <<< 8 % 2 ^ 16 ||| b.toNat = a.toNat * 256 + b.toNat
  rw [Nat.shiftLeft_eq, Nat.mod_eq_of_lt (by omega), Nat.mul_comm a.toNat, ← Nat.two_pow_add_eq_or_of_lt hb,
    Nat.mul_comm]

theorem nodeId_eq_iff {lr : Bool} {p : Mem} : nodeId lr p 5 srcId = nodeId lr p 4 0 ↔
    if lr then p 4 = p 5 ∧ p 5 = p 6 else (p 4).toUInt16 = srcId ||| (p 5).toUInt16 := by
  cases lr
  · simp [nodeId, eq_comm]
  · have h5 := (p 5).toNat_lt
    have h6 := (p 6).toNat_lt
    simp only [nodeId, if_true, ← UInt16.toNat_inj, toNat_word, ← UInt8.toNat_inj, Nat.reduceAdd]
    omega

theorem controllerUpdate_iff (hf : funcId (frame.pData idxCmd) = some .zwApplicationControllerUpdate)
    (hr : s.registered .zwApplicationControllerUpdate) :
    Faithful s frame (applicationControllerUpdate s frame.pData srcId) ↔
      Sound s srcId frame.pData frame.len .zwApplicationControllerUpdate := by
  have hguard := detectBufferOverflow_eq_false (show idxData + 2 ≤ bufSize by decide)
  simp only [Sound, hr, true_imp_iff, applicationControllerUpdate, hguard, Bool.false_eq_true, if_false]
  by_cases hsmart : frame.pData 3 = updateStateNodeInfoForeignHomeidReceived ∨
      frame.pData 3 = updateStateNodeInfoSmartstartHomeidReceivedLr
  · rw [faithful_iff hf fun call => documented_nodeInfo hsmart]
    simp [idxData, hsmart, hr, FuncId.callback, bufSize, slice_inj]
  simp only [if_neg hsmart]
  by_cases hincluded : frame.pData 3 = updateStateIncludedNodeInfoReceived
  · rw [faithful_iff hf fun call => documented_included hincluded]
    simp [hincluded, hr, FuncId.callback, bufSize, slice_inj, nodeId_eq_iff]
    exact fun h => .inl (by omega)
  · rw [faithful_iff hf fun call => documented_controllerUpdate hsmart hincluded]
    simp [hincluded, hr, FuncId.callback, bufSize, Fits]

theorem promiscuous_iff (hf : funcId (frame.pData idxCmd) = some .promiscuousApplicationCommandHandler) :
    Faithful s frame (promiscuousApplicationCommandHandler s frame.pData) ↔
      Sound s srcId frame.pData frame.len .promiscuousApplicationCommandHandler := by
  rw [faithful_iff hf fun call => documented_promiscuous]
  simp only [Sound, promiscuousApplicationCommandHandler]
  by_cases hlr : s.lrEnabled
  · simp [hlr]
  by_cases hr : s.registered .applicationCommandHandler
  · by_cases hbyLen : s.byLen = 0
    · simp [hlr, hr, hbyLen, detectBufferOverflow, idxData, bufSize]
    · simp [hlr, hr, hbyLen, detectBufferOverflow, idxData, FuncId.callback, bufSize, Fits, UInt8.toUInt16_inj]
      tauto
  · simp [hlr, hr, FuncId.callback]

theorem learnInfo_iff (hf : funcId (frame.pData idxCmd) = some func) (hcallback : func.callback = func)
    (hr : s.registered func)
    (hd : ∀ fields, documented s.lrEnabled func fields = learnLayout s.lrEnabled func fields) :
    Faithful s frame (learnInfo s frame.pData func) ↔ SoundLearnInfo s frame.pData frame.len := by
  rw [faithful_iff hf fun call => (hd _).symm ▸ learnLayout_iff func]
  simp only [learnInfo, SoundLearnInfo, hcallback, hr, true_imp_iff]
  by_cases hstatus : frame.pData 4 = addNodeStatusAddingSlave ∨ frame.pData 4 = addNodeStatusAddingController
  · by_cases hguard : detectBufferOverflow (frame.pData (5 + idLen s.lrEnabled)).toNat
    · have hover := of_decide_eq_true hguard
      simp [hstatus, hguard, Nat.not_le.mpr hover]
    · have hfits : (frame.pData (5 + idLen s.lrEnabled)).toNat ≤ bufSize := by
        simpa [detectBufferOverflow] using hguard
      simp [hstatus, hguard, hfits]
      omega
  · simp [hstatus]
    refine fun _ => imp_congr_right fun _ => and_congr eq_comm ?_
    rw [← List.length_eq_zero_iff, Mem.length_slice, ← UInt8.toNat_inj]
    rfl

theorem zwSetLearnMode_iff (hf : funcId (frame.pData idxCmd) = some .zwSetLearnMode)
    (hr : s.registered .zwSetLearnMode) :
    Faithful s frame (zwSetLearnMode s frame.pData) ↔ Sound s srcId frame.pData frame.len .zwSetLearnMode := by
  rw [faithful_iff hf fun call => learnLayout_iff .zwSetLearnMode]
  have hguard : detectBufferOverflow (5 + idLen s.lrEnabled) = false := by
    cases s.lrEnabled <;> rfl
  simp [Sound, zwSetLearnMode, hguard, hr, Fits, bufSize, FuncId.callback]

theorem serialapiStarted_iff (hf : funcId (frame.pData idxCmd) = some .serialapiStarted)
    (hr : s.registered .serialapiStarted) :
    Faithful s frame (serialapiStarted frame.pData) ↔ Sound s srcId frame.pData frame.len .serialapiStarted := by
  rw [faithful_iff hf fun call => documented_serialapiStarted]
  simp [Sound, serialapiStarted, hr, bufSize, FuncId.callback, slice_inj, UInt8.toNat_inj]

theorem statusOnly_iff (hf : funcId (frame.pData idxCmd) = some func)
    (hd : ∀ fields, documented s.lrEnabled func fields = statusLayout func fields) :
    Faithful s frame (statusOnly frame.pData func) ↔ 5 ≤ frame.len := by
  rw [faithful_iff hf fun call => (hd _).symm ▸ statusLayout_iff func]
  simp [statusOnly, bufSize]

theorem undocumented_iff (hf : funcId (frame.pData idxCmd) = some func) {e : Effect} (hfront : e.front = false)
    (hcopied : e.copied = 0) (haborted : e.aborted = false)
    (hd : ∀ fields, documented s.lrEnabled func fields = none) :
    Faithful s frame e ↔ e.reach ≤ frame.len := by
  refine ⟨Faithful.reach, fun h => ⟨h, hfront, hcopied ▸ Nat.zero_le _, haborted, fun func' hf' hr call hcall => ?_⟩⟩
  cases hf.symm.trans hf'
  rw [hd] at hcall
  contradiction

theorem zwSendData_iff (hf : funcId (frame.pData idxCmd) = some func)
    (hd : ∀ fields, documented s.lrEnabled func fields = none) :
    Faithful s frame (zwSendData s frame.pData func frame.len) ↔ 5 ≤ frame.len := by
  refine (undocumented_iff hf rfl rfl rfl hd).trans ?_
  simp only [zwSendData]
  split_ifs <;> omega

theorem dispatchCase_iff (hf : funcId (frame.pData idxCmd) = some func) :
    Faithful s frame (dispatchCase s frame.pData srcId frame.len func) ↔ Sound s srcId frame.pData frame.len func := by
  have hguard := detectBufferOverflow_eq_false (show idxData + 2 ≤ bufSize by decide)
  have hguard' := detectBufferOverflow_eq_false (show idxData + 3 ≤ bufSize by decide)
  by_cases hr : s.registered func
  · cases func
    case zwApplicationControllerUpdate => simpa [dispatchCase, hr] using controllerUpdate_iff hf hr
    case applicationCommandHandler =>
      rw [faithful_iff hf fun call => documented_applicationCommandHandler]
      simp [dispatchCase, Sound, applicationCommandHandler, hguard, hr, Fits, FuncId.callback]
    case applicationCommandHandlerBridge =>
      rw [faithful_iff hf fun call => documented_bridge]
      simp [dispatchCase, Sound, applicationCommandHandlerBridge, hguard', hr, Fits, FuncId.callback]
    case promiscuousApplicationCommandHandler => exact promiscuous_iff hf
    case zwSendData | zwSendDataBridge => exact zwSendData_iff hf fun _ => rfl
    case zwSetSlaveLearnMode =>
      simp only [dispatchCase, Sound, hr, if_true, true_imp_iff]
      exact undocumented_iff hf rfl rfl rfl fun _ => rfl
    case memoryPutBuffer | zwSetDefault =>
      rw [faithful_iff hf fun call => Option.some_inj.trans (iff_of_eq (true_and _)).symm]
      simp [dispatchCase, Sound, hr, bufSize]
    case zwSetLearnMode => simpa [dispatchCase, hr] using zwSetLearnMode_iff hf hr
    case zwControllerChange | zwCreateNewPrimary | zwRemoveNodeFromNetwork | zwAddNodeToNetwork =>
      simpa [dispatchCase, Sound, hr] using learnInfo_iff hf rfl hr fun _ => rfl
    case serialapiStarted => simpa [dispatchCase, hr] using serialapiStarted_iff hf hr
    all_goals simpa [dispatchCase, Sound, hr] using statusOnly_iff hf fun _ => rfl
  · have hunregistered := (Bool.not_eq_true _).mp hr
    cases func
    case promiscuousApplicationCommandHandler => exact promiscuous_iff hf
    case zwSendData | zwSendDataBridge => exact zwSendData_iff hf fun _ => rfl
    all_goals simpa [dispatchCase, Sound, hr] using faithful_empty hunregistered hf

/-- A frame does what it is to do exactly if its bytes meet the condition of its function: in every case its
lengths stay inside it and under the size of `pCmd`; an included node's information and the start of the chip,
which are read at wrong places, have equal bytes there. -/
theorem dispatch_faithful_iff (s : Statics) (srcId : UInt16) (frame : Received) :
    Faithful s frame (dispatch s frame.pData srcId frame.len) ↔
      ∀ func, funcId (frame.pData idxCmd) = some func → Sound s srcId frame.pData frame.len func := by
  have hrequest : frame.pData 1 ≠ 1 := by
    rw [frame.pData_one]
    decide
  rw [dispatch, if_neg hrequest]
  cases hf : funcId (frame.pData idxCmd) with
  | none =>
    refine iff_of_true ⟨Nat.zero_le _, rfl, Nat.zero_le _, rfl, fun func h => ?_⟩ (fun func h => ?_)
    · rw [hf] at h
      contradiction
    · contradiction
  | some func =>
    refine (dispatchCase_iff hf).trans ⟨fun h func' hf' => ?_, fun h => h func rfl⟩
    cases hf'
    exact h

end Cases

def includedNodeInfo : Received where
  pData := Mem.ofBytes [10, 0, 0x49, 0x86, 7, 0, 1, 2, 3, 4]
  len := 10
  le_len := by decide
  pData_zero := rfl
  pData_one := rfl

def eightBit : Statics := ⟨false, 0, 0, fun _ => true⟩

theorem dispatch_not_faithful : (dispatch eightBit includedNodeInfo.pData 0 10).call =
        some (.applicationControllerUpdate 0x86 0 [1, 2, 3, 4, 0] none) ∧
      documented false .zwApplicationControllerUpdate [0x86, 7, 0, 1, 2, 3, 4] =
        some (.applicationControllerUpdate 0x86 7 [0, 1, 2, 3, 4] none) ∧
      ¬Faithful eightBit includedNodeInfo (dispatch eightBit includedNodeInfo.pData 0 10) := by
  refine ⟨by decide, by decide, fun h => ?_⟩
  have hreach := h.reach
  revert hreach
  decide

end ZipGateway.SerialApi

import Mathlib
import ZipGateway.Packet

/-!
# Commands from the local socket

`SAPI_ProcessIncoming` takes a line of hexadecimal fields with dots between them and calls the application.
The fields are stored in variables of one, two and eight bytes; the state is checked before it is stored. For
a switch or a level the command class is looked up, and the command is sent without one when it is not there.
-/

namespace ZipGateway.SerialApi

def sapiSendSwitch : UInt8 := 3
def sapiSendLevel : UInt8 := 4
def localMsgSize : Nat := 50

def commandClassSwitchBinary : UInt8 := 0x25
def commandClassSwitchMultilevel : UInt8 := 0x26
def commandClassMultiChannel : UInt8 := 0x60
def switchBinarySet : UInt8 := 0x01
def switchMultilevelSet : UInt8 := 0x01
def switchMultilevelStopLevelChange : UInt8 := 0x05
def multiChannelCmdEncap : UInt8 := 0x0D

/-- `SAPI_GET_NODE_INFO`, `SAPI_BROADCAST_NODE_INFO`, `SAPI_CONFIGURE_PARAMETER`, `SAPI_PRIORITY_ROUTE` and
`SAPI_GET_ROUTE`, and the two commands. -/
def requireNodeId (function : UInt8) : Bool :=
  function ∈ [sapiSendSwitch, sapiSendLevel, 6, 11, 16, 17, 19]

section Numbers

def hexDigit (b : UInt8) : Option Nat :=
  if 0x30 ≤ b ∧ b ≤ 0x39 then some (b.toNat - 0x30)
  else if 0x61 ≤ b ∧ b ≤ 0x66 then some (10 + (b.toNat - 0x61))
  else if 0x41 ≤ b ∧ b ≤ 0x46 then some (10 + (b.toNat - 0x41))
  else none

def hexDigits (p : Bytes) : List Nat :=
  let p := p.dropWhile fun b => b = 0x20 ∨ b = 0x09
  let p := if p.head? = some 0x30 ∧ (p[1]? = some 0x78 ∨ p[1]? = some 0x58) then p.drop 2 else p
  (p.map hexDigit).takeWhile Option.isSome |>.filterMap id

def atoh (p : Bytes) : UInt32 :=
  (hexDigits p).foldl (fun n d => n * 16 + UInt32.ofNat d) 0

def hexValue (p : Bytes) : Nat :=
  (hexDigits p).foldl (fun n d => n * 16 + d) 0

theorem atoh_toNat (p : Bytes) : (atoh p).toNat = hexValue p % 2 ^ 32 := by
  have hfold : ∀ (l : List Nat) (n : UInt32) (m : Nat), n.toNat = m % 2 ^ 32 →
      (l.foldl (fun n d => n * 16 + UInt32.ofNat d) n).toNat = l.foldl (fun n d => n * 16 + d) m % 2 ^ 32 := by
    intro l
    induction l with
    | nil => exact fun _ _ h => h
    | cons d l ih =>
      intro n m h
      apply ih
      rw [UInt32.toNat_add, UInt32.toNat_mul, UInt32.toNat_ofNat', h]
      change (m % 2 ^ 32 * 16 % 2 ^ 32 + d % 2 ^ 32) % 2 ^ 32 = (m * 16 + d) % 2 ^ 32
      omega
  exact hfold _ 0 0 rfl

theorem atoh_eq (p : Bytes) : atoh p = UInt32.ofNat (hexValue p) ∧ (atoh p).toUInt16 = UInt16.ofNat (hexValue p) ∧
    (atoh p).toUInt8 = UInt8.ofNat (hexValue p) := by
  have hatoh := atoh_toNat p
  refine ⟨UInt32.toNat_inj.mp ?_, UInt16.toNat_inj.mp ?_, UInt8.toNat_inj.mp ?_⟩
  · rw [hatoh, UInt32.toNat_ofNat']
  · rw [UInt32.toNat_toUInt16, hatoh, UInt16.toNat_ofNat']
    omega
  · rw [UInt32.toNat_toUInt8, hatoh, UInt8.toNat_ofNat']
    omega

end Numbers

def fields (line : Bytes) : List Bytes :=
  (line.splitOn 0x2E).filter (· ≠ [])

def clone (line behind : Bytes) : Bytes :=
  if line.length < localMsgSize then line else line.take localMsgSize ++ behind

structure SerApiCtx where
  function : UInt8
  desNodeId : UInt16
  desEpid : UInt8
  state : UInt8
  zwData : UInt32
  cmdClass : UInt8
  cmdFunction : UInt8
  encapCmdClass : UInt8
  encapCmdFunction : UInt8
  isMultichannel : Bool
deriving DecidableEq, Repr

/-- The known nodes, and the rows of `supported_cmd_class`. -/
structure Site where
  nodes : List Nat
  supported : List (Nat × UInt8)

namespace Site

variable (site : Site)

def dbQuerySupportedCmdClass (node : UInt16) (cls : UInt8) : UInt8 × UInt8 :=
  if (node.toNat, cls) ∈ site.supported then (node.toUInt8, cls) else (0, 0)

def lists (node : UInt16) (cls : UInt8) : Bool :=
  let tmp := site.dbQuerySupportedCmdClass node cls
  tmp.2 = cls ∧ tmp.1.toUInt16 = node

def encapsulate (input : SerApiCtx) : SerApiCtx :=
  if site.lists input.desNodeId commandClassMultiChannel then
    { input with encapCmdClass := commandClassMultiChannel, encapCmdFunction := multiChannelCmdEncap, isMultichannel := true }
  else { input with encapCmdClass := 0, encapCmdFunction := 0, isMultichannel := false }

def fetchcmdclass (input : SerApiCtx) : SerApiCtx :=
  if input.function = sapiSendSwitch then
    if site.lists input.desNodeId commandClassSwitchBinary then
      site.encapsulate { input with cmdClass := commandClassSwitchBinary, cmdFunction := switchBinarySet }
    else input
  else if input.function = sapiSendLevel then
    if site.lists input.desNodeId commandClassSwitchMultilevel then
      let input := { input with cmdClass := commandClassSwitchMultilevel }
      site.encapsulate (if input.zwData = 1 then { input with cmdFunction := switchMultilevelSet, state := 0xFF }
        else if input.zwData = 3 then { input with cmdFunction := switchMultilevelStopLevelChange }
        else if input.zwData = 2 then { input with cmdFunction := switchMultilevelSet, state := 0 }
        else input)
    else input
  else input

end Site

def parse : List Bytes → Option SerApiCtx
  | [] => none
  | f :: fields =>
    let input : SerApiCtx := ⟨(atoh f).toUInt8, 0, 0, 0, 0, 0, 0, 0, 0, false⟩
    match fields with
    | [] => some input
    | f :: fields =>
      let input := { input with desNodeId := (atoh f).toUInt16 }
      match fields with
      | [] => some input
      | f :: fields =>
        let input := { input with desEpid := (atoh f).toUInt8 }
        match fields with
        | [] => some input
        | f :: fields =>
          if 0xFF < input.state.toNat then none
          else
            let input := { input with state := (atoh f).toUInt8 }
            match fields with
            | [] => some input
            | f :: _ => if 8 < f.length then none else some { input with zwData := atoh f }

/-- `crashed`: `atoh` is given a null pointer. -/
inductive Outcome where
  | rejected
  | crashed
  | called (input : SerApiCtx)
deriving DecidableEq, Repr

def Site.processIncoming (site : Site) (line behind : Bytes) : Outcome :=
  if line = [] then .rejected
  else if fields (clone line behind) = [] then .crashed
  else
    match parse (fields (clone line behind)) with
    | none => .rejected
    | some input =>
      if input.desNodeId.toNat ∈ site.nodes then
        if input.function = sapiSendSwitch ∨ input.function = sapiSendLevel then .called (site.fetchcmdclass input)
        else .called input
      else if requireNodeId input.function then .rejected
      else .called input

/-- What the fields of a line say, as numbers; a field that is not there is 0. -/
structure Request where
  function : Nat
  node : Nat
  endpoint : Nat
  state : Nat
  data : Nat
deriving DecidableEq, Repr

def denoted (l : List Bytes) : Request :=
  let value i := (l[i]?).elim 0 hexValue
  ⟨value 0, value 1, value 2, value 3, value 4⟩

def SerApiCtx.request (input : SerApiCtx) : Request :=
  ⟨input.function.toNat, input.desNodeId.toNat, input.desEpid.toNat, input.state.toNat, input.zwData.toNat⟩

def Site.Unknown (site : Site) (r : Request) : Prop :=
  requireNodeId (UInt8.ofNat r.function) = true ∧ r.function < 2 ^ 8 ∧ r.node ∉ site.nodes

def dataField (l : List Bytes) : Bytes :=
  l.getD 4 []

def Site.SendsListed (site : Site) (input : SerApiCtx) : Prop :=
  (input.desNodeId.toNat, input.cmdClass) ∈ site.supported ∧
    (input.isMultichannel = true → (input.desNodeId.toNat, input.encapCmdClass) ∈ site.supported)

def SerApiCtx.IsCommand (input : SerApiCtx) : Prop :=
  input.function = sapiSendSwitch ∨ input.function = sapiSendLevel

/-- The line is rejected, or the application is called with what it says; not for a state or data that are out of
range nor for an unknown node, and for a switch or a level only with classes that are listed for the node. -/
def Site.Handles (site : Site) (line behind : Bytes) : Prop :=
  match site.processIncoming line behind with
  | .rejected => True
  | .crashed => False
  | .called input => input.request = denoted (fields line) ∧ (denoted (fields line)).state ≤ 0xFF ∧
      (hexDigits (dataField (fields line))).length ≤ 8 ∧ ¬site.Unknown (denoted (fields line)) ∧
      (input.IsCommand → site.SendsListed input)

section Handling

variable {site : Site} {input : SerApiCtx} {l : List Bytes}

def storedCtx (l : List Bytes) : SerApiCtx :=
  ⟨UInt8.ofNat (denoted l).function, UInt16.ofNat (denoted l).node, UInt8.ofNat (denoted l).endpoint,
    UInt8.ofNat (denoted l).state, UInt32.ofNat (denoted l).data, 0, 0, 0, 0, false⟩

theorem parse_eq (h : l ≠ []) : parse l = if 8 < (dataField l).length then none else some (storedCtx l) := by
  have hword := fun p => (atoh_eq p).1
  rcases l with _ | ⟨f, _ | ⟨n, _ | ⟨e, _ | ⟨st, _ | ⟨d, l⟩⟩⟩⟩⟩
  · exact absurd rfl h
  all_goals simp [parse, denoted, dataField, storedCtx, hword]

/-- The class is listed for a node whose id fits in a row. -/
def Site.Listed (site : Site) (node : Nat) (cls : UInt8) : Prop :=
  node < 2 ^ 8 ∧ (node, cls) ∈ site.supported

theorem lists_iff {node : UInt16} {cls : UInt8} (hcls : cls ≠ 0) :
    site.lists node cls = true ↔ site.Listed node.toNat cls := by
  have hbyte : node.toUInt8.toUInt16 = node ↔ node.toNat < 2 ^ 8 := by
    rw [← UInt16.toNat_inj, UInt8.toNat_toUInt16, UInt16.toNat_toUInt8]
    omega
  unfold Site.lists Site.dbQuerySupportedCmdClass Site.Listed
  rw [decide_eq_true_eq]
  split
  · rename_i hmem
    rw [hbyte]
    tauto
  · rename_i hmem
    exact ⟨fun h => absurd h.1.symm hcls, fun h => absurd h.2 hmem⟩

def classOf (function : UInt8) : UInt8 :=
  if function = sapiSendSwitch then commandClassSwitchBinary else commandClassSwitchMultilevel

instance (node : Nat) (cls : UInt8) : Decidable (site.Listed node cls) :=
  inferInstanceAs (Decidable (_ ∧ _))

def leveled (input : SerApiCtx) : SerApiCtx :=
  if input.function = sapiSendLevel then
    if input.zwData = 1 then { input with state := 0xFF } else if input.zwData = 2 then { input with state := 0 } else input
  else input

def Site.sent (site : Site) (input : SerApiCtx) : SerApiCtx :=
  if site.Listed input.desNodeId.toNat (classOf input.function) then leveled input else input

theorem encapsulate_fields : (site.encapsulate input).request = input.request ∧
    (site.encapsulate input).function = input.function ∧ (site.encapsulate input).desNodeId = input.desNodeId ∧
    (site.encapsulate input).cmdClass = input.cmdClass ∧ ((site.encapsulate input).isMultichannel = true →
      (input.desNodeId.toNat, (site.encapsulate input).encapCmdClass) ∈ site.supported) := by
  unfold Site.encapsulate
  split
  · rename_i hlists
    exact ⟨rfl, rfl, rfl, rfl, fun _ => ((lists_iff (by decide)).mp hlists).2⟩
  · exact ⟨rfl, rfl, rfl, rfl, fun h => absurd h Bool.false_ne_true⟩

/-- Where the class is not listed, nothing is changed; else the class is set, and the state of a level. -/
theorem fetchcmdclass_eq (h : input.IsCommand) :
    ∃ cmdFunction, site.fetchcmdclass input = if site.lists input.desNodeId (classOf input.function) then
      site.encapsulate { leveled input with cmdClass := classOf input.function, cmdFunction := cmdFunction }
    else input := by
  unfold Site.fetchcmdclass classOf leveled
  rcases h with hfn | hfn
  · have hswitch : input.function ≠ sapiSendLevel := by
      rw [hfn]
      decide
    exact ⟨switchBinarySet, by simp only [if_pos hfn, if_neg hswitch]⟩
  · have hlevel : input.function ≠ sapiSendSwitch := by
      rw [hfn]
      decide
    simp only [if_neg hlevel, if_pos hfn]
    by_cases hopen : input.zwData = 1
    · exact ⟨switchMultilevelSet, by simp only [if_pos hopen]⟩
    by_cases hclose : input.zwData = 2
    · have hpause : input.zwData ≠ 3 := by
        rw [hclose]
        decide
      exact ⟨switchMultilevelSet, by simp only [if_neg hopen, if_neg hpause, if_pos hclose]⟩
    by_cases hpause : input.zwData = 3
    · exact ⟨switchMultilevelStopLevelChange, by simp only [if_neg hopen, if_pos hpause, if_neg hclose]⟩
    · exact ⟨input.cmdFunction, by simp only [if_neg hopen, if_neg hclose, if_neg hpause]⟩

theorem fetched_fields (h : input.IsCommand) (hclass : input.cmdClass = 0) (hsingle : input.isMultichannel = false) :
    (site.fetchcmdclass input).request = (site.sent input).request ∧
    (site.SendsListed (site.fetchcmdclass input) ↔
      site.Listed input.desNodeId.toNat (classOf input.function) ∨ (input.desNodeId.toNat, 0) ∈ site.supported) := by
  have hcls : classOf input.function ≠ 0 := by
    unfold classOf
    split <;> decide
  have hlists := @lists_iff site input.desNodeId _ hcls
  have hleveled : (leveled input).desNodeId = input.desNodeId := by
    unfold leveled
    split_ifs <;> rfl
  obtain ⟨cmdFunction, hfetch⟩ := @fetchcmdclass_eq site input h
  rw [hfetch, Site.sent, Site.SendsListed]
  by_cases hlisted : site.Listed input.desNodeId.toNat (classOf input.function)
  · obtain ⟨hrequest, -, hnode, hcmd, hencap⟩ := @encapsulate_fields site
      { leveled input with cmdClass := classOf input.function, cmdFunction := cmdFunction }
    rw [if_pos (hlists.mpr hlisted), if_pos hlisted, hrequest, hnode, hcmd]
    refine ⟨rfl, fun _ => .inl hlisted, fun _ => ⟨?_, hencap⟩⟩
    exact hleveled ▸ hlisted.2
  · rw [if_neg (hlists.not.mpr hlisted), if_neg hlisted, hclass, hsingle]
    exact ⟨rfl, fun h => .inr h.1, fun h => ⟨h.resolve_left hlisted, fun h => absurd h Bool.false_ne_true⟩⟩

theorem leveled_fields : (leveled input).function = input.function ∧ (leveled input).desNodeId = input.desNodeId := by
  unfold leveled
  split_ifs <;> exact ⟨rfl, rfl⟩

theorem fields_of_request {out : SerApiCtx} (h : out.request.function = input.function.toNat ∧ out.request.node = input.desNodeId.toNat) :
    out.function = input.function ∧ out.desNodeId = input.desNodeId :=
  ⟨UInt8.toNat_inj.mp h.1, UInt16.toNat_inj.mp h.2⟩

theorem requireNodeId_of_command (h : input.IsCommand) : requireNodeId input.function = true := by
  rcases h with h | h <;> rw [h] <;> decide

theorem sent_fields : (site.sent input).function = input.function ∧ (site.sent input).desNodeId = input.desNodeId := by
  unfold Site.sent
  split
  · exact leveled_fields
  · exact ⟨rfl, rfl⟩

theorem sent_of_not_command (h : ¬input.IsCommand) : site.sent input = input := by
  unfold Site.sent leveled
  rw [if_neg fun hlevel => h (.inr hlevel), ite_self]

/-- The fields `s` are stored as `r`: each as it fits in its variable, and the state as it is or as the one of a
level that is opened or closed. -/
def Site.Keeps (site : Site) (s r : Request) : Prop :=
  r.function = s.function % 2 ^ 8 ∧ r.node = s.node % 2 ^ 16 ∧ r.endpoint = s.endpoint % 2 ^ 8 ∧
  r.data = s.data % 2 ^ 32 ∧ r.state =
    if r.function = 4 ∧ r.data = 1 ∧ site.Listed r.node commandClassSwitchMultilevel then 0xFF
    else if r.function = 4 ∧ r.data = 2 ∧ site.Listed r.node commandClassSwitchMultilevel then 0
    else s.state % 2 ^ 8

theorem sent_request_iff {r : Request} : (site.sent (storedCtx l)).request = r ↔ site.Keeps (denoted l) r := by
  have hlevel : (storedCtx l).function = sapiSendLevel ↔ (denoted l).function % 2 ^ 8 = 4 := by
    rw [← UInt8.toNat_inj]
    rfl
  have hopen : (storedCtx l).zwData = 1 ↔ (denoted l).data % 2 ^ 32 = 1 := by
    rw [← UInt32.toNat_inj]
    rfl
  have hclose : (storedCtx l).zwData = 2 ↔ (denoted l).data % 2 ^ 32 = 2 := by
    rw [← UInt32.toNat_inj]
    rfl
  have hclass (h : (storedCtx l).function = sapiSendLevel) :
      classOf (storedCtx l).function = commandClassSwitchMultilevel := by
    rw [h]
    rfl
  have hstored : (storedCtx l).request = ⟨(denoted l).function % 2 ^ 8, (denoted l).node % 2 ^ 16,
      (denoted l).endpoint % 2 ^ 8, (denoted l).state % 2 ^ 8, (denoted l).data % 2 ^ 32⟩ := rfl
  have hsent : (site.sent (storedCtx l)).request = { (storedCtx l).request with
      state := if (storedCtx l).function = sapiSendLevel ∧ (storedCtx l).zwData = 1 ∧
          site.Listed (storedCtx l).desNodeId.toNat commandClassSwitchMultilevel then 0xFF
        else if (storedCtx l).function = sapiSendLevel ∧ (storedCtx l).zwData = 2 ∧
          site.Listed (storedCtx l).desNodeId.toNat commandClassSwitchMultilevel then 0
        else (storedCtx l).state.toNat } := by
    unfold Site.sent leveled
    by_cases hfn : (storedCtx l).function = sapiSendLevel
    · rw [hclass hfn]
      split_ifs <;> simp_all [SerApiCtx.request]
    · simp only [hfn, false_and, if_false, ite_self]
      rfl
  simp only [hsent, hstored, hlevel, hopen, hclose]
  obtain ⟨function, node, endpoint, state, data⟩ := r
  rw [Request.mk.injEq, Site.Keeps]
  constructor
  · rintro ⟨rfl, rfl, rfl, rfl, rfl⟩
    exact ⟨rfl, rfl, rfl, rfl, rfl⟩
  · rintro ⟨rfl, rfl, rfl, rfl, hstate⟩
    exact ⟨rfl, rfl, rfl, hstate.symm, rfl⟩

theorem called_iff {out : SerApiCtx} {P : Prop} (hknown : ¬(out.desNodeId.toNat ∉ site.nodes ∧ requireNodeId out.function = true)) :
    (out.request = denoted l ∧ (denoted l).state ≤ 0xFF ∧ (hexDigits (dataField l)).length ≤ 8 ∧
      ¬site.Unknown (denoted l) ∧ P) ↔ out.request = denoted l ∧ (hexDigits (dataField l)).length ≤ 8 ∧ P := by
  constructor
  · exact fun h => ⟨h.1, h.2.2.1, h.2.2.2.2⟩
  · rintro ⟨hrequest, hdigits, hp⟩
    refine ⟨hrequest, ?_, hdigits, ?_, hp⟩
    · rw [← hrequest]
      exact Nat.le_of_lt_succ out.state.toNat_lt
    · rintro ⟨hrequire, -, hnode⟩
      rw [← hrequest] at hrequire hnode
      exact hknown ⟨hnode, by rwa [SerApiCtx.request, UInt8.ofNat_toNat] at hrequire⟩

/-- A line is handled as it should be exactly if it is empty, or there is a field in it and it is refused for its
data field or its node, or else its fields are kept as they are and the class of a switch or a level is listed. -/
theorem handles_iff (site : Site) (line behind : Bytes) : site.Handles line behind ↔ line = [] ∨
    fields (clone line behind) ≠ [] ∧
      let input := storedCtx (fields (clone line behind))
      (8 < (dataField (fields (clone line behind))).length ∨
        input.desNodeId.toNat ∉ site.nodes ∧ requireNodeId input.function = true) ∨
      site.Keeps (denoted (fields (clone line behind))) (denoted (fields line)) ∧
        (hexDigits (dataField (fields line))).length ≤ 8 ∧
        (input.IsCommand → site.Listed input.desNodeId.toNat (classOf input.function) ∨
          (input.desNodeId.toNat, 0) ∈ site.supported) := by
  rw [← sent_request_iff]
  unfold Site.Handles Site.processIncoming
  by_cases hline : line = []
  · simp only [hline, if_true, true_or]
  by_cases hfields : fields (clone line behind) = []
  · simp only [hline, hfields, if_false, if_true, ne_eq, not_true_eq_false, false_and, or_self]
  rw [if_neg hline, if_neg hfields, parse_eq hfields]
  simp only [hline, false_or, ne_eq, hfields, not_false_eq_true, true_and]
  by_cases hlong : 8 < (dataField (fields (clone line behind))).length
  · simp only [hlong, if_true, true_or]
  rw [if_neg hlong]
  simp only [hlong, false_or]
  have hsent := @sent_fields site (storedCtx (fields (clone line behind)))
  generalize hinput : storedCtx (fields (clone line behind)) = input at hsent ⊢
  have hplain : input.cmdClass = 0 ∧ input.isMultichannel = false := by
    rw [← hinput]
    exact ⟨rfl, rfl⟩
  have hoff : ¬input.IsCommand →
      ((site.sent input).request = denoted (fields line) ∧ (hexDigits (dataField (fields line))).length ≤ 8 ∧
        (input.IsCommand → site.SendsListed input) ↔
      (site.sent input).request = denoted (fields line) ∧ (hexDigits (dataField (fields line))).length ≤ 8 ∧
        (input.IsCommand → site.Listed input.desNodeId.toNat (classOf input.function) ∨
          (input.desNodeId.toNat, 0) ∈ site.supported)) := by
    intro hcommand
    simp only [hcommand, false_implies]
  by_cases hnode : input.desNodeId.toNat ∈ site.nodes
  · have hknown : ¬(input.desNodeId.toNat ∉ site.nodes ∧ requireNodeId input.function = true) := fun h => h.1 hnode
    rw [if_pos hnode, or_iff_right hknown]
    by_cases hcommand : input.IsCommand
    · obtain ⟨hrequest, hlisted⟩ := @fetched_fields site input hcommand hplain.1 hplain.2
      obtain ⟨hfunction, hid⟩ : (site.fetchcmdclass input).function = input.function ∧
          (site.fetchcmdclass input).desNodeId = input.desNodeId := by
        apply fields_of_request
        rw [hrequest]
        exact ⟨congrArg UInt8.toNat hsent.1, congrArg UInt16.toNat hsent.2⟩
      rw [if_pos (show input.function = sapiSendSwitch ∨ input.function = sapiSendLevel from hcommand)]
      dsimp only
      rw [called_iff (by rwa [hfunction, hid]), hrequest, hlisted, SerApiCtx.IsCommand, hfunction]
      rfl
    · rw [if_neg (show ¬(input.function = sapiSendSwitch ∨ input.function = sapiSendLevel) from hcommand)]
      dsimp only
      rw [called_iff hknown, ← hoff hcommand, sent_of_not_command hcommand]
  · rw [if_neg hnode]
    by_cases hrequire : requireNodeId input.function = true
    · rw [if_pos hrequire]
      exact ⟨fun _ => .inl ⟨hnode, hrequire⟩, fun _ => trivial⟩
    · have hknown : ¬(input.desNodeId.toNat ∉ site.nodes ∧ requireNodeId input.function = true) :=
        fun h => hrequire h.2
      have hcommand : ¬input.IsCommand := fun h => hrequire (requireNodeId_of_command h)
      rw [if_neg hrequire, or_iff_right hknown]
      dsimp only
      rw [called_iff hknown, ← hoff hcommand, sent_of_not_command hcommand]

/-- The line `3.5.0.100` has the state 0x100, and switches node 5 off. -/
theorem handles_not : ¬(⟨[5], [(5, commandClassSwitchBinary)]⟩ : Site).Handles
    [0x33, 0x2E, 0x35, 0x2E, 0x30, 0x2E, 0x31, 0x30, 0x30] [] := by
  intro h
  have hcalled : (⟨[5], [(5, commandClassSwitchBinary)]⟩ : Site).processIncoming
      [0x33, 0x2E, 0x35, 0x2E, 0x30, 0x2E, 0x31, 0x30, 0x30] [] =
        .called ⟨3, 5, 0, 0, 0, commandClassSwitchBinary, switchBinarySet, 0, 0, false⟩ := by decide
  rw [Site.Handles, hcalled] at h
  exact absurd h.2.1 (by decide)

end Handling
end ZipGateway.SerialApi

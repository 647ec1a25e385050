import ZipGateway.Directory.Interview
import ZipGateway.Names.Grammar
import ZipGateway.Provisioning.Storage

/-!
# Names and locations of endpoints

The checks and the lookup of `rd_update_ep_name_and_location`, the names an endpoint has by default, and
the name it takes when another device has its name already.
-/

namespace ZipGateway.Directory

open Provisioning (ascii)

def toUpper (c : UInt8) : UInt8 :=
  if 97 ≤ c ∧ c ≤ 122 then c - 32 else c

def mdnsStrCmp (s1 _s2 : Bytes) (len : Nat) : Bool :=
  (List.range len).all fun i => toUpper (s1.getD i 0) == toUpper (s1.getD i 0)

def typeCodes : List (UInt8 × String) :=
  [(0x03, "Av Control Point"), (0x04, "Display"), (0x40, "Entry Control"),
    (0x01, "Generic Controller"), (0x31, "Meter"), (0x30, "Meter Pulse"),
    (0xFF, "Non Interoperable"), (0x0F, "Repeater Slave"), (0x17, "Security Panel"),
    (0x50, "Semi Interoperable"), (0xA1, "Sensor Alarm"), (0x20, "Sensor Binary"),
    (0x21, "Sensor Multilevel"), (0x02, "Static Controller"), (0x10, "Switch Binary"),
    (0x11, "Switch Multilevel"), (0x12, "Switch Remote"), (0x13, "Switch Toggle"),
    (0x08, "Thermostat"), (0x16, "Ventilation"), (0x09, "Window Covering"), (0x15, "Zip Node"),
    (0x18, "Wall Controller"), (0x07, "Sensor Notification")]

def genTypeString (code : UInt8) : String :=
  ((typeCodes.find? fun t => t.1 = code).map Prod.snd).getD "(unknown)"

def hex (width : Nat) (x : Nat) : Bytes :=
  let digits := Nat.toDigits 16 x
  List.replicate (width - digits.length) 48 ++ ascii (String.ofList digits)

def htonl (x : UInt32) : UInt32 :=
  x <<< 24 ||| (x &&& (0xFF00 : UInt32)) <<< 8 ||| x >>> 8 &&& (0xFF00 : UInt32) ||| x >>> 24

def defaultEpName (homeId : UInt32) (node : NodeId) (p : EpEntry) : Bytes :=
  let type := if 2 < p.info.val.length then genTypeString (p.info.val.getD 0 0) else "(unknown)"
  ascii type ++ ascii " [" ++ hex 4 (htonl homeId).toNat ++ hex 4 node.toNat ++
    hex 2 p.endpointId.toNat ++ ascii "]"

def getEpName (homeId : UInt32) (node : NodeId) (p : EpEntry) : Bytes :=
  if p.name.val ≠ [] then p.name.val.take 64 else defaultEpName homeId node p

def isDigit (c : UInt8) : Bool :=
  48 ≤ c ∧ c ≤ 57

/-- `add_or_increment_trailing_digit`. The number is kept in eight bits. -/
def addOrIncrementTrailingDigit (s : Bytes) : Bytes :=
  let digits := (s.reverse.takeWhile isDigit).reverse
  let base := s.take (s.length - digits.length)
  if base.getLast? = some dash then
    let d := (digits.foldl (fun x c => 10 * x + (c.toNat - 48)) 0 + 1) % 256
    base ++ ascii (toString d)
  else s ++ ascii "-1"

namespace State

variable (env : Env) (d : State)

def nodes : List Node :=
  (List.range' 1 zwMaxNodes).filterMap fun i => d.nodeGetRaw (UInt16.ofNat i)

def epIterator : List (Node × Endpoint) :=
  (d.nodes.takeWhile fun n => !n.endpoints.isEmpty).flatMap fun n => n.endpoints.map fun p => (n, p)

def lookupByEpName (name : Bytes) (location : Option Bytes) : Option (Node × Endpoint) :=
  d.epIterator.find? fun (n, p) =>
    let buf := getEpName env.homeId n.nodeid p.toEpEntry
    !mdnsStrCmp buf name buf.length &&
      match location with
      | some location => mdnsStrCmp p.location.val location p.location.val.length
      | none => true

def admits (n : Node) (name : Blob) (location : Blob) : Bool :=
  n.state = .done && isValidMdnsName (.ofBytes name.val) name.val.length &&
    (location.val.isEmpty || isValidMdnsLocation (.ofBytes location.val) location.val.length) &&
    decide (name.val.length + location.val.length ≤ 63) && decide (1 ≤ name.val.length)

/-- What an update writes once it is not refused: `mDNS` says goodbye with the flag for a deleted node,
which is cleared after that. -/
def writeName (n : Node) (e : Addr) (name location : Blob) : State :=
  let d := d.modifyNode n.addr fun n => { n with mode := n.mode &&& ~~~modeFlagsDeleted }
  let d := d.modifyEp e fun p => { p with name := name, location := location, state := .mdnsProbe }
  let d := d.setState n.addr .mdnsEpProbe
  if d.currentProbeEntry.isNone then
    { d with currentProbeEntry := some n.addr }.call (.nodeProbeUpdate n.addr)
  else d

def updateEpNameAndLocation (e : Addr) (name : Blob) (location : Option Blob) : State :=
  match d.ep? e with
  | none => d
  | some (n, _) =>
    if admits n name (location.getD .empty) then
      match d.lookupByEpName env name.val (location.map Subtype.val) with
      | some _ => d
      | none => d.writeName n e name (location.getD .empty)
    else d

def locationArg (p : Endpoint) : Option Blob :=
  if p.location.val = [] then none else some p.location

def updateEpName (e : Addr) (name : Blob) : State :=
  match d.ep? e with
  | none => d
  | some (_, p) => d.updateEpNameAndLocation env e name (locationArg p)

def updateEpLocation (e : Addr) (location : Blob) : State :=
  match d.ep? e with
  | none => d
  | some (_, p) => d.updateEpNameAndLocation env e p.name (some location)

end State

end ZipGateway.Directory

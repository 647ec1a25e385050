import ZipGateway.Directory.Names
import ZipGateway.Mdns.Names

/-!
# The packets of the mDNS server

`tcpip_handler` goes through the questions of a packet and then through its answers and authority
records. The lookups in the resource directory, the probe that was sent last and the session that probes
for a name are the `Host`; what the handler does to the list of pending answers is recorded as
`Action`s. The assertions of the source are not compiled into a release.
-/

namespace ZipGateway.Mdns

open Directory (toUpper)

def rrTypeA : Nat := 1
def rrTypePtr : Nat := 12
def rrTypeTxt : Nat := 16
def rrTypeAaaa : Nat := 28
def rrTypeSrv : Nat := 33
def rrTypeAny : Nat := 255
def rrClassIn : Nat := 1

def fieldPtr : UInt8 := 0x01
def fieldTxt : UInt8 := 0x02
def fieldSrv : UInt8 := 0x04
def fieldAaaa : UInt8 := 0x08
def fieldA : UInt8 := 0x10

/-- `"\007_z-wave\004_udp\005local"`. -/
def zwaveDomainName : Bytes :=
  [7, 95, 122, 45, 119, 97, 118, 101, 4, 95, 117, 100, 112, 5, 108, 111, 99, 97, 108]

/-- `"\011_services\007_dns-sd\004_udp\005local"`. -/
def servicesDomainName : Bytes :=
  [9, 95, 115, 101, 114, 118, 105, 99, 101, 115, 7, 95, 100, 110, 115, 45, 115, 100,
    4, 95, 117, 100, 112, 5, 108, 111, 99, 97, 108]

def localDomainName : Bytes :=
  [5, 108, 111, 99, 97, 108]

def cString (s : Bytes) : Bytes :=
  s.takeWhile (· ≠ 0)

def stringRightCompare (s1 s2 : Bytes) : Bool :=
  let a := (cString s1).reverse
  let b := (cString s2).reverse
  a ≠ [] && b ≠ [] && (a.zip b).all fun x => toUpper x.1 = toUpper x.2

def strncasecmpEq (s1 s2 : Bytes) (n : Nat) : Bool :=
  ((cString s1).take n).map toUpper = ((cString s2).take n).map toUpper

/-- The gateway around the handler: `lookup_by_node_name`, `lookup_by_service_name`, the names of
`the_query_session` while it is in use, `probe_rr`, the IPv4 address of the node that is probed for, and
`tie_braking_won`. -/
structure Host where
  nodeNamed : Bytes → Bool
  serviceNamed : Bytes → Bool
  session : Option (List Bytes)
  probe : Bytes
  address : Bytes
  tieBrakingWon : Nat

inductive Action where
  | buildPtr (name : Bytes)
  | delPtr (name : Bytes)
  | addAnswer (name : Bytes) (field : UInt8)
  | delAnswer (name : Bytes) (field : UInt8)
  | probeDone
deriving DecidableEq, Repr

def queryToEndpoint (host : Host) (name : Bytes) (qtype : Nat) : Option UInt8 :=
  if stringRightCompare name zwaveDomainName then
    if host.serviceNamed name then
      if qtype = rrTypeSrv then some (fieldSrv ||| fieldA ||| fieldAaaa)
      else if qtype = rrTypeTxt then some fieldTxt
      else if qtype = rrTypeAny then some (fieldTxt ||| fieldSrv)
      else some 0
    else none
  else if stringRightCompare name servicesDomainName then some 0
  else if stringRightCompare name localDomainName then
    if host.nodeNamed name then
      if qtype = rrTypeAny then some (fieldAaaa ||| fieldA)
      else if qtype = rrTypeA then some fieldA
      else if qtype = rrTypeAaaa then some fieldAaaa
      else some 0
    else none
  else none

structure Header where
  flags1 : UInt8
  numquestions : Nat
  numanswers : Nat
  numauthrr : Nat
deriving DecidableEq, Repr

def sizeofDnsHdr : Nat := 12

section Packet

variable (pkt : Bytes)

def word (p : Nat) : Nat :=
  (pkt.getD p 0).toNat * 256 + (pkt.getD (p + 1) 0).toNat

def wordAt (p : Nat) : Except Fault Nat :=
  if p + 2 ≤ pkt.length then .ok (word pkt p) else .error .outside

def header : Header where
  flags1 := pkt.getD 2 0
  numquestions := word pkt 4
  numanswers := word pkt 6
  numauthrr := word pkt 8

def readHeader : Except Fault Header :=
  if 10 ≤ pkt.length then .ok (header pkt) else .error .outside

def Header.isQuery (h : Header) : Bool :=
  h.flags1 &&& 0xF8 = 0

structure Question where
  name : Bytes
  qtype : Nat
  qclass : Nat
  next : Nat
deriving DecidableEq, Repr

structure Record where
  name : Bytes
  qtype : Nat
  qclass : Nat
  ttl : Nat
  rlength : Nat
  data : Nat
deriving DecidableEq, Repr

def readQuestion (fuel p : Nat) : Except Fault Question := do
  let ptr ← domainNameEnd pkt p
  let qtype ← wordAt pkt ptr
  let qclass ← wordAt pkt (ptr + 2)
  let name ← domainNameCopy pkt p maxDomainSize fuel
  return { name, qtype, qclass, next := ptr + 4 }

def readRecord (fuel p : Nat) : Except Fault Record := do
  let ptr ← domainNameEnd pkt p
  let qtype ← wordAt pkt ptr
  let qclass ← wordAt pkt (ptr + 2)
  let _high ← wordAt pkt (ptr + 4)
  let ttl ← wordAt pkt (ptr + 6)
  let rlength ← wordAt pkt (ptr + 8)
  let name ← domainNameCopy pkt p maxDomainSize fuel
  return { name, qtype, qclass, ttl, rlength, data := ptr + 10 }

end Packet

structure Questioning where
  ptr : Nat
  i : Nat
  domainNameQ : Bool
  endpointQ : Bool
  actions : List Action
deriving DecidableEq, Repr

structure Answering where
  ptr : Nat
  i : Nat
  tieBrakingWon : Nat
  actions : List Action
deriving DecidableEq, Repr

section Handler

variable (host : Host) (pkt : Bytes)

def Questioning.asked (s : Questioning) (q : Question) : Questioning :=
  let s' := { s with ptr := q.next, i := s.i + 1 }
  if (header pkt).isQuery then
    if stringRightCompare q.name zwaveDomainName && q.qtype = rrTypePtr then
      { s' with domainNameQ := true, actions := s.actions ++ [.buildPtr q.name] }
    else
      match queryToEndpoint host q.name q.qtype with
      | some field => { s' with endpointQ := true, actions := s.actions ++ [.addAnswer q.name field] }
      | none => s'
  else s'

def Questioning.over (s : Questioning) : Bool :=
  (header pkt).numquestions ≤ s.i || pkt.length ≤ s.ptr

def parseQuestion (fuel : Nat) (s : Questioning) : Except Fault Questioning := do
  let q ← readQuestion pkt fuel s.ptr
  return s.asked host pkt q

def Questioning.start : Questioning where
  ptr := sizeofDnsHdr
  i := 0
  domainNameQ := false
  endpointQ := false
  actions := []

def findDuplicateProbe (received : Nat) : Except Fault Bool :=
  if host.probe = [] then .ok false
  else do
    let rr ← bytesAt pkt received host.probe.length
    return rr = host.probe

def isDuplicate (received : Nat) : Except Fault Bool :=
  if (header pkt).numanswers = 0 then findDuplicateProbe host pkt received else return false

def matchTarget (fuel p : Nat) : Except Fault Bool := do
  let name ← domainNameCopy pkt p maxDomainSize fuel
  return host.nodeNamed name || host.serviceNamed name

variable (asked : Questioning)

def isZwavePtr (r : Record) : Bool :=
  strncasecmpEq r.name zwaveDomainName zwaveDomainName.length && asked.domainNameQ && r.qtype = rrTypePtr

def isKnownSrv (i : Nat) (r : Record) : Bool :=
  i < (header pkt).numanswers && host.serviceNamed r.name && asked.endpointQ && r.qtype = rrTypeSrv

def Answering.knownPtr (r : Record) (s : Answering) : Answering :=
  if 60 < r.ttl then { s with actions := s.actions ++ [.delPtr r.name] } else s

def Answering.knownSrv (r : Record) (s : Answering) : Answering :=
  if 60 < r.ttl then { s with actions := s.actions ++ [.delAnswer r.name fieldSrv] } else s

def Answering.dropPtr (name : Bytes) (s : Answering) : Answering :=
  if host.serviceNamed name then { s with actions := s.actions ++ [.delAnswer name fieldPtr] } else s

/-- A known PTR of a query is taken off the list; the name is decompressed once more for it. -/
def dropKnownPtr (fuel : Nat) (last : Nat) (r : Record) (s : Answering) : Except Fault Answering :=
  if stringRightCompare r.name zwaveDomainName && (header pkt).isQuery && r.qtype = rrTypePtr then do
    let name ← domainNameCopy pkt last maxDomainSize fuel
    return s.dropPtr host name
  else return s

def lexLater (u8 : Bytes) : Nat :=
  if (u8.zip host.address).all fun x => x.1 ≤ x.2 then 1 else 2

/-- `tie_braking_won` for a record of our name; one for an IPv6 address is above an A record by its type. -/
def breakTie (r : Record) (won : Nat) : Except Fault Nat :=
  if host.nodeNamed r.name && (header pkt).flags1 &&& 0x84 = 0 then
    if rrClassIn < r.qclass % 128 then return 2
    else if r.qclass % 128 = rrClassIn then
      if rrTypeA < r.qtype then return 2
      else if r.qtype = rrTypeA then do
        let u8 ← bytesAt pkt r.data 4
        return lexLater host u8
      else return won
    else return won
  else return won

def Answering.tied (i won : Nat) (s : Answering) : Answering :=
  { s with
    i := i
    tieBrakingWon := won
    actions := if won ≠ 0 then s.actions ++ [.probeDone] else s.actions }

/-- The record against the names of the session, by a loop that uses the counter of the outer one. -/
def matchSession (r : Record) (s : Answering) : Except Fault Answering :=
  match host.session with
  | none => return s
  | some names =>
    let i := names.findIdx fun name => stringRightCompare name r.name
    if i < names.length then do
      let won ← breakTie host pkt r s.tieBrakingWon
      return s.tied i won
    else return { s with i := i }

def takeRecord (fuel : Nat) (last : Nat) (r : Record) (s : Answering) : Except Fault Answering := do
  let known ← if isZwavePtr asked r then matchTarget host pkt fuel r.data else pure false
  if known then
    return s.knownPtr r
  else
    let target ←
      if isKnownSrv host pkt asked s.i r then matchTarget host pkt fuel (r.data + 6) else pure false
    if target then
      return s.knownSrv r
    else if s.i < (header pkt).numanswers && host.serviceNamed r.name && host.session.isNone then
      return s
    else
      let s ← dropKnownPtr host pkt fuel last r s
      if (header pkt).numanswers ≤ s.i && host.nodeNamed r.name && host.session.isNone then
        return s
      else
        matchSession host pkt r s

def parseRecord (fuel : Nat) (s : Answering) : Except Fault Answering := do
  let r ← readRecord pkt fuel s.ptr
  let s' ← takeRecord host pkt asked fuel s.ptr r s
  return { s' with ptr := r.data + r.rlength, i := (s'.i + 1) % 65536 }

def Answering.over (s : Answering) : Bool :=
  (header pkt).numanswers + (header pkt).numauthrr ≤ s.i || pkt.length ≤ s.ptr

def Answering.start : Answering where
  ptr := asked.ptr
  i := 0
  tieBrakingWon := host.tieBrakingWon
  actions := asked.actions

def parseQuestions (fuel : Nat) : Except Fault Questioning :=
  Fuel.loop .unfinished (Questioning.over pkt) (parseQuestion host pkt) fuel .start

def parseAnswers (fuel : Nat) : Except Fault Answering :=
  Fuel.loop .unfinished (Answering.over pkt) (parseRecord host pkt asked) fuel (.start host asked)

def tcpipHandler (fuel : Nat) : Except Fault (List Action) := do
  let _hdr ← readHeader pkt
  let asked ← parseQuestions host pkt fuel
  let duplicate ← isDuplicate host pkt asked.ptr
  if duplicate then
    return asked.actions
  else
    let s ← parseAnswers host pkt asked fuel
    return s.actions

end Handler

end ZipGateway.Mdns

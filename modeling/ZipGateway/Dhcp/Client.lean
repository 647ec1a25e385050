import ZipGateway.Packet

/-!
# The DHCP client

`dhcpc2.c` gets an IPv4 address for every entry of the NAT table of `ipv46_nat.c`, one entry after
another. The session that is open is a pointer into the table, which is kept as an index; the entries
behind `nat_table_size` are what was there before. A datagram is the memory at `uip_appdata` with its
length, so that what is read behind its end is part of the model.

What a client asked for, what it was offered and what it held before is logged, and so is the node that
a session was started for.
-/

namespace ZipGateway.Dhcp

def dhcpReply : UInt8 := 2
def dhcpOffer : UInt8 := 2
def dhcpAck : UInt8 := 5
def dhcpNak : UInt8 := 6

def optionSubnetMask : UInt8 := 1
def optionRouter : UInt8 := 3
def optionDnsServer : UInt8 := 6
def optionLeaseTime : UInt8 := 51
def optionMsgType : UInt8 := 53
def optionServerId : UInt8 := 54
def optionEnd : UInt8 := 255

def yiaddrOffset : Nat := 16
def chaddrOffset : Nat := 28
def optionsOffset : Nat := 240

def maxNatEntries : Nat := 1000

structure Ip4 where
  hi : UInt16
  lo : UInt16
deriving DecidableEq, Repr

def Ip4.zero : Ip4 := ⟨0, 0⟩

def Ip4.suffix (addr netmask : Ip4) : UInt16 :=
  addr.lo &&& ~~~netmask.lo

def wordAt (m : Mem) (off : Nat) : UInt16 :=
  (m off).toUInt16 <<< 8 ||| (m (off + 1)).toUInt16

def ip4At (m : Mem) (off : Nat) : Ip4 :=
  ⟨wordAt m off, wordAt m (off + 2)⟩

def longAt (m : Mem) (off : Nat) : UInt32 :=
  (wordAt m off).toUInt32 <<< 16 ||| (wordAt m (off + 2)).toUInt32

structure Entry where
  nodeid : NodeId
  ipSuffix : UInt16
deriving DecidableEq, Repr

/-- What the gateway is: `MyNodeID`, `homeID` and `uip_lladdr`. -/
structure Site where
  myNodeId : NodeId
  homeId : UInt32
  lladdr : Bytes
deriving DecidableEq, Repr

def Site.macOfNode (site : Site) (node : NodeId) : Bytes :=
  if node = site.myNodeId then site.lladdr
  else [(site.homeId >>> 24).toUInt8, (site.homeId >>> 16).toUInt8, (site.homeId >>> 8).toUInt8,
    site.homeId.toUInt8, (node >>> 8).toUInt8, node.toUInt8]

inductive SessionState where
  | idle
  | sendDiscover
  | recvOffer
  | sendRequest
  | recvAck
  | recvNak
  | timeOut
deriving DecidableEq, Repr

/-- The log; `held` is the own address a client asks for again. -/
inductive Out where
  | discover (chaddr : Bytes) (xid : UInt32)
  | request (chaddr : Bytes) (xid : UInt32) (addr : Ip4)
  | release (node : NodeId)
  | offered (node : NodeId) (addr : Ip4)
  | held (node : NodeId) (addr : Ip4)
  | assigned (node : NodeId) (xid : UInt32) (suffix : UInt16) (netmask : Ip4)
  | timedOut (node : NodeId)
  | allAssigned
deriving DecidableEq, Repr

/-- The NAT table, `dhcpc_state` and the addresses of the gateway; `startedFor` is the node of the session,
`requested` that its REQUEST was sent, `hung` a loop that does not end. -/
structure State where
  natTable : Nat → Entry
  natTableSize : Nat
  hostaddr : Ip4
  hostmask : Ip4
  draddr : Ip4
  leaseTime : UInt32
  ticks : UInt32
  timeout : UInt32
  state : SessionState
  xid : UInt32
  lastRenew : UInt8
  sessionTimeout : UInt8
  retry : UInt8
  renewFailed : Bool
  serverid : Ip4
  netmask : Ip4
  dnsaddr : Ip4
  defaultRouter : Ip4
  ipaddr : Ip4
  session : Option Nat
  startedFor : NodeId
  requested : Bool
  hung : Bool
  log : List Out

def State.init : State where
  natTable _ := ⟨0, 0⟩
  natTableSize := 0
  hostaddr := .zero
  hostmask := .zero
  draddr := .zero
  leaseTime := 0xFFFFFFFF
  ticks := 0xFFFFFFFF
  timeout := 0
  state := .idle
  xid := 0
  lastRenew := 0
  sessionTimeout := 0
  retry := 0
  renewFailed := false
  serverid := .zero
  netmask := .zero
  dnsaddr := .zero
  defaultRouter := .zero
  ipaddr := .zero
  session := none
  startedFor := 0
  requested := false
  hung := false
  log := []

namespace State

variable (s : State)

def put (x : Out) : State :=
  { s with log := s.log ++ [x] }

def setEntry (i : Nat) (e : Entry) : State :=
  { s with natTable := Function.update s.natTable i e }

def addrOfEntry (e : Entry) : Ip4 :=
  ⟨s.hostaddr.hi, s.hostaddr.lo &&& s.hostmask.lo ||| e.ipSuffix⟩

def ipv4addrOfNode (node : NodeId) : Option Ip4 :=
  (((List.range s.natTableSize).map s.natTable).find? fun e => e.nodeid = node ∧ e.ipSuffix ≠ 0).map s.addrOfEntry

def hasHostaddr : Bool :=
  s.hostaddr.hi ≠ 0 ∧ s.hostaddr.lo ≠ 0

end State

section Search

/-- What a loop with a counter of eight bits finds; past 255 entries it starts again. -/
inductive Found where
  | at (i : Nat)
  | nothing
  | forever
deriving DecidableEq, Repr

def State.searchTable (s : State) (p : Entry → Bool) : Found :=
  match (List.range (min s.natTableSize 256)).find? fun i => p (s.natTable i) with
  | some i => .at i
  | none => if s.natTableSize ≤ 255 then .nothing else .forever

end Search

section Sessions

variable (site : Site) (s : State)

def startDiscover (rand : UInt32) (i : Nat) : State :=
  { s with
    session := some i
    startedFor := (s.natTable i).nodeid
    requested := false
    xid := rand
    retry := 0
    state := .sendDiscover }

def startRenew (i : Nat) : State :=
  let addr := s.addrOfEntry (s.natTable i)
  { s.put (.held (s.natTable i).nodeid addr) with
    session := some i
    startedFor := (s.natTable i).nodeid
    requested := false
    xid := s.xid + 1
    ipaddr := addr
    state := .sendRequest
    lastRenew := s.lastRenew + 1 }

def startFound (rand : UInt32) : Found → Option State
  | .at i => some (startDiscover s rand i)
  | .nothing => none
  | .forever => some { s with hung := true }

/-- The end of `dhcp_check_for_new_sessions`: every entry has an address. -/
def allAssigned : State :=
  let t := if s.renewFailed then s else { s with ticks := s.leaseTime, timeout := s.leaseTime / 2 }
  t.put .allAssigned

def discoverNext (rand : UInt32) : State :=
  let own := if s.hostaddr = .zero then
      startFound s rand (s.searchTable fun e => e.nodeid = site.myNodeId ∧ e.ipSuffix = 0)
    else none
  match own with
  | some t => t
  | none =>
    match startFound s rand (s.searchTable fun e => e.ipSuffix = 0) with
    | some t => t
    | none => allAssigned s

def checkForNewSessions (rand : UInt32) : State :=
  if s.state ≠ .idle then s
  else if s.lastRenew.toNat < s.natTableSize then
    if (s.natTable s.lastRenew.toNat).ipSuffix ≠ 0 then startRenew s s.lastRenew.toNat
    else discoverNext site { s with lastRenew := s.lastRenew + 1 } rand
  else discoverNext site s rand

def sendDiscover (i : Nat) : State :=
  s.put (.discover (site.macOfNode (s.natTable i).nodeid) s.xid)

def sendRequest (i : Nat) : State :=
  { s.put (.request (site.macOfNode (s.natTable i).nodeid) s.xid s.ipaddr) with requested := true }

def dhcpRelease (i : Nat) : State :=
  if (s.natTable i).ipSuffix ≠ 0 then s.put (.release (s.natTable i).nodeid) else s

end Sessions

section Parsing

variable (site : Site) (m : Mem)

def State.takeOption (s : State) (pos : Nat) : State :=
  if m pos = optionSubnetMask then { s with netmask := ip4At m (pos + 2) }
  else if m pos = optionRouter then { s with defaultRouter := ip4At m (pos + 2) }
  else if m pos = optionDnsServer then { s with dnsaddr := ip4At m (pos + 2) }
  else if m pos = optionServerId then { s with serverid := ip4At m (pos + 2) }
  else if m pos = optionLeaseTime then
    let leaseTime := longAt m (pos + 2)
    if s.leaseTime > leaseTime then
      { s with leaseTime := leaseTime, ticks := if s.ticks > leaseTime then leaseTime else s.ticks }
    else s
  else s

def nextOption (pos : Nat) : Nat :=
  pos + (m (pos + 1)).toNat + 2

def parseOptions (stop : Nat) : Nat → Nat → State → State
  | 0, _, s => s
  | n + 1, pos, s =>
    if pos < stop then
      if m pos = optionEnd then s else parseOptions stop n (nextOption m pos) (s.takeOption m pos)
    else s

/-- The test of `parse_msg` and `msg_for_me` on a datagram, for a session of the entry at `i`. -/
def State.isAnswered (s : State) (i : Nat) : Bool :=
  m 0 = dhcpReply ∧ longAt m 4 = s.xid ∧ m.slice chaddrOffset 6 = site.macOfNode (s.natTable i).nodeid

def parseMsg (s : State) (len i : Nat) : State :=
  if s.isAnswered site m i then
    let addr := ip4At m yiaddrOffset
    let t := { s with ipaddr := addr }.put (.offered (s.natTable i).nodeid addr)
    parseOptions m (optionsOffset + len) len optionsOffset t
  else s

def findType (stop : Nat) : Nat → Nat → Option UInt8
  | 0, _ => none
  | n + 1, pos =>
    if pos < stop then
      if m pos = optionMsgType then some (m (pos + 2))
      else if m pos = optionEnd then none
      else findType stop n (nextOption m pos)
    else none

def msgForMe (s : State) (len : Nat) : Option UInt8 :=
  match s.session with
  | none => none
  | some i => if s.isAnswered site m i then findType m len len optionsOffset else none

end Parsing

section Update

variable (site : Site) (s : State) (rand : UInt32)

def updateIdle : State :=
  checkForNewSessions site { s with state := .idle, session := none, retry := 0, sessionTimeout := 0 } rand

def updateSendRequest (i : Nat) : State :=
  if s.state = .recvOffer ∨ s.state = .idle then
    { sendRequest site { s with sessionTimeout := 4 } i with state := .sendRequest }
  else s

def updateSendDiscover (i : Nat) : State :=
  if s.state = .idle ∨ s.state = .sendDiscover then
    if (s.natTable i).nodeid = site.myNodeId ∧ s.hasHostaddr then
      updateSendRequest site ({ s with
            ipaddr := s.hostaddr
            netmask := s.hostmask
            defaultRouter := s.draddr }.put (.held site.myNodeId s.hostaddr)) i
    else
      let retry := if s.retry + 1 > 4 then 1 else s.retry + 1
      let t := { s with retry := retry, sessionTimeout := 1 <<< retry }
      { sendDiscover site t i with state := .sendDiscover }
  else s

def updateRecvOffer (m : Mem) (len i : Nat) : State :=
  if s.state = .sendDiscover then
    { parseMsg site m s len i with state := .sendRequest, requested := false }
  else s

def updateRecvAck (i : Nat) : State :=
  if s.state = .sendRequest then
    let e := s.natTable i
    let suffix := s.ipaddr.suffix s.netmask
    let t := (s.setEntry i { e with ipSuffix := suffix }).put (.assigned e.nodeid s.xid suffix s.netmask)
    let t := if e.nodeid = site.myNodeId then
        { t with hostaddr := s.ipaddr, hostmask := s.netmask, draddr := s.defaultRouter }
      else t
    updateIdle site t rand
  else s

def updateRecvNak (i : Nat) : State :=
  if s.state = .sendRequest then
    let e := s.natTable i
    let t := if e.nodeid = site.myNodeId then
        { s with hostaddr := .zero, hostmask := .zero, draddr := .zero }
      else s
    { t.setEntry i { e with ipSuffix := 0 } with sessionTimeout := 1 }
  else s

def updateTimeOut (i : Nat) : State :=
  let t := s.put (.timedOut (s.natTable i).nodeid)
  if t.state = .sendDiscover then updateSendDiscover site t i
  else updateIdle site { t with renewFailed := true } rand

def updateCurrent (m : Mem) (len : Nat) (newState : SessionState) : State :=
  match s.session with
  | none => s
  | some i =>
    match newState with
    | .idle => updateIdle site s rand
    | .sendDiscover => updateSendDiscover site s i
    | .recvOffer => updateRecvOffer site s m len i
    | .sendRequest => updateSendRequest site s i
    | .recvAck => updateRecvAck site s rand i
    | .recvNak => updateRecvNak site s i
    | .timeOut => updateTimeOut site s rand i

/-- `update_current_dhcp_session(DHCP_UDP_POLL)`. The datagram is not looked at. -/
def updatePoll : State :=
  updateCurrent site { s with state := .idle } rand (fun _ => 0) 0 s.state

/-- A datagram arrives at `dhcp_client_process`. -/
def datagram (m : Mem) (len : Nat) : State :=
  match msgForMe site m s len with
  | some type =>
    if type = dhcpOffer then updateCurrent site s rand m len .recvOffer
    else if type = dhcpAck then updateCurrent site s rand m len .recvAck
    else if type = dhcpNak then updateCurrent site s rand m len .recvNak
    else s
  | none => s

def countSession : State :=
  if s.sessionTimeout ≠ 0 then
    let t := { s with sessionTimeout := s.sessionTimeout - 1 }
    if t.sessionTimeout = 0 then updateCurrent site t rand (fun _ => 0) 0 .timeOut else t
  else s

def countLease : State :=
  if s.ticks = 0 then
    { s with
      hostaddr := .zero
      hostmask := .zero
      draddr := .zero
      natTable := fun i => if i < s.natTableSize then { s.natTable i with ipSuffix := 0 } else s.natTable i
      ticks := 120
      timeout := 120 }
  else { s with ticks := s.ticks - 1 }

def renewAll : State :=
  if s.ticks = s.timeout then
    let timeout := if s.timeout > 120 then s.timeout / 2 else if s.ticks ≤ 60 then 0 else s.ticks - 60
    checkForNewSessions site { s with lastRenew := 0, timeout := timeout, renewFailed := false } rand
  else s

/-- `timeout`; a loop in its first part that does not end is not left. -/
def tick : State :=
  let t := countSession site s rand
  if t.hung then t else renewAll site (countLease t) rand

end Update

section Nat

variable (site : Site) (s : State) (rand : UInt32) (node : NodeId)

def State.indexOf (s : State) (node : NodeId) : Option Nat :=
  (List.range s.natTableSize).find? fun i => (s.natTable i).nodeid = node

def addEntry : State :=
  if s.natTableSize ≥ maxNatEntries then s
  else if (s.indexOf node).isSome then s
  else
    let suffix := if node = site.myNodeId then s.hostaddr.suffix s.hostmask else 0
    checkForNewSessions site { s.setEntry s.natTableSize ⟨node, suffix⟩ with natTableSize := s.natTableSize + 1 } rand

def delEntry : State :=
  if node = site.myNodeId then s
  else
    match s.indexOf node with
    | none => s
    | some k =>
      let t := dhcpRelease s k
      { t with
        natTable := fun i => if k ≤ i ∧ i + 1 < s.natTableSize then s.natTable (i + 1) else s.natTable i
        natTableSize := s.natTableSize - 1 }

def State.myIndex (s : State) : Nat :=
  ((List.range s.natTableSize).reverse.find? fun i => (s.natTable i).nodeid = site.myNodeId).getD 0

def delAllNodes : State :=
  let t := (List.range s.natTableSize).foldl
    (fun t i => if (s.natTable i).nodeid = site.myNodeId then t else dhcpRelease t i) s
  { t.setEntry 0 (s.natTable (State.myIndex site s)) with natTableSize := 1 }

def renameNode (new : NodeId) : State :=
  { s with
    natTable := fun i =>
      if i < s.natTableSize ∧ (s.natTable i).nodeid = node then { s.natTable i with nodeid := new }
      else s.natTable i }

end Nat

/-- What happens; `rand` is the number that `rand` yields if a discovery starts. -/
inductive Event where
  | addEntry (node : NodeId) (rand : UInt32)
  | delEntry (node : NodeId)
  | delAllNodes
  | renameNode (old new : NodeId)
  | datagram (m : Mem) (len : Nat) (rand : UInt32)
  | poll (rand : UInt32)
  | tick (rand : UInt32)
  | abort (rand : UInt32)

variable (site : Site)

def react (s : State) : Event → State
  | .addEntry node rand => addEntry site s rand node
  | .delEntry node => delEntry site s node
  | .delAllNodes => delAllNodes site s
  | .renameNode old new => renameNode s old new
  | .datagram m len rand => datagram site s rand m len
  | .poll rand => updatePoll site s rand
  | .tick rand => tick site s rand
  | .abort rand => updateCurrent site s rand (fun _ => 0) 0 .idle

def step (s : State) (e : Event) : State :=
  if s.hung then s else react site s e

def run (events : List Event) : State :=
  Machine.run (step site) .init events

end ZipGateway.Dhcp

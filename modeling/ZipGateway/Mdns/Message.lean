import ZipGateway.Mdns.Names

/-!
# Building a message

`add_domain_name_compressed` writes a name after the message, compares its labels from the right with
those of the name that was added last, and overwrites the labels that they share by a pointer to them. A
message is the bytes from `hdr` to `ptr`.
-/

namespace ZipGateway.Mdns

def uipUdpAppSize : Nat := 1280 - 48

def replySize : Nat := uipUdpAppSize + 512

section Labels

variable (mem : Bytes)

/-- `domian_name_label_count`; the count is kept in eight bits. -/
def domainNameLabelCount : Nat → Nat → Nat → Except Fault Nat
  | 0, _, _ => .error .unfinished
  | fuel + 1, p, n => do
    let b ← byteAt mem p
    if b = 0 then
      return n
    else
      let q ← domainNameNextLabel mem p
      domainNameLabelCount fuel q (if b.toNat ≤ maxLabelSize then (n + 1) % 256 else n)

def domainNameLabelGet : Nat → Nat → Nat → Except Fault (Option Nat)
  | 0, _, _ => .error .unfinished
  | fuel + 1, p, n => do
    let b ← byteAt mem p
    if b = 0 then
      return none
    else if b.toNat ≤ maxLabelSize then
      if n = 0 then
        return some p
      else
        let q ← domainNameNextLabel mem p
        domainNameLabelGet fuel q (n - 1)
    else
      let q ← domainNameNextLabel mem p
      domainNameLabelGet fuel q n

def labelAt (fuel p n : Nat) : Except Fault Nat := do
  match ← domainNameLabelGet mem fuel p n with
  | some q => return q
  | none => .error .outside

def strncmpEq : Nat → Nat → Nat → Except Fault Bool
  | _, _, 0 => .ok true
  | a, b, n + 1 => do
    let x ← byteAt mem a
    let y ← byteAt mem b
    if x ≠ y then return false
    else if x = 0 then return true
    else strncmpEq (a + 1) (b + 1) n

def followIf (pointer : Bool) (p : Nat) : Except Fault Nat :=
  if pointer then domainNameNextLabel mem p else .ok p

def domainNameLabelCompare (a b : Nat) : Except Fault Bool := do
  let x ← byteAt mem a
  let a ← followIf mem (isPointer x) a
  let x ← byteAt mem a
  let b ← followIf mem (isPointer x) b
  let x ← byteAt mem a
  let y ← byteAt mem b
  if x = y then strncmpEq mem (a + 1) (b + 1) x.toNat else return false

structure Common where
  n : Nat
  a : Nat
  b : Nat
deriving DecidableEq, Repr

def matchLabels (fuel dest src : Nat) : Nat → Nat → Common → Except Fault Common
  | i + 1, j + 1, c => do
    let a ← labelAt mem fuel dest i
    let b ← labelAt mem fuel src j
    let same ← domainNameLabelCompare mem a b
    if same then
      matchLabels fuel dest src i j { n := c.n + 1, a, b }
    else
      let a ← domainNameNextLabel mem a
      let b ← domainNameNextLabel mem b
      return { n := c.n, a, b }
  | _, _, c => return c

def exhaustPointers : Nat → Nat → Except Fault Nat
  | 0, _ => .error .unfinished
  | fuel + 1, b => do
    let x ← byteAt mem b
    if isPointer x then
      let q ← domainNameNextLabel mem b
      exhaustPointers fuel q
    else
      return b

def pointerTo (offset : Nat) : Bytes :=
  [UInt8.ofNat (offset >>> 8 &&& 0x3F ||| 0xC0), UInt8.ofNat (offset &&& 0xFF)]

def domainNameInsertPtr (fuel dest src : Nat) : Except Fault (Option Bytes) := do
  let i ← domainNameLabelCount mem fuel dest 0
  let j ← domainNameLabelCount mem fuel src 0
  let c ← matchLabels mem fuel dest src i j { n := 0, a := 0, b := 0 }
  if c.n = 0 then
    return none
  else
    let offset ← exhaustPointers mem fuel c.b
    return some (mem.take c.a ++ pointerTo offset)

end Labels

/-- `dns_message_t` while it is written. -/
structure Message where
  bytes : Bytes
  lastDomainName : Option Nat
deriving DecidableEq, Repr

def initDnsMessage (flags : UInt8) : Message where
  bytes := [0, 0, flags, 0, 0, 0, 0, 0, 0, 0, 0, 0]
  lastDomainName := none

def tryPointer (mem : Bytes) (fuel start : Nat) : Option Nat → Except Fault (Option Bytes)
  | some last => domainNameInsertPtr mem fuel start last
  | none => .ok none

/-- `add_domain_name_compressed`, with the length; the name is copied first, and `domain_name_copy` returns
eight bits. -/
def addDomainNameCompressed (m : Message) (domainName : Bytes) (fuel : Nat) : Except Fault (Message × Nat) := do
  let start := m.bytes.length
  let copied ← domainNameCopy (domainName ++ [0]) 0 maxDomainSize fuel
  let len := (copied.length + 1) % 256
  if replySize < start + (copied.length + 1) then
    .error .full
  else
    let mem := m.bytes ++ (copied ++ [0])
    match ← tryPointer mem fuel start m.lastDomainName with
    | some bytes => return ({ bytes, lastDomainName := some start }, bytes.length - start)
    | none => return ({ bytes := mem.take (start + len), lastDomainName := some start }, len)

def encode (labels : List Bytes) : Bytes :=
  labels.flatMap fun l => UInt8.ofNat l.length :: l

structure DomainName where
  labels : List Bytes
  label_size : ∀ l ∈ labels, 1 ≤ l.length ∧ l.length ≤ maxLabelSize
  label_string : ∀ l ∈ labels, (0 : UInt8) ∉ l
  size : (encode labels).length < maxDomainSize

/-- What is added to a message: a name, or other data of a record. -/
inductive Item where
  | name (name : DomainName)
  | data (bytes : Bytes)

/-- An item of a message, with the position it was written at and the length that was returned. -/
structure Placed where
  item : Item
  position : Nat
  length : Nat

def Message.add (m : Message) (fuel : Nat) : Item → Except Fault (Message × Nat)
  | .name x => addDomainNameCompressed m (encode x.labels) fuel
  | .data bytes =>
    if replySize < m.bytes.length + bytes.length then .error .full
    else .ok ({ m with bytes := m.bytes ++ bytes }, bytes.length)

def Message.build (fuel : Nat) : Message → List Item → Except Fault (Message × List Placed)
  | m, [] => .ok (m, [])
  | m, item :: items => do
    let r ← m.add fuel item
    let rest ← Message.build fuel r.1 items
    return (rest.1, { item, position := m.bytes.length, length := r.2 } :: rest.2)

end ZipGateway.Mdns

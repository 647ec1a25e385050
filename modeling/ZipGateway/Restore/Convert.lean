import ZipGateway.Lib.JsonTree
import ZipGateway.Restore.Data

/-!
# Conversions of the JSON reader

From JSON values and C strings to the fields of the backup data: `zgwr_json_parser_helpers.c`, the
helpers at the top of `zgwr_json_parser.c`, and `uiplib_ipaddrconv`.

What a conversion leaves of a field when it fails half way is in the model. What `json-c` makes of a
string that stands for a number is a parameter, `intOfString`.
-/

namespace ZipGateway.Restore

open JsonTree

def ascii (s : String) : Bytes :=
  s.toList.map fun c => UInt8.ofNat c.toNat

def cstr (s : Bytes) : Bytes :=
  s.takeWhile (· ≠ 0)

def strcmpEq (a b : Bytes) : Bool :=
  cstr a = cstr b

def strncmpEq : Nat → Bytes → Bytes → Bool
  | 0, _, _ => true
  | n + 1, a, b =>
    if a.headD 0 ≠ b.headD 0 then false
    else if a.headD 0 = 0 then true
    else strncmpEq n a.tail b.tail

section Numbers

/-- `json_object_get_int` of an integer. -/
def clampInt32 (n : Int) : Int :=
  max (-2147483648) (min n 2147483647)

def jsonGetInt (intOfString : Bytes → Int) : Json → Int
  | .int n => clampInt32 n
  | .bool b => if b then 1 else 0
  | .double n _ => clampInt32 n
  | .string s => clampInt32 (intOfString s)
  | _ => 0

def uint8SetFromIntval (number : Int) : Option UInt8 :=
  if number ≤ 255 ∧ 0 ≤ number then some (UInt8.ofInt number) else none

def uint16SetFromIntval (number : Int) : Option UInt16 :=
  if number ≤ 65535 ∧ 0 ≤ number then some (UInt16.ofInt number) else none

def uint32SetFromIntval (number : Int) : Option UInt32 :=
  if number ≤ 4294967295 ∧ 0 ≤ number then some (UInt32.ofInt number) else none

def uint8SetFromJson : Option Json → Option UInt8
  | some (.int n) => uint8SetFromIntval (clampInt32 n)
  | _ => none

def uint16SetFromJson : Option Json → Option UInt16
  | some (.int n) => uint16SetFromIntval (clampInt32 n)
  | _ => none

def nodeIdSetFromIntval (number : Int) : Option NodeId :=
  if (0 < number ∧ number ≤ zwClassicMaxNodes) ∨ (zwLrMinNodeId ≤ number ∧ number ≤ zwLrMaxNodeId) then
    some (UInt16.ofInt number)
  else none

def findUint16Field {α : Type} (number : Int) (key : String) (a : α) : List (String × (UInt16 → α → α)) → Option α
  | [] => none
  | (expKey, field) :: fields =>
    if key = expKey then
      match uint16SetFromIntval number with
      | some n => some (field n a)
      | none => findUint16Field number key a fields
    else findUint16Field number key a fields

end Numbers

section Hex

def isDigit (c : UInt8) : Bool :=
  0x30 ≤ c ∧ c ≤ 0x39

def isXDigit (c : UInt8) : Bool :=
  isDigit c || (0x41 ≤ c ∧ c ≤ 0x46) || (0x61 ≤ c ∧ c ≤ 0x66)

def toUpper (c : UInt8) : UInt8 :=
  if 0x61 ≤ c ∧ c ≤ 0x7A then c - 0x20 else c

def readHalfByte (c : UInt8) : UInt8 :=
  if isDigit c then c - 0x30 else toUpper c - 0x41 + 10

def hexSetFromString : Nat → Bytes → Bytes
  | n + 1, c1 :: c2 :: str =>
    if isXDigit c2 && isXDigit c1 then
      ((readHalfByte c1 <<< 4) + readHalfByte c2) :: hexSetFromString n str
    else []
  | _, _ => []

def overwrite (target bytes : Bytes) : Bytes :=
  bytes ++ target.drop bytes.length

def hexCreateFromJson (v : Json) : Bytes :=
  if 1 < v.str.length then hexSetFromString (v.str.length / 2) v.str else []

def uint8ArraySetFromJson (key : String) (container : Json) (target : Bytes) (expNewLen : Nat) : Bytes × Bool :=
  match container.get? key with
  | none => (target, false)
  | some part =>
    if part.str.length < expNewLen * 2 then (target, false)
    else
      let bytes := hexSetFromString expNewLen part.str
      (overwrite target bytes, decide (expNewLen ≤ bytes.length))

/-- `homeid_set_from_json`; bytes that are not converted have no value in the source, and are zero here. -/
def homeidSetFromJson : Json → Option Bytes
  | .string s =>
    if s.length = 10 ∧ s.getD 1 0 = 0x78 ∧ s.getD 0 0 = 0x30 then
      some (overwrite (zeros 4) (hexSetFromString 4 (s.drop 2)))
    else if s.length = 8 then some (overwrite (zeros 4) (hexSetFromString 4 s))
    else none
  | _ => none

def stringCreateFromJson (v : Json) : Option Bytes :=
  if 0 < v.str.length then some v.str else none

end Hex

section Address

/-- The state of the loop of `uiplib_ipaddrconv`. -/
structure IpScan where
  value : UInt16
  zero : Option Nat
  len : Nat
  ip : Bytes

def IpScan.group (s : IpScan) : IpScan :=
  { s with
    ip := (s.ip.set s.len (UInt8.ofNat (s.value.toNat / 256))).set (s.len + 1) (UInt8.ofNat s.value.toNat)
    len := s.len + 2
    value := 0 }

def ipDigit (c : UInt8) : Option UInt16 :=
  if isDigit c then some (c - 0x30).toUInt16
  else if 0x61 ≤ c ∧ c ≤ 0x66 then some (c - 0x61 + 10).toUInt16
  else if 0x41 ≤ c ∧ c ≤ 0x46 then some (c - 0x41 + 10).toUInt16
  else none

def ipScan (s : IpScan) (c : UInt8) : Bytes → IpScan × Option UInt8
  | [] => if s.len < 15 then (s.group, some 0) else (s, some c)
  | 0x3A :: 0x3A :: str =>
    if s.len < 15 then
      ipScan { s.group with zero := if s.zero = none then some s.group.len else s.zero } 0x3A str
    else (s, some c)
  | c' :: str =>
    if s.len < 15 then
      if c' = 0x3A then ipScan s.group 0x3A str
      else
        match ipDigit c' with
        | some digit => ipScan { s with value := (s.value <<< 4) + digit } c' str
        | none => (s, none)
    else (s, some c)

def uiplibIpaddrconv (addr slot : Bytes) : Bytes :=
  let r := ipScan ⟨0, none, 0, slot⟩ 0 (cstr addr)
  if r.2 = some 0 ∧ r.1.len < 16 then
    match r.1.zero with
    | none => r.1.ip
    | some gap =>
      r.1.ip.take gap ++ zeros (16 - r.1.len) ++ (r.1.ip.drop gap).take (r.1.len - gap)
  else r.1.ip

end Address

section Dsk

def isSpace (c : UInt8) : Bool :=
  c = 0x20 || (0x09 ≤ c ∧ c ≤ 0x0D)

def digitOf (base : Nat) (c : UInt8) : Option Nat :=
  if isXDigit c then
    if (readHalfByte c).toNat < base then some (readHalfByte c).toNat else none
  else none

def digitsOf (base : Nat) (value : Nat) : Bytes → Option Nat
  | [] => some value
  | c :: str =>
    match digitOf base c with
    | some digit => digitsOf base (value * base + digit) str
    | none => none

/-- `strtol`, when it takes the whole string; the empty string is taken as zero. -/
def strtol (base : Nat) (str : Bytes) : Option Int :=
  if str = [] then some 0
  else
    let str := str.dropWhile isSpace
    let minus := str.headD 0 = 0x2D
    let str := if str.headD 0 = 0x2D ∨ str.headD 0 = 0x2B then str.tail else str
    let str :=
      if base = 16 ∧ str.headD 0 = 0x30 ∧ toUpper (str.getD 1 0) = 0x58 ∧
          (digitOf 16 (str.getD 2 0)).isSome then str.drop 2 else str
    if str = [] then none
    else (digitsOf base 0 str).map fun n => if minus then -(n : Int) else (n : Int)

def dskToken (base : Nat) (token : Bytes) : Option Bytes :=
  match strtol base token with
  | some n =>
    if 0 ≤ n ∧ n ≤ 0xFFFF then some [UInt8.ofInt (n / 256), UInt8.ofInt n] else none
  | none => none

def dskHex : Nat → Bytes → Option Bytes
  | 0, _ => some []
  | n + 1, str =>
    if str.length < 4 then some []
    else
      match dskToken 16 (cstr (str.take 4)) with
      | some bytes => (dskHex n (str.drop 4)).map (bytes ++ ·)
      | none => none

def dskGroups : List Bytes → Option Bytes
  | [] => some []
  | token :: tokens =>
    if token.length = 5 then
      match dskToken 10 token with
      | some bytes => (dskGroups tokens).map (bytes ++ ·)
      | none => none
    else none

def createDskFromJson : Json → Option Bytes
  | .string s =>
    let result : Option Bytes × Nat :=
      if strncmpEq 2 s (ascii "0x") then (dskHex s.length (s.drop 2), (s.length - 2) / 2)
      else if strncmpEq 3 s (ascii "QR:") then
        let size := (s.length - 3 + 1) / 6 * 2
        if size = 0 then (some [], size)
        else if s.length - 3 < 100 then
          (dskGroups (((cstr (s.drop 3)).splitOn 0x2D).filter (· ≠ [])), size)
        else (some [], size)
      else (some [], 0)
    match result with
    | (some bytes, size) => if bytes.length = size ∧ bytes ≠ [] then some bytes else none
    | (none, _) => none
  | _ => none

end Dsk

example : uiplibIpaddrconv (ascii "fd00::3") (zeros 16) = [0xFD, 0] ++ zeros 13 ++ [3] := by decide

example : createDskFromJson (.string (ascii "QR:00001-65535")) = some [0, 1, 0xFF, 0xFF] := by decide

end ZipGateway.Restore

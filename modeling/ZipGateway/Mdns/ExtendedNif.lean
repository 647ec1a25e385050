import ZipGateway.Packet

/-!
# The extended node information of the TXT record

`gen_extnif` of `mDNSService.c` copies what a node told about an endpoint: two bytes for the kind of
device, and its command classes. Some classes get a second byte, some are hidden, and association becomes
the one over IP. Whether there is room is decided by the length of what is copied.
-/

namespace ZipGateway.Mdns.ExtendedNif

def commandClassMeter : UInt8 := 0x32
def commandClassSensorMultilevel : UInt8 := 0x31
def commandClassSensorAlarm : UInt8 := 0x9C
def commandClassAlarm : UInt8 := 0x71
def commandClassTransportService : UInt8 := 0x55
def commandClassSecurity : UInt8 := 0x98
def commandClassMultiInstance : UInt8 := 0x60
def commandClassAssociation : UInt8 := 0x85
def commandClassIpAssociation : UInt8 := 0x5C
def commandClassZipNaming : UInt8 := 0x68

structure Nif where
  enif : Bytes
  read : Nat

namespace Nif

def put (n : Nif) (out : Bytes) (read : Nat) : Nif :=
  ⟨out ++ n.enif, read + n.read⟩

def returned (n : Nif) : UInt8 :=
  UInt8.ofNat n.enif.length

end Nif

def isExtended (q : UInt8) : Bool :=
  q &&& 0xF0 = 0xF0

def rewritten (q : UInt8) : Bytes :=
  if q ∈ [commandClassMeter, commandClassSensorMultilevel, commandClassSensorAlarm, commandClassAlarm] then [q, 0]
  else if q ∈ [commandClassTransportService, commandClassSecurity, commandClassMultiInstance] then []
  else if q = commandClassAssociation then [commandClassIpAssociation, q]
  else [q]

/-- The loop; `behind` is the byte behind the information, read as the last one's second. -/
def genLoop (behind : UInt8) : Bytes → Nif
  | [] => ⟨[], 0⟩
  | [q] => if isExtended q then ⟨[q, behind], 2⟩ else ⟨rewritten q, 1⟩
  | q :: q' :: rest =>
    if isExtended q then (genLoop behind rest).put [q, q'] 2
    else (genLoop behind (q' :: rest)).put (rewritten q) 1

def naming (endpointId : UInt8) : Bytes :=
  if 0 < endpointId then [commandClassZipNaming] else []

def genExtnif (endpointInfo : Bytes) (endpointId behind size : UInt8) : Nif :=
  if size.toNat < endpointInfo.length + 1 then ⟨[], 0⟩
  else
    match endpointInfo with
    | generic :: specific :: classes =>
      (genLoop behind classes).put (generic :: specific :: naming endpointId) 2
    | _ => ⟨[], 0⟩

/-- A command class as a node lists it. -/
inductive CommandClass where
  | short (q : UInt8) (hshort : isExtended q = false)
  | extended (q q' : UInt8) (hextended : isExtended q = true)

namespace CommandClass

def bytes : CommandClass → Bytes
  | short q _ => [q]
  | extended q q' _ => [q, q']

def listed : CommandClass → Bytes
  | short q _ => rewritten q
  | extended q q' _ => [q, q']

end CommandClass

theorem genLoop_short {behind q : UInt8} {rest : Bytes} (h : isExtended q = false) :
    genLoop behind (q :: rest) = (genLoop behind rest).put (rewritten q) 1 := by
  cases rest with
  | nil => simp [genLoop, h, Nif.put]
  | cons q' rest => simp [genLoop, h]

theorem genLoop_classes {behind : UInt8} {classes : List CommandClass} :
    genLoop behind (classes.flatMap CommandClass.bytes) =
      ⟨classes.flatMap CommandClass.listed, (classes.flatMap CommandClass.bytes).length⟩ := by
  induction classes with
  | nil => rfl
  | cons c classes ih =>
    rw [List.flatMap_cons, List.flatMap_cons, List.length_append]
    cases c with
    | short q hshort =>
      rw [CommandClass.bytes, List.singleton_append, genLoop_short hshort, ih]
      rfl
    | extended q q' hextended =>
      rw [CommandClass.bytes, List.cons_append, List.singleton_append, genLoop, if_pos hextended, ih]
      rfl

/-- The information is that of a device with these classes, which are written as they are to be listed, with
room for all of it, and no byte behind the information is read. -/
def Generated (endpointInfo : Bytes) (endpointId size : UInt8) (n : Nif) : Prop :=
  ∃ (generic specific : UInt8) (classes : List CommandClass), endpointInfo = generic :: specific :: classes.flatMap CommandClass.bytes ∧
    n.enif = generic :: specific :: naming endpointId ++ classes.flatMap CommandClass.listed ∧
    n.enif.length ≤ size.toNat ∧ n.returned.toNat = n.enif.length ∧ n.read ≤ endpointInfo.length

/-- The node information is generated as it should be exactly if its last class is complete, it is shorter
than the buffer, and what its classes become finds room there. -/
theorem generated_iff (endpointInfo : Bytes) (endpointId behind size : UInt8) :
    Generated endpointInfo endpointId size (genExtnif endpointInfo endpointId behind size) ↔
      ∃ (generic specific : UInt8) (classes : List CommandClass), endpointInfo = generic :: specific :: classes.flatMap CommandClass.bytes ∧
        endpointInfo.length < size.toNat ∧
        2 + (naming endpointId).length + (classes.flatMap CommandClass.listed).length ≤ size.toNat := by
  have hlength : ∀ (generic specific : UInt8) (l : Bytes),
      (generic :: specific :: naming endpointId ++ l).length = 2 + (naming endpointId).length + l.length := by
    intro generic specific l
    rw [List.length_append, List.length_cons, List.length_cons]
    omega
  constructor
  · rintro ⟨generic, specific, classes, hinfo, henif, hroom, -, -⟩
    refine ⟨generic, specific, classes, hinfo, ?_, ?_⟩
    · by_contra hlong
      unfold genExtnif at henif
      rw [if_pos (by omega)] at henif
      exact List.cons_ne_nil _ _ henif.symm
    · rwa [henif, hlength] at hroom
  · rintro ⟨generic, specific, classes, rfl, hshort, hroom⟩
    have hnif : genExtnif (generic :: specific :: classes.flatMap CommandClass.bytes) endpointId behind size =
        ⟨generic :: specific :: naming endpointId ++ classes.flatMap CommandClass.listed,
          2 + (classes.flatMap CommandClass.bytes).length⟩ := by
      rw [genExtnif, if_neg (by omega), genLoop_classes]
      rfl
    rw [hnif]
    refine ⟨generic, specific, classes, rfl, rfl, ?_, ?_, ?_⟩
    · rwa [hlength]
    · have hsize := size.toNat_lt
      rw [Nif.returned, hlength]
      exact UInt8.toNat_ofNat_of_lt' (by rw [UInt8.size]; omega)
    · change 2 + _ ≤ _
      rw [List.length_cons, List.length_cons]
      omega

theorem generated_not : ¬ ∀ (endpointInfo : Bytes) (endpointId behind size : UInt8),
    Generated endpointInfo endpointId size (genExtnif endpointInfo endpointId behind size) := by
  intro hall
  obtain ⟨_, _, _, -, -, -, -, hread⟩ := hall [0x04, 0x10, 0xF1] 0 0 64
  exact absurd hread (by decide)

end ZipGateway.Mdns.ExtendedNif

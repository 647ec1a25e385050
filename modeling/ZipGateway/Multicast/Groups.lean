import ZipGateway.Lib.Machine
import ZipGateway.Lib.Memory

/-!
# The multicast group manager

`multicast_group_manager.c` gives a group id to each node mask that is asked for. The ids in use are
kept in a circular list by the age of their last use, in the fields `next` and `prev` of
`mcast_groups_list`.

The ids that were returned are remembered in `uses`, the newest first. They are not in the code.
-/

namespace ZipGateway.Multicast

open Function (update)

/-- `MCAST_MAX_GROUPS`, as the gateway is built. -/
def mcastMaxGroups : Nat := 100

def mcastDistInf : Nat := 0xFFFF

def nodemaskSize : Nat := 4000 / 8 + 1

abbrev Nodemask := Vector UInt8 nodemaskSize

abbrev GroupId := Nat

structure State where
  inUse : GroupId → Bool
  prev : GroupId → GroupId
  next : GroupId → GroupId
  nlist : GroupId → Nodemask
  useAgeHead : GroupId
  uses : List GroupId

def emptyMask : Nodemask := Vector.replicate nodemaskSize 0

def init : State where
  inUse := fun _ => false
  prev := fun _ => 0
  next := fun _ => 0
  nlist := fun _ => emptyMask
  useAgeHead := 0
  uses := []

section UseAge

def useAgeGetOldest (s : State) : GroupId :=
  s.prev s.useAgeHead

def useAgeElementRemove (s : State) (groupId : GroupId) : State :=
  let next := s.next groupId
  let prev := s.prev groupId
  { s with
    next := update s.next prev next
    prev := update s.prev next prev }

def useAgeElementInsertHead (s : State) (groupId : GroupId) : State :=
  let tail := s.prev s.useAgeHead
  { s with
    next := update (update s.next groupId s.useAgeHead) tail groupId
    prev := update (update s.prev groupId tail) s.useAgeHead groupId
    useAgeHead := groupId }

def useAgeElementInsertNew (s : State) (groupId : GroupId) : State :=
  if s.useAgeHead = 0 then
    { s with
      prev := update s.prev groupId groupId
      next := update s.next groupId groupId
      useAgeHead := groupId }
  else useAgeElementInsertHead s groupId

def useAgeUpdate (s : State) (groupId : GroupId) : State :=
  if groupId = s.useAgeHead then s
  else useAgeElementInsertHead (useAgeElementRemove s groupId) groupId

end UseAge

section Distance

theorem clear_lowest_lt {tmp : UInt8} (h : tmp ≠ 0) : (tmp &&& (tmp - 1)).toNat < tmp.toNat := by
  have hpos : 0 < tmp.toNat := by
    rw [Nat.pos_iff_ne_zero]
    exact fun hzero => h (UInt8.toNat_inj.mp hzero)
  have hsub : (tmp - 1).toNat = tmp.toNat - 1 := UInt8.toNat_sub_of_le tmp 1 hpos
  calc (tmp &&& (tmp - 1)).toNat = tmp.toNat &&& (tmp - 1).toNat := UInt8.toNat_and ..
    _ ≤ (tmp - 1).toNat := Nat.and_le_right
    _ < tmp.toNat := by omega

def countBits (tmp : UInt8) : Nat :=
  if h : tmp = 0 then 0 else countBits (tmp &&& (tmp - 1)) + 1
termination_by tmp.toNat
decreasing_by exact clear_lowest_lt h

def mcastByteDistance (old new : UInt8) : Nat :=
  if old = new then 0
  else if old &&& ~~~new ≠ 0 then mcastDistInf
  else countBits (old ^^^ new)

def maskDistance : List UInt8 → List UInt8 → Nat → Nat
  | old :: olds, new :: news, dist =>
    if mcastByteDistance old new = mcastDistInf then mcastDistInf
    else maskDistance olds news (dist + mcastByteDistance old new)
  | _, _, dist => dist

def mcastNodemaskDistance (oldGroup newGroup : Nodemask) : Nat :=
  maskDistance oldGroup.toList newGroup.toList 0

end Distance

def mcastGroupGetNodemaskById (s : State) (groupId : GroupId) : Option Nodemask :=
  if groupId = 0 ∨ mcastMaxGroups < groupId then none
  else if s.inUse groupId then some (s.nlist groupId)
  else none

structure Found where
  candidate : GroupId
  firstUnused : GroupId
  lowestDist : Nat

def consider (s : State) (nodemask : Nodemask) (found : Found) (id : GroupId) : Found :=
  if s.inUse id then
    let tmp := mcastNodemaskDistance (s.nlist id) nodemask
    if tmp < found.lowestDist then { found with lowestDist := tmp, candidate := id } else found
  else if found.firstUnused = 0 then { found with firstUnused := id }
  else found

def search (s : State) (nodemask : Nodemask) : Found :=
  (List.range' 1 mcastMaxGroups).foldl (consider s nodemask) ⟨0, 0, 0xFF⟩

def setNlist (s : State) (id : GroupId) (nodemask : Nodemask) : State :=
  { s with nlist := update s.nlist id nodemask }

def State.use (s : State) (id : GroupId) : State :=
  { s with uses := id :: s.uses }

def mcastGroupGetIdByNodemask (s : State) (nodemask : Nodemask) : GroupId × State :=
  if nodemask = emptyMask then (0, s)
  else
    let found := search s nodemask
    if found.candidate ≠ 0 then
      let s := if found.lowestDist ≠ 0 then setNlist s found.candidate nodemask else s
      (found.candidate, (useAgeUpdate s found.candidate).use found.candidate)
    else if found.firstUnused = 0 then
      let oldest := useAgeGetOldest s
      (oldest, (setNlist (useAgeUpdate s oldest) oldest nodemask).use oldest)
    else
      let id := found.firstUnused
      let s := { s with inUse := update s.inUse id true }
      (id, (setNlist (useAgeElementInsertNew s id) id nodemask).use id)

def step (s : State) (nodemask : Nodemask) : State :=
  (mcastGroupGetIdByNodemask s nodemask).2

end ZipGateway.Multicast

import ZipGateway.Inclusion.Simulation

/-!
# The keys a joining node asks for

`s2_send_net_key_get` moves the bit of `key_exchange` up to a granted key. The loop ends because the event
that leads to it is only derived while a granted key is left, and `key_exchange` is a single bit.
-/

set_option maxRecDepth 8000

namespace ZipGateway.Inclusion

inductive SearchLoop (granted : UInt8) : UInt8 → UInt8 → Prop
  | found {exchange : UInt8} (h : exchange &&& granted ≠ 0) : SearchLoop granted exchange exchange
  | shift {exchange key : UInt8} (h : exchange &&& granted = 0)
      (hrest : SearchLoop granted (exchange <<< 1) key) : SearchLoop granted exchange key

structure LowestLeft (granted taken key : UInt8) : Prop where
  single : key &&& (key - 1) = 0
  offered : key &&& granted ≠ 0
  left : key &&& taken = 0
  lowest : granted &&& (key - 1) &&& ~~~taken = 0

def keysOf (mask : UInt8) : List UInt8 :=
  Byte.bits.filter fun key => key &&& mask ≠ 0

/-! ### What the log says -/

def State.searches : State → Bool
  | .echoKexSetSending | .keyExchanged => true
  | _ => false

def Entry.asked? : Entry → Option UInt8
  | .sentData _ frame _ => if frame[1]? = some networkKeyGet then frame[2]? else none
  | _ => none

def Entry.grants? : Entry → Option UInt8
  | .received found _ _ _ frame =>
    if found = .awaitingKexSet ∧ frame.getD 1 0 = kexSet then some (frame.getD 5 0) else none
  | .keyGrant found accept keys _ =>
    if found = .awaitingUserAAccept ∧ accept = acceptInclusion then some keys else none
  | _ => none

def Entry.takes : Entry → UInt8
  | .received found _ exchange src frame =>
    if found = .awaitingNetKeyReport ∧ frame.getD 1 0 = networkKeyReport ∧ 19 ≤ frame.length ∧
        src.classId = tempKeySlot ∧ frame.getD 2 0 = exchange then
      exchange
    else
      0
  | _ => 0

/-- `key_exchange` in front of the loop, when a frame may lead to it. -/
def Entry.searchesFrom? : Entry → Option UInt8
  | .received found _ exchange _ _ => if found.searches then some exchange else none
  | _ => none

def searchFrom (log : List Entry) : Option UInt8 :=
  log.head?.bind Entry.searchesFrom?

def grantedKeys : List Entry → UInt8
  | [] => 0
  | e :: before => if e = .joined then 0 else e.grants?.getD (grantedKeys before)

def takenKeys : List Entry → UInt8
  | [] => 0
  | e :: before => if e = .joined then 0 else takenKeys before ||| e.takes

def requestedKeys : List Entry → List UInt8
  | [] => []
  | e :: before =>
    if e = .joined then []
    else
      match e.asked?, searchFrom before with
      | some key, some _ => requestedKeys before ++ [key]
      | _, _ => requestedKeys before

structure AsksNext (before : List Entry) (exchange key : UInt8) : Prop where
  ends : SearchLoop (grantedKeys before) exchange key
  lowest : LowestLeft (grantedKeys before) (takenKeys before) key

structure AsksAgain (before : List Entry) (key : UInt8) : Prop where
  last : (requestedKeys before).getLast? = some key
  left : key &&& takenKeys before = 0

structure Finished (before : List Entry) : Prop where
  requested : requestedKeys before = keysOf (grantedKeys before)
  taken : takenKeys before = grantedKeys before

def RequestsInTurn : List Entry → Prop
  | [] => True
  | e :: before =>
    (∀ key, e.asked? = some key →
      match searchFrom before with
      | some exchange => AsksNext before exchange key
      | none => AsksAgain before key) ∧
    (∀ peer keys, e = .event (.joiningComplete peer keys) → Finished before) ∧
    (requestedKeys (e :: before)).Pairwise (· < ·) ∧ RequestsInTurn before

/-! ### The search -/

section Bits

theorem searchLoop_nextGranted (granted : UInt8) (n : Nat) (exchange : UInt8)
    (h : Ctx.nextGranted granted n exchange &&& granted ≠ 0) :
    SearchLoop granted exchange (Ctx.nextGranted granted n exchange) := by
  induction n generalizing exchange with
  | zero => exact .found h
  | succ n ih =>
    unfold Ctx.nextGranted at h ⊢
    split
    · next hnone =>
      rw [if_pos hnone] at h
      exact .shift hnone (ih _ h)
    · next hfound => exact .found hfound

def exchanges : List UInt8 := 0 :: Byte.bits

theorem bit_places : ∀ key ∈ Byte.bits, key &&& (key - 1) = 0 ∧ key <<< 1 ∈ exchanges ∧
    key <<< (1 : UInt8) - 1 = (key - 1) ||| key ∧ (0 : UInt8) - key = key ||| ((0 : UInt8) - key <<< 1) := by
  decide +kernel

theorem single_of_mem (key : UInt8) (h : key ∈ Byte.bits) : key &&& (key - 1) = 0 :=
  (bit_places key h).1

theorem shift_mem (key : UInt8) (h : key ∈ Byte.bits) : key <<< 1 ∈ exchanges :=
  (bit_places key h).2.1

theorem below_shift (key : UInt8) (h : key ∈ Byte.bits) : key <<< (1 : UInt8) - 1 = (key - 1) ||| key :=
  (bit_places key h).2.2.1

theorem above_eq (key : UInt8) (h : key ∈ Byte.bits) : (0 : UInt8) - key = key ||| ((0 : UInt8) - key <<< 1) :=
  (bit_places key h).2.2.2

theorem below_or_above : ∀ exchange ∈ exchanges, (exchange - 1) ||| (0 - exchange) = -1 := by
  decide

theorem shift_mem_drop : ∀ n < 8, ∀ key ∈ Byte.bits.drop (8 - (n + 1)),
    key <<< 1 = 0 ∨ key <<< 1 ∈ Byte.bits.drop (8 - n) := by
  decide

theorem and_single : ∀ key ∈ Byte.bits, ∀ granted : UInt8, key &&& granted ≠ 0 → granted &&& key = key := by
  decide +kernel

variable {granted key exchange : UInt8}

theorem left_of_shift (h : key ∈ Byte.bits) (hnone : key &&& granted = 0) (hleft : (0 - key) &&& granted ≠ 0) :
    ((0 : UInt8) - key <<< 1) &&& granted ≠ 0 ∧ granted &&& (key <<< (1 : UInt8) - 1) = granted &&& (key - 1) := by
  have hnone' : granted &&& key = 0 := by rwa [UInt8.and_comm]
  constructor
  · intro hgone
    apply hleft
    rw [above_eq key h, UInt8.and_comm, Byte.and_or_eq_zero_iff]
    exact ⟨hnone', by rwa [UInt8.and_comm]⟩
  · rw [below_shift key h, Byte.and_or, hnone', UInt8.or_zero]

theorem nextGranted_drop (n : Nat) (hn : n ≤ 8) (h : exchange ∈ Byte.bits.drop (8 - n))
    (hleft : (0 - exchange) &&& granted ≠ 0) :
    Ctx.nextGranted granted n exchange ∈ Byte.bits ∧ Ctx.nextGranted granted n exchange &&& granted ≠ 0 ∧
      granted &&& (Ctx.nextGranted granted n exchange - 1) = granted &&& (exchange - 1) := by
  induction n generalizing exchange with
  | zero => cases h
  | succ n ih =>
    have hbit : exchange ∈ Byte.bits := List.mem_of_mem_drop h
    unfold Ctx.nextGranted
    split
    · next hnone =>
      obtain ⟨hleft', hsides⟩ := left_of_shift hbit hnone hleft
      have hne : exchange <<< 1 ≠ 0 := by
        intro hzero
        rw [hzero] at hleft'
        exact hleft' UInt8.zero_and
      have hmem := (shift_mem_drop n (by omega) exchange h).resolve_left hne
      obtain ⟨hkey, hgranted, hpassed⟩ := ih (by omega) hmem hleft'
      exact ⟨hkey, hgranted, hpassed.trans hsides⟩
    · next hfound => exact ⟨hbit, hfound, rfl⟩

theorem nextGranted_spec (h : exchange ∈ exchanges) (hleft : (0 - exchange) &&& granted ≠ 0) :
    Ctx.nextGranted granted 8 exchange ∈ Byte.bits ∧ Ctx.nextGranted granted 8 exchange &&& granted ≠ 0 ∧
      granted &&& (Ctx.nextGranted granted 8 exchange - 1) = granted &&& (exchange - 1) := by
  rcases List.mem_cons.mp h with rfl | hbit
  · exact absurd UInt8.zero_and hleft
  · exact nextGranted_drop 8 le_rfl hbit hleft

theorem none_left (h : exchange ∈ exchanges) (hnone : (0 - exchange) &&& granted = 0) :
    granted &&& (exchange - 1) = granted := by
  have hnone' : granted &&& (0 - exchange) = 0 := by rwa [UInt8.and_comm]
  calc
    granted &&& (exchange - 1) = granted &&& (exchange - 1) ||| granted &&& (0 - exchange) := by
      rw [hnone', UInt8.or_zero]
    _ = granted := by rw [← Byte.and_or, below_or_above exchange h, UInt8.and_neg_one]

theorem below_or (h : key ∈ Byte.bits) (hgranted : key &&& granted ≠ 0) :
    granted &&& (key - 1) ||| key = granted &&& (key <<< (1 : UInt8) - 1) := by
  rw [below_shift key h, Byte.and_or, and_single key h granted hgranted]

theorem and_below (h : key ∈ Byte.bits) : key &&& (granted &&& (key - 1)) = 0 := by
  calc
    key &&& (granted &&& (key - 1)) = granted &&& (key &&& (key - 1)) := by
      rw [← UInt8.and_assoc, UInt8.and_comm key, UInt8.and_assoc]
    _ = 0 := by rw [single_of_mem key h, UInt8.and_zero]

theorem keysOf_or : ∀ key ∈ Byte.bits, ∀ taken : UInt8, taken &&& (key - 1) = taken →
    keysOf (taken ||| key) = keysOf taken ++ [key] := by
  decide +kernel

theorem pairwise_keysOf (mask : UInt8) : (keysOf mask).Pairwise (· < ·) := by
  refine List.Pairwise.filter _ ?_
  decide

end Bits

/-! ### The log -/

structure Entry.Aside (e : Entry) : Prop where
  begins : e ≠ .joined
  asks : e.asked? = none
  grants : e.grants? = none
  takes : e.takes = 0
  completes : ∀ peer keys, e ≠ .event (.joiningComplete peer keys)

section Log

variable {e : Entry} {log : List Entry}

theorem searchFrom_cons (e : Entry) (log : List Entry) : searchFrom (e :: log) = e.searchesFrom? := rfl

theorem grantedKeys_cons (hbegins : e ≠ .joined) (hgrants : e.grants? = none) :
    grantedKeys (e :: log) = grantedKeys log := by
  rw [grantedKeys, if_neg hbegins, hgrants, Option.getD_none]

theorem takenKeys_cons (hbegins : e ≠ .joined) : takenKeys (e :: log) = takenKeys log ||| e.takes := by
  rw [takenKeys, if_neg hbegins]

theorem requestedKeys_cons (hbegins : e ≠ .joined) (hasks : e.asked? = none) :
    requestedKeys (e :: log) = requestedKeys log := by
  rw [requestedKeys, if_neg hbegins, hasks]

theorem RequestsInTurn.pairwise (h : RequestsInTurn log) : (requestedKeys log).Pairwise (· < ·) := by
  cases log with
  | nil => exact List.Pairwise.nil
  | cons e before => exact h.2.2.1

theorem RequestsInTurn.cons (h : RequestsInTurn log) (hasks : e.asked? = none)
    (hcompletes : ∀ peer keys, e = .event (.joiningComplete peer keys) → Finished log) :
    RequestsInTurn (e :: log) := by
  refine ⟨fun key hkey => ?_, hcompletes, ?_, h⟩
  · rw [hasks] at hkey
    cases hkey
  · by_cases hbegins : e = .joined
    · rw [requestedKeys, if_pos hbegins]
      exact List.Pairwise.nil
    · rw [requestedKeys_cons hbegins hasks]
      exact h.pairwise

theorem RequestsInTurn.aside (h : RequestsInTurn log) (he : e.Aside) : RequestsInTurn (e :: log) :=
  h.cons he.asks fun peer keys hcompletes => absurd hcompletes (he.completes peer keys)

end Log

end ZipGateway.Inclusion

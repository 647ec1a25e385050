import ZipGateway.Udp.Dispatcher
import ZipGateway.Udp.Security

/-!
# The packets that reach the application

`UDPCommandHandler` queues a packet before it looks at the flag for a command in it, and `do_app_handler` hands
over all that is queued, on behalf of a later packet or of the timer for multicast packets. The options are
read up to a byte behind the extension.
-/

namespace ZipGateway.Udp

def Payload.queued (env : Env) (p : Payload) : Option Queued :=
  if p.data 0 = commandClassZip ∧ ¬(p.toAllRouters ∧ ¬p.sourced) ∧ p.data 1 = commandZipPacket ∧
      ¬env.bufSize < p.payloadLen + env.asyncStateSize ∧ p.flags0 &&& (flags0AckRes ||| flags0NackWait) = 0 ∧
      p.command.len ≠ 0 then
    match p.parse with
    | .ok scheme =>
      some ⟨p.flags0 &&& flags0AckReq ≠ 0 ∧ ¬(p.flags1 &&& flags1ZwCmdIncl ≠ 0 ∧ p.toAllRouters),
        ⟨p.scheme scheme, p.ripaddr, p.toMulticast ∧ ¬p.toAllRouters, 0, p.receivedSecure, p.data 6, p.data 5,
          p.data 4⟩, p.command⟩
    | _ => none
  else none

/-- A call of `ApplicationIpCommandHandler`, or a packet that it is to be called for. -/
structure Call where
  seq : UInt8
  lendpoint : UInt8
  rendpoint : UInt8
  frame : Frame

def Queued.call (q : Queued) : Call :=
  ⟨q.conn.seq, q.conn.lendpoint, q.conn.rendpoint, q.frame⟩

def Payload.hasCommand (p : Payload) : Bool :=
  p.flags1 &&& flags1ZwCmdIncl ≠ 0

namespace State

/-- The packets that `do_app_handler` hands over in a step. -/
def handed (env : Env) (s : State) : Event → List Queued
  | .received p =>
    match p.queued env with
    | some q => if env.room s.allocated ∧ p.hasCommand ∧ ¬p.toAllRouters then s.queue ++ [q] else []
    | none => []
  | .timer => s.queue
  | .expired _ => []

def left (env : Env) (s : State) : Event → List Queued
  | .received p =>
    match p.queued env with
    | some q =>
      if env.room s.allocated then (if p.hasCommand ∧ ¬p.toAllRouters then [] else s.queue ++ [q]) else s.queue
    | none => s.queue
  | .timer => []
  | .expired i => s.queue.eraseIdx i

def Quiet (s t : State) : Prop :=
  t.queue = s.queue ∧ ∀ o ∈ t.log, o ∈ s.log ∨ o = .zipAck true ∨ o = .zipAck false ∨ o = .keepAliveAck ∨
    o = .neighbourDiscovery ∨ o = .timerSet

variable {env : Env} {depth : Nat} {s : State} {p : Payload}

theorem Quiet.refl : s.Quiet s :=
  ⟨rfl, fun _ ho => .inl ho⟩

theorem Quiet.put {o : Out} (ho : o = .zipAck true ∨ o = .zipAck false ∨ o = .keepAliveAck ∨
    o = .neighbourDiscovery ∨ o = .timerSet) : s.Quiet (s.put o) := by
  refine ⟨rfl, fun o' ho' => ?_⟩
  rcases List.mem_cons.mp ho' with rfl | hold
  · exact .inr ho
  · exact .inl hold

theorem quiet_ackRequested {optionError : Bool} : s.Quiet (s.ackRequested p optionError) := by
  unfold ackRequested
  split
  · cases optionError
    · exact .put (.inr (.inl rfl))
    · exact .put (.inl rfl)
  · exact .refl

theorem quiet_of_not_queued (h : p.queued env = none) : s.Quiet (step env depth s (.received p)) := by
  change s.Quiet (s.udpCommandHandler env depth p)
  unfold udpCommandHandler
  split_ifs with hnd hzip hsourced hkeep hask hpacket
  · exact .put (by tauto)
  · exact .refl
  · exact .refl
  · exact .put (by tauto)
  · exact .refl
  · rw [zipPacket]
    by_cases hlarge : env.bufSize < p.payloadLen + env.asyncStateSize
    · rw [if_pos hlarge]
      exact quiet_ackRequested
    by_cases hack : p.flags0 &&& (flags0AckRes ||| flags0NackWait) = 0
    · rw [if_neg hlarge, if_neg (not_not.mpr hack)]
      unfold Payload.queued at h
      cases hparse : p.parse with
      | drop => exact .refl
      | optionError => exact quiet_ackRequested
      | ok scheme =>
        dsimp only
        by_cases hempty : p.command.len = 0
        · rw [if_pos hempty]
          exact .refl
        · rw [if_pos ⟨not_not.mp hzip, hsourced, hpacket, hlarge, hack, hempty⟩, hparse] at h
          cases h
    · rw [if_neg hlarge, if_pos hack]
      exact .refl
  · exact .refl

theorem step_of_queued {q : Queued} (h : p.queued env = some q) : step env depth s (.received p) =
    if env.room s.allocated then
      let s := { s with allocated := s.allocated + 1, queue := s.queue ++ [q] }
      if p.hasCommand then (if p.toAllRouters then s.put .timerSet else s.doAppHandler env depth) else s
    else { s with allocated := s.allocated + 1 } := by
  change s.udpCommandHandler env depth p = _
  unfold Payload.queued at h
  split_ifs at h with hchecks
  obtain ⟨hzip, hsourced, hpacket, hlarge, hack, hempty⟩ := hchecks
  cases hparse : p.parse with
  | drop => rw [hparse] at h; cases h
  | optionError => rw [hparse] at h; cases h
  | ok scheme =>
    rw [hparse] at h
    cases h
    have hnd : p.data 0 ≠ commandClassZipNd := by
      rw [hzip]
      decide
    have hkeep : p.data 1 ≠ commandZipKeepAlive := by
      rw [hpacket]
      decide
    rw [udpCommandHandler, if_neg hnd, if_neg (not_not.mpr hzip), if_neg hsourced, if_neg hkeep, if_pos hpacket,
      zipPacket, if_neg hlarge, if_neg (not_not.mpr hack), hparse]
    dsimp only
    rw [if_neg hempty]
    by_cases hroom : env.room s.allocated = true
    · simp only [hroom, not_true_eq_false, if_false, if_true, Payload.hasCommand, decide_eq_true_eq]
    · simp only [hroom]
      rfl

/-- What a step does for the application: `do_app_handler` goes through the packets that are handed over. -/
theorem step_eq (env : Env) (depth : Nat) (s : State) (e : Event) : ∃ t allocated,
    { s with allocated := allocated }.Quiet { t with queue := s.queue } ∧
      step env depth s e = { (handed env s e).foldl (handOver env depth) t with queue := left env s e } := by
  cases e with
  | timer => exact ⟨s, s.allocated, .refl, rfl⟩
  | expired i => exact ⟨s, s.allocated, .refl, rfl⟩
  | received p =>
    cases hq : p.queued env with
    | none =>
      have hquiet := @quiet_of_not_queued env depth s p hq
      refine ⟨step env depth s (.received p), s.allocated, ⟨rfl, hquiet.2⟩, ?_⟩
      simp only [handed, left, hq, List.foldl_nil]
      rw [← hquiet.1]
    | some q =>
      simp only [step_of_queued hq, handed, left, hq]
      by_cases hroom : env.room s.allocated = true
      · by_cases hcommand : p.hasCommand = true
        · by_cases hall : p.toAllRouters = true
          · simp only [hroom, hcommand, hall, if_true]
            exact ⟨{ s with allocated := s.allocated + 1 }.put .timerSet, s.allocated + 1, .put (by tauto), rfl⟩
          · simp only [hroom, hcommand, hall, if_true]
            exact ⟨{ s with allocated := s.allocated + 1, queue := s.queue ++ [q] }, s.allocated + 1, .refl, rfl⟩
        · simp only [hroom, hcommand, if_true]
          exact ⟨{ s with allocated := s.allocated + 1 }, s.allocated + 1, .refl, rfl⟩
      · simp only [hroom]
        exact ⟨{ s with allocated := s.allocated + 1 }, s.allocated + 1, .refl, rfl⟩

end State

/-! ### The parsing -/

section Parsing

variable {data data' : Mem} {stop n opt : Nat} {scheme : Scheme}

theorem parseOptions_past (h : stop < opt) : parseOptions data stop n opt scheme = .drop := by
  cases n with
  | zero => rfl
  | succ n => rw [parseOptions, if_neg (by omega), if_neg (by omega)]

theorem parseOptions_congr (hsame : ∀ i < stop, data' i = data i)
    (hlast : ∀ o ∈ optionOffsets data stop n opt, o + 1 = stop → data o ≠ encapsulationFormatInfo) :
    parseOptions data' stop n opt scheme = parseOptions data stop n opt scheme := by
  induction n generalizing opt scheme with
  | zero => rfl
  | succ n ih =>
    unfold parseOptions
    by_cases hopt : opt < stop
    · rw [optionOffsets, if_pos hopt, List.forall_mem_cons] at hlast
      rw [if_pos hopt, if_pos hopt, hsame opt hopt]
      by_cases hlen : opt + 1 < stop
      · rw [hsame _ hlen, ih hlast.2, ih hlast.2]
        split
        · split
          · rfl
          · rename_i hlong
            -- the values are read for an option that is longer than the extension
            by_cases hvalues : opt + 3 < stop
            · rw [hsame _ (by omega), hsame _ hvalues]
            · have : 2 ≤ (data (opt + 1)).toNat := UInt8.le_iff_toNat_le.mp (UInt8.not_lt.mp hlong)
              rw [parseOptions_past (by omega), parseOptions_past (by omega)]
        · rfl
      · rw [if_neg (hlast.1 (by omega)), if_neg (hlast.1 (by omega))]
        split
        · rfl
        · rw [parseOptions_past (by omega), parseOptions_past (by omega)]
    · rw [if_neg hopt, if_neg hopt]

end Parsing

def Payload.Whole (p : Payload) : Prop :=
  7 ≤ p.len ∧ (p.hasExtension = true → 8 ≤ p.len ∧
    ∀ o ∈ optionOffsets p.data (zipHeaderSize + p.extension) (p.extension + 1) (zipHeaderSize + 1),
      o + 1 = zipHeaderSize + p.extension → p.data o ≠ encapsulationFormatInfo)

theorem Payload.Whole.parse_congr {p p' : Payload} (h : p.Whole) (hlen : p'.len = p.len)
    (hsame : ∀ i < p.len.toNat, p'.data i = p.data i) : p'.parse = p.parse := by
  obtain ⟨hheader, hoptions⟩ := h
  have hseven : 7 ≤ p.len.toNat := UInt16.le_iff_toNat_le.mp hheader
  have hext : p'.hasExtension = p.hasExtension := by
    rw [Payload.hasExtension, Payload.flags1, hsame 3 (by omega)]
    rfl
  have hpayload : p'.payloadLen = p.payloadLen := by rw [Payload.payloadLen, Payload.payloadLen, hlen]
  unfold Payload.parse
  rw [hext, hpayload]
  by_cases hextended : p.hasExtension = true
  · obtain ⟨height, hlast⟩ := hoptions hextended
    have hlength : p'.extension = p.extension := by
      rw [Payload.extension, hext, if_pos hextended, Payload.extension, if_pos hextended,
        hsame zipHeaderSize (UInt16.le_iff_toNat_le.mp height)]
    rw [if_pos hextended, if_pos hextended, hlength]
    by_cases hdrop : p.extension = 0 ∨ p.payloadLen < p.extension
    · rw [if_pos hdrop, if_pos hdrop]
    · have hsub : p.payloadLen = p.len.toNat - 7 := UInt16.toNat_sub_of_le _ _ hheader
      have hzip : zipHeaderSize = 7 := rfl
      rw [if_neg hdrop, if_neg hdrop]
      exact parseOptions_congr (fun i hi => hsame i (by omega)) hlast
  · rw [if_neg hextended, if_neg hextended]

/-! ### A run -/

def Payload.owed (p : Payload) : Option Call :=
  if p.data 0 = commandClassZip ∧ p.data 1 = commandZipPacket ∧ 7 ≤ p.len ∧ p.hasCommand ∧
      p.flags0 &&& flags0AckRes = 0 then
    match p.parse with
    | .ok _ => some ⟨p.data 4, p.data 6, p.data 5, p.command⟩
    | _ => none
  else none

/-- What else a packet has to be like to be queued. -/
structure Payload.Admitted (env : Env) (p : Payload) : Prop where
  sourced : ¬(p.toAllRouters = true ∧ ¬p.sourced = true)
  fits : p.payloadLen + env.asyncStateSize ≤ env.bufSize
  wait : p.flags0 &&& (flags0AckRes ||| flags0NackWait) = 0
  command : p.command.len ≠ 0

namespace State

def Event.owed : Event → Option Call
  | .received p => p.owed
  | _ => none

/-- A packet is read within its bounds; one that is complete is queued, and what is queued has a command and
finds room; no packet expires in the queue. -/
def Fine (env : Env) (s : State) : Event → Prop
  | .received p => p.Whole ∧ (p.owed.isSome → p.Admitted env) ∧
      ∀ q, p.queued env = some q → p.hasCommand = true ∧ env.room s.allocated = true
  | .timer => True
  | .expired i => s.queue.length ≤ i

def FineRun (env : Env) (depth : Nat) : State → List Event → Prop
  | _, [] => True
  | s, e :: events => Fine env s e ∧ FineRun env depth (step env depth s e) events

/-- The calls of `ApplicationIpCommandHandler` by `do_app_handler` in a run. -/
def calls (env : Env) (depth : Nat) : State → List Event → List Call
  | _, [] => []
  | s, e :: events => (handed env s e).map Queued.call ++ calls env depth (step env depth s e) events

variable {env : Env} {depth : Nat} {s : State} {p : Payload}

theorem owed_of_queued {q : Queued} (hwhole : p.Whole) (hcommand : p.hasCommand = true)
    (h : p.queued env = some q) : p.owed = some q.call := by
  unfold Payload.queued at h
  split_ifs at h with hchecks
  obtain ⟨hzip, -, hpacket, -, hack, -⟩ := hchecks
  have hres : p.flags0 &&& flags0AckRes = 0 := by
    have hmask : flags0AckRes = (flags0AckRes ||| flags0NackWait) &&& flags0AckRes := by decide
    rw [hmask, ← UInt8.and_assoc, hack, UInt8.zero_and]
  rw [Payload.owed, if_pos ⟨hzip, hpacket, hwhole.1, hcommand, hres⟩]
  cases hparse : p.parse with
  | drop => rw [hparse] at h; cases h
  | optionError => rw [hparse] at h; cases h
  | ok scheme =>
    rw [hparse] at h
    cases h
    rfl

theorem owed_of_not_queued (hadmitted : p.owed.isSome → p.Admitted env) (h : p.queued env = none) : p.owed = none := by
  by_contra howed
  obtain ⟨hsourced, hfits, hwait, hempty⟩ := hadmitted (Option.isSome_iff_ne_none.mpr howed)
  unfold Payload.owed at howed
  split_ifs at howed with hchecks
  · rw [Payload.queued, if_pos ⟨hchecks.1, hsourced, hchecks.2.1, by omega, hwait, hempty⟩] at h
    cases hparse : p.parse with
    | ok scheme => rw [hparse] at h; cases h
    | drop | optionError => rw [hparse] at howed; exact howed rfl
  · exact howed rfl

theorem calls_step {e : Event} (h : Fine env s e) :
    (handed env s e ++ left env s e).map Queued.call = s.queue.map Queued.call ++ e.owed.toList := by
  cases e with
  | timer => simp [handed, left, Event.owed]
  | expired i =>
    have hleft : s.queue.eraseIdx i = s.queue := List.eraseIdx_of_length_le h
    simp [handed, left, Event.owed, hleft]
  | received p =>
    obtain ⟨hwhole, hadmitted, hqueued⟩ := h
    cases hq : p.queued env with
    | none => simp [handed, left, Event.owed, hq, owed_of_not_queued hadmitted hq]
    | some q =>
      obtain ⟨hcommand, hroom⟩ := hqueued q hq
      by_cases hall : p.toAllRouters = true <;>
        simp [handed, left, Event.owed, hq, hcommand, hroom, hall, owed_of_queued hwhole hcommand hq]

theorem queue_step {e : Event} : (step env depth s e).queue = left env s e := by
  obtain ⟨t, allocated, -, hstep⟩ := step_eq env depth s e
  rw [hstep]

theorem calls_run {events : List Event} (h : FineRun env depth s events) :
    calls env depth s events ++ (run env depth s events).queue.map Queued.call =
      s.queue.map Queued.call ++ events.filterMap Event.owed := by
  induction events generalizing s with
  | nil => exact (List.append_nil _).symm
  | cons e events ih =>
    calc (handed env s e).map Queued.call ++ calls env depth (step env depth s e) events ++
          (run env depth (step env depth s e) events).queue.map Queued.call
      _ = (handed env s e).map Queued.call ++ ((left env s e).map Queued.call ++ events.filterMap Event.owed) := by
        rw [List.append_assoc, ih h.2, queue_step]
      _ = s.queue.map Queued.call ++ e.owed.toList ++ events.filterMap Event.owed := by
        rw [← List.append_assoc, ← List.map_append, calls_step h.1]
      _ = s.queue.map Queued.call ++ (e :: events).filterMap Event.owed := by
        rw [List.append_assoc, List.filterMap_cons]
        cases e.owed <;> rfl

theorem calls_append {events events' : List Event} : calls env depth s (events ++ events') =
    calls env depth s events ++ calls env depth (run env depth s events) events' := by
  induction events generalizing s with
  | nil => rfl
  | cons e events ih =>
    change (handed env s e).map Queued.call ++ calls env depth (step env depth s e) (events ++ events') = _
    rw [ih, ← List.append_assoc]
    rfl

/-- In a run whose packets are read within their bounds and queued for their commands only, the application is
called for each of the packets with a complete command, in the order of their arrival, and for no other; what
waits is handed over when the timer expires; and no byte behind a packet is looked at. -/
theorem commands_called {env : Env} {depth : Nat} {events : List Event} (h : FineRun env depth init events) :
    calls env depth init events ++ (run env depth init events).queue.map Queued.call = events.filterMap Event.owed ∧
    calls env depth init (events ++ [.timer]) = events.filterMap Event.owed ∧
    ∀ p p' : Payload, .received p ∈ events → p'.len = p.len → (∀ i < p.len.toNat, p'.data i = p.data i) →
      p'.parse = p.parse := by
  have hcalls := calls_run h
  refine ⟨hcalls, ?_, fun p p' hp hlen hsame => Payload.Whole.parse_congr ?_ hlen hsame⟩
  · rw [calls_append, ← hcalls.trans (List.nil_append _)]
    exact congrArg _ (List.append_nil _)
  · clear hcalls
    generalize init = s at h
    induction events generalizing s with
    | nil => cases hp
    | cons e events ih =>
      rcases List.mem_cons.mp hp with rfl | hrest
      · exact h.1.1
      · exact ih hrest _ h.2

def bufferedEnv : Env :=
  { sampleEnv with bufSize := 1500 }

def samplePacket (flags1 : UInt8) (options : Bytes) (toMulticast : Bool) : Payload where
  data i := ([0x23, 0x02, 0, flags1, 9, 0, 0] ++ options ++ [0x20, 0x02]).getD i 0
  len := 9 + UInt16.ofNat options.length
  ripaddr := 0
  toMulticast := toMulticast
  toAllRouters := false
  sourced := true
  receivedSecure := false

/-- A packet to a multicast address, and one with the encapsulation format in its extension. -/
def samplePackets : List Event :=
  [.received (samplePacket 0x40 [] true), .received (samplePacket 0xC0 [5, 0x84, 2, 0x80, 0] false)]

theorem commands_called_sample : calls bufferedEnv 1 init (samplePackets ++ [.timer]) =
      samplePackets.filterMap Event.owed := by
  have hfine : FineRun bufferedEnv 1 init samplePackets := by
    refine ⟨⟨⟨?_, ?_⟩, fun _ => ⟨?_, ?_, ?_, ?_⟩, fun _ _ => ⟨rfl, rfl⟩⟩,
      ⟨⟨?_, ?_⟩, fun _ => ⟨?_, ?_, ?_, ?_⟩, fun _ _ => ⟨rfl, rfl⟩⟩, trivial⟩
    all_goals decide
  exact (commands_called hfine).2.1

theorem commands_called_not : ¬ ∀ env depth events,
    calls env depth init (events ++ [.timer]) = events.filterMap Event.owed := by
  intro hall
  have hlength := congrArg List.length (hall bufferedEnv 1 [.received (samplePacket 0 [] false)])
  exact absurd hlength (by decide)

end State
end ZipGateway.Udp

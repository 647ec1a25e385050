import ZipGateway.Lib.Memory
import ZipGateway.Lib.Machine
import Mathlib.Data.List.Induction

/-!
# The Indicator command class

A SET gives the period, the cycles and the on-time of the Node Identify indicator, the external blinker
is told what follows from them, and a timer resets them when the blinking has ended.
-/

namespace ZipGateway.Indicator

def commandClassIndicator : UInt8 := 0x87
def indicatorReport : UInt8 := 0x03
def nodeIdentify : UInt8 := 0x50
def propOnOffPeriod : UInt8 := 0x03
def propOnOffCycles : UInt8 := 0x04
def propOnTime : UInt8 := 0x05
def objectCountMask : UInt8 := 0x1F

/-- `CLOCK_SECOND`: the clock ticks in a second. -/
def clockSecond : UInt32 := 1000

inductive Code where
  | handled
  | parseError
  | notSupported
deriving DecidableEq, Repr

/-- `g_on_off_period_length`, `g_on_off_num_cycles` and `g_on_time`. -/
structure Properties where
  period : UInt8
  cycles : UInt8
  onTime : UInt8
deriving DecidableEq, Repr

structure Blink where
  onTimeMs : UInt32
  offTimeMs : UInt32
  cycles : UInt32
deriving DecidableEq, Repr

/-- `timer` is the number of ticks that `g_indicator_timer` was set to, while it runs. -/
structure State where
  props : Properties
  timer : Option UInt32
  blinks : List Blink

def Properties.zero : Properties := ⟨0, 0, 0⟩

def State.init : State := ⟨.zero, none, []⟩

namespace Properties

variable (p : Properties)

def onTimeMs : UInt32 :=
  if p.onTime = 0 then p.period.toUInt32 * 100 / 2 else p.onTime.toUInt32 * 100

def offTimeMs : UInt32 := p.period.toUInt32 * 100 - p.onTimeMs

def blinks : Bool := 0 < p.period ∧ 0 < p.cycles

def ends : Bool := p.blinks ∧ p.cycles ≠ 0xFF

def totalDurationMs : UInt32 :=
  if p.ends then p.period.toUInt32 * p.cycles.toUInt32 * 100 else 0

def blink : Blink :=
  if p.blinks then ⟨p.onTimeMs, p.offTimeMs, if p.cycles ≠ 0xFF then p.cycles.toUInt32 else 0⟩
  else ⟨0, 0, 0⟩

def ofIndicator0Value (value : UInt8) : Properties :=
  if value = 0 then zero else ⟨0xFF, 0xFF, 0xFF⟩

def indicator0Value : UInt8 := if p.blinks then 0xFF else 0

end Properties

section Handlers

variable (s : State) (frame : Bytes)

/-- The product of 32 bits wraps for durations from 4294968 ms on. -/
def updateIndicator : State :=
  { s with
    timer := if s.props.totalDurationMs ≠ 0 then
        some (s.props.totalDurationMs * clockSecond / 1000) else none
    blinks := s.blinks ++ [s.props.blink] }

def setV1 (value : UInt8) : Code × State :=
  if value < 0x64 ∨ value = 0xFF then
    (.handled, updateIndicator { s with props := .ofIndicator0Value value })
  else (.parseError, s)

structure Object where
  indicatorId : UInt8
  propertyId : UInt8
  value : UInt8
deriving DecidableEq, Repr

def objectCount : Nat := (frame.getD 3 0 &&& objectCountMask).toNat

def objects : List Object :=
  (List.range (objectCount frame)).map fun i =>
    ⟨frame.getD (4 + 3 * i) 0, frame.getD (5 + 3 * i) 0, frame.getD (6 + 3 * i) 0⟩

/-- The three values that were received, and `indicator_object_error`. -/
structure Received where
  period : Option UInt8
  cycles : Option UInt8
  onTime : Option UInt8
  error : Bool

def Received.take (r : Received) (o : Object) : Received :=
  if o.indicatorId = nodeIdentify then
    if o.propertyId = propOnOffPeriod then { r with period := some o.value }
    else if o.propertyId = propOnOffCycles then { r with cycles := some o.value }
    else if o.propertyId = propOnTime then { r with onTime := some o.value }
    else { r with error := true }
  else { r with error := true }

def received (objs : List Object) : Received :=
  objs.foldl Received.take ⟨none, none, none, false⟩

def setV3 : Code × State :=
  if frame.length < 4 then (.parseError, s)
  else if frame.length < 4 + 3 * objectCount frame then (.parseError, s)
  else if objectCount frame = 0 then setV1 s (frame.getD 2 0)
  else
    let r := received (objects frame)
    match r.period, r.cycles with
    | some period, some cycles =>
      let onTime := r.onTime.getD 0
      let tooLong := onTime > period
      -- an on-time longer than the period is ignored
      let props : Properties := ⟨period, cycles, if tooLong then 0 else onTime⟩
      (if r.error ∨ tooLong then .parseError else .handled, updateIndicator { s with props := props })
    | _, _ => (.parseError, s)

def reportV3 (id : UInt8) : Bytes :=
  if id = nodeIdentify then
    [commandClassIndicator, indicatorReport, s.props.indicator0Value, 3,
      nodeIdentify, propOnOffPeriod, s.props.period, nodeIdentify, propOnOffCycles, s.props.cycles,
      nodeIdentify, propOnTime, s.props.onTime]
  else [commandClassIndicator, indicatorReport, s.props.indicator0Value, 1, 0, 0, 0]

/-- `IndicatorHandler` on a SET. -/
def handleSet : Code × State :=
  if frame.length < 2 then (.notSupported, s)
  else if frame.length = 3 then setV1 s (frame.getD 2 0)
  else setV3 s frame

/-- `IndicatorHandler` on a GET, and the report that is sent. -/
def handleGet (multicast : Bool) : Code × Option Bytes :=
  if frame.length < 2 then (.notSupported, none)
  else if multicast then (.handled, none)
  else if frame.length = 2 then
    (.handled, some [commandClassIndicator, indicatorReport, s.props.indicator0Value])
  else (.handled, some (reportV3 s (frame.getD 2 0)))

end Handlers

inductive Event where
  | set (frame : Bytes)
  | get (frame : Bytes) (multicast : Bool)
  | timeout
deriving DecidableEq

def step (s : State) : Event → State
  | .set frame => (handleSet s frame).2
  | .get _ _ => s
  | .timeout => if s.timer.isSome then { s with props := .zero, timer := none } else s

def run (events : List Event) : State := Machine.run step .init events

variable {events : List Event}

section Effects

def lastGiven (objs : List Object) (propertyId : UInt8) : Option UInt8 :=
  ((objs.filter fun o => o.indicatorId = nodeIdentify ∧ o.propertyId = propertyId).getLast?).map Object.value

/-- The properties a SET asks for: of a valid value, or the last given if there are both a period and cycles,
with an on-time of 0 if it is not given or too long. -/
def effect (frame : Bytes) : Option Properties :=
  if frame.length = 3 ∨ 4 ≤ frame.length ∧ objectCount frame = 0 then
    if frame.getD 2 0 < 0x64 ∨ frame.getD 2 0 = 0xFF then
      some (.ofIndicator0Value (frame.getD 2 0))
    else none
  else if 4 ≤ frame.length ∧ 4 + 3 * objectCount frame ≤ frame.length then
    match lastGiven (objects frame) propOnOffPeriod, lastGiven (objects frame) propOnOffCycles with
    | some period, some cycles =>
      let onTime := (lastGiven (objects frame) propOnTime).getD 0
      some ⟨period, cycles, if onTime > period then 0 else onTime⟩
    | _, _ => none
  else none

variable {s : State} {frame : Bytes} {p : Properties}

theorem lastGiven_append (objs : List Object) (o : Object) (propertyId : UInt8) : lastGiven (objs ++ [o]) propertyId =
      if o.indicatorId = nodeIdentify ∧ o.propertyId = propertyId then some o.value
      else lastGiven objs propertyId := by
  unfold lastGiven
  rw [List.filter_append]
  by_cases h : o.indicatorId = nodeIdentify ∧ o.propertyId = propertyId
  · rw [List.filter_cons_of_pos (by simpa using h), List.filter_nil, List.getLast?_concat, if_pos h]
    rfl
  · rw [List.filter_cons_of_neg (by simpa using h), List.filter_nil, List.append_nil, if_neg h]

theorem received_eq (objs : List Object) : (received objs).period = lastGiven objs propOnOffPeriod ∧
      (received objs).cycles = lastGiven objs propOnOffCycles ∧
      (received objs).onTime = lastGiven objs propOnTime := by
  induction objs using List.reverseRecOn with
  | nil => exact ⟨rfl, rfl, rfl⟩
  | append_singleton objs o ih =>
    obtain ⟨hperiod, hcycles, honTime⟩ := ih
    have hstep : received (objs ++ [o]) = (received objs).take o := by
      simp [received, List.foldl_append]
    rw [hstep, lastGiven_append, lastGiven_append, lastGiven_append]
    unfold Received.take
    by_cases hid : o.indicatorId = nodeIdentify
    · by_cases hp : o.propertyId = propOnOffPeriod
      · simp [hid, hp, hcycles, honTime, propOnOffPeriod, propOnOffCycles, propOnTime]
      · by_cases hc : o.propertyId = propOnOffCycles
        · simp [hid, hc, hperiod, honTime, propOnOffPeriod, propOnOffCycles, propOnTime]
        · by_cases ht : o.propertyId = propOnTime
          · simp [hid, ht, hperiod, hcycles, propOnOffPeriod, propOnOffCycles, propOnTime]
          · simp [hid, hp, hc, ht, hperiod, hcycles, honTime]
    · simp [hid, hperiod, hcycles, honTime]

theorem handleSet_eq : (handleSet s frame).2 =
    match effect frame with
    | some p => updateIndicator { s with props := p }
    | none => s := by
  obtain ⟨hperiod, hcycles, honTime⟩ := received_eq (objects frame)
  have hvalue : (setV1 s (frame.getD 2 0)).2 =
      match (if frame.getD 2 0 < 0x64 ∨ frame.getD 2 0 = 0xFF then
          some (Properties.ofIndicator0Value (frame.getD 2 0)) else none) with
      | some p => updateIndicator { s with props := p }
      | none => s := by
    unfold setV1
    split <;> rfl
  unfold handleSet effect
  by_cases hthree : frame.length = 3
  · rw [if_neg (by omega), if_pos hthree, if_pos (.inl hthree)]
    exact hvalue
  by_cases hfour : frame.length < 4
  · have hnone : ¬ (frame.length = 3 ∨ 4 ≤ frame.length ∧ objectCount frame = 0) := by omega
    have hcut : ¬ (4 ≤ frame.length ∧ 4 + 3 * objectCount frame ≤ frame.length) := by omega
    rw [if_neg hnone, if_neg hcut, if_neg hthree, setV3, if_pos hfour]
    split <;> rfl
  rw [if_neg (by omega), if_neg hthree, setV3, if_neg hfour]
  by_cases hcut : frame.length < 4 + 3 * objectCount frame
  · have hcount : objectCount frame ≠ 0 := by omega
    rw [if_pos hcut, if_neg (by omega), if_neg (by omega)]
  rw [if_neg hcut]
  by_cases hcount : objectCount frame = 0
  · rw [if_pos hcount, if_pos (.inr ⟨by omega, hcount⟩)]
    exact hvalue
  · rw [if_neg hcount, if_neg (by omega), if_pos ⟨by omega, by omega⟩]
    simp only [hperiod, hcycles, honTime]
    split <;> rfl

theorem effect_onTime_le (h : effect frame = some p) : p.onTime ≤ p.period := by
  unfold effect at h
  split_ifs at h with hvalue
  · cases h
    unfold Properties.ofIndicator0Value
    split <;> decide
  · split at h
    · cases h
      dsimp only
      split
      · exact UInt8.zero_le
      · rename_i hle
        exact UInt8.not_lt.mp hle
    · cases h

end Effects

section Durations

variable {p : Properties}

theorem toNat_period (p : Properties) : (p.period.toUInt32 * 100).toNat = p.period.toNat * 100 := by
  have := p.period.toNat_lt
  rw [UInt32.toNat_mul, UInt8.toNat_toUInt32]
  exact Nat.mod_eq_of_lt (by simp only [UInt32.reduceToNat]; omega)

theorem toNat_onTimeMs (p : Properties) : p.onTimeMs.toNat =
    if p.onTime = 0 then p.period.toNat * 100 / 2 else p.onTime.toNat * 100 := by
  unfold Properties.onTimeMs
  split
  · rw [UInt32.toNat_div, toNat_period]
    rfl
  · have := p.onTime.toNat_lt
    rw [UInt32.toNat_mul, UInt8.toNat_toUInt32]
    exact Nat.mod_eq_of_lt (by simp only [UInt32.reduceToNat]; omega)

/-- The blinker is on and off for the period together: the subtraction does not wrap. -/
theorem toNat_offTimeMs (h : p.onTime ≤ p.period) : p.onTimeMs.toNat + p.offTimeMs.toNat = p.period.toNat * 100 := by
  have hle : p.onTimeMs.toNat ≤ (p.period.toUInt32 * 100).toNat := by
    have := UInt8.le_iff_toNat_le.mp h
    rw [toNat_onTimeMs, toNat_period]
    split <;> omega
  rw [Properties.offTimeMs, UInt32.toNat_sub_of_le _ _ (UInt32.le_iff_toNat_le.mpr hle),
    toNat_period, Nat.add_sub_cancel' (toNat_period p ▸ hle)]

theorem toNat_totalDurationMs (h : p.ends = true) :
    p.totalDurationMs.toNat = p.period.toNat * p.cycles.toNat * 100 := by
  have hle : p.period.toNat * p.cycles.toNat ≤ 255 * 255 :=
    Nat.mul_le_mul (Nat.le_of_lt_succ p.period.toNat_lt) (Nat.le_of_lt_succ p.cycles.toNat_lt)
  have hcycles : (p.period.toUInt32 * p.cycles.toUInt32).toNat = p.period.toNat * p.cycles.toNat := by
    rw [UInt32.toNat_mul, UInt8.toNat_toUInt32, UInt8.toNat_toUInt32]
    exact Nat.mod_eq_of_lt (by omega)
  rw [Properties.totalDurationMs, if_pos h, UInt32.toNat_mul, hcycles]
  exact Nat.mod_eq_of_lt (by simp only [UInt32.reduceToNat]; omega)

theorem toNat_timer (h : p.ends = true) (hfits : p.period.toNat * p.cycles.toNat * 100 ≤ 4294967) :
    (p.totalDurationMs * clockSecond / 1000).toNat = p.period.toNat * p.cycles.toNat * 100 := by
  have hticks : (p.totalDurationMs * clockSecond).toNat = p.period.toNat * p.cycles.toNat * 100 * 1000 := by
    rw [UInt32.toNat_mul, toNat_totalDurationMs h]
    exact Nat.mod_eq_of_lt (by simp only [clockSecond, UInt32.reduceToNat]; omega)
  rw [UInt32.toNat_div, hticks]
  exact Nat.mul_div_cancel _ (by decide)

theorem totalDurationMs_ne_zero : p.totalDurationMs ≠ 0 ↔ p.ends = true := by
  constructor
  · intro h
    by_contra hends
    exact h (if_neg hends)
  · intro h hzero
    have htotal := toNat_totalDurationMs h
    rw [hzero] at htotal
    simp only [Properties.ends, Properties.blinks, decide_eq_true_eq, Bool.decide_and, Bool.and_eq_true] at h
    have hperiod := UInt8.lt_iff_toNat_lt.mp h.1.1
    have hcycles := UInt8.lt_iff_toNat_lt.mp h.1.2
    have := Nat.mul_pos hperiod hcycles
    simp only [UInt32.reduceToNat] at htotal
    omega

end Durations

section Runs

variable {p : Properties}

def Exact (b : Blink) : Prop :=
  b = ⟨0, 0, 0⟩ ∨ ∃ p : Properties, b.onTimeMs.toNat + b.offTimeMs.toNat = p.period.toNat * 100 ∧
    b.onTimeMs.toNat = if p.onTime = 0 then p.period.toNat * 100 / 2 else p.onTime.toNat * 100

structure LastSet (events after : List Event) (p : Properties) : Prop where
  split : ∃ before frame, events = before ++ .set frame :: after ∧ effect frame = some p
  last : ∀ frame, .set frame ∈ after → effect frame = none

/-- What the run has to show: nothing before the first SET that asks for something, and then what the
last one asked for, until its timer has expired. -/
def Shows (events : List Event) (shown : Properties) : Prop :=
  (shown = .zero ∧ ∀ frame, .set frame ∈ events → effect frame = none) ∨ ∃ after p, LastSet events after p ∧
      shown = if p.ends ∧ Event.timeout ∈ after then .zero else p

structure Tracks (events : List Event) (s : State) : Prop where
  onTime : s.props.onTime ≤ s.props.period
  blinks : ∀ b ∈ s.blinks, Exact b
  timer : ∀ d ∈ s.timer, s.props.ends = true ∧ d = s.props.totalDurationMs * clockSecond / 1000
  shows : (s.props = .zero ∧ s.timer = none ∧ ∀ frame, .set frame ∈ events → effect frame = none) ∨
    ∃ after p, LastSet events after p ∧
      if p.ends ∧ Event.timeout ∈ after then s.props = .zero ∧ s.timer = none
      else s.props = p ∧ (s.timer.isSome ↔ p.ends)

theorem exact_blink (h : p.onTime ≤ p.period) : Exact p.blink := by
  unfold Properties.blink
  split
  · exact .inr ⟨p, toNat_offTimeMs h, toNat_onTimeMs p⟩
  · exact .inl rfl

theorem LastSet.concat {events after : List Event} (h : LastSet events after p) {e : Event}
    (he : ∀ frame, e = .set frame → effect frame = none) :
    LastSet (events ++ [e]) (after ++ [e]) p where
  split := by
    obtain ⟨before, frame, rfl, heffect⟩ := h.split
    exact ⟨before, frame, by simp, heffect⟩
  last frame hmem := by
    rcases List.mem_append.mp hmem with hmem | hmem
    · exact h.last frame hmem
    · exact he frame (List.mem_singleton.mp hmem).symm

theorem Tracks.quiet {s : State} (h : Tracks events s) {e : Event}
    (he : ∀ frame, e = .set frame → effect frame = none) (hne : e ≠ .timeout) :
    Tracks (events ++ [e]) s where
  onTime := h.onTime
  blinks := h.blinks
  timer := h.timer
  shows := by
    rcases h.shows with ⟨hzero, hnone, hall⟩ | ⟨after, p, hlast, hshown⟩
    · refine .inl ⟨hzero, hnone, fun frame hmem => ?_⟩
      rcases List.mem_append.mp hmem with hmem | hmem
      · exact hall frame hmem
      · exact he frame (List.mem_singleton.mp hmem).symm
    · refine .inr ⟨after ++ [e], p, hlast.concat he, ?_⟩
      have hmem : Event.timeout ∈ after ++ [e] ↔ Event.timeout ∈ after := by simp [hne.symm]
      simpa only [hmem] using hshown

theorem Tracks.set {s : State} (h : Tracks events s) {frame : Bytes} (heffect : effect frame = some p) :
    Tracks (events ++ [.set frame]) (updateIndicator { s with props := p }) where
  onTime := effect_onTime_le heffect
  blinks b hb := by
    rcases List.mem_append.mp hb with hb | hb
    · exact h.blinks b hb
    · exact List.mem_singleton.mp hb ▸ exact_blink (effect_onTime_le heffect)
  timer d hd := by
    simp only [updateIndicator] at hd ⊢
    split_ifs at hd with htotal
    · cases hd
      exact ⟨totalDurationMs_ne_zero.mp htotal, rfl⟩
    · cases hd
  shows := by
    refine .inr ⟨[], p, ⟨⟨events, frame, rfl, heffect⟩, by simp⟩, ?_⟩
    rw [if_neg (by simp)]
    refine ⟨rfl, ?_⟩
    rw [← totalDurationMs_ne_zero, updateIndicator]
    by_cases htotal : p.totalDurationMs = 0 <;> simp [htotal]

theorem Tracks.expire {s : State} (h : Tracks events s) : Tracks (events ++ [.timeout]) (step s .timeout) := by
  have hquiet : ∀ frame, Event.timeout = .set frame → effect frame = none := fun _ h => by cases h
  unfold step
  by_cases hrunning : s.timer.isSome
  · rw [if_pos hrunning]
    refine ⟨UInt8.zero_le, h.blinks, fun d hd => (by cases hd), ?_⟩
    rcases h.shows with ⟨-, hnone, -⟩ | ⟨after, p, hlast, hshown⟩
    · simp [hnone] at hrunning
    · refine .inr ⟨after ++ [.timeout], p, hlast.concat hquiet, ?_⟩
      have hends : p.ends = true := by
        by_contra hends
        rw [if_neg fun hboth => hends hboth.1] at hshown
        exact hends (hshown.2.mp hrunning)
      rw [if_pos ⟨hends, by simp⟩]
      exact ⟨rfl, rfl⟩
  · rw [if_neg hrunning]
    refine ⟨h.onTime, h.blinks, h.timer, ?_⟩
    rcases h.shows with ⟨hzero, hnone, hall⟩ | ⟨after, p, hlast, hshown⟩
    · refine .inl ⟨hzero, hnone, fun frame hmem => ?_⟩
      simp only [List.mem_append, List.mem_singleton, reduceCtorEq, or_false] at hmem
      exact hall frame hmem
    · refine .inr ⟨after ++ [.timeout], p, hlast.concat hquiet, ?_⟩
      by_cases hends : p.ends = true
      · have hexpired : Event.timeout ∈ after := by
          by_contra hnot
          rw [if_neg fun hboth => hnot hboth.2] at hshown
          exact hrunning (hshown.2.mpr hends)
        rw [if_pos ⟨hends, by simp⟩]
        rwa [if_pos ⟨hends, hexpired⟩] at hshown
      · rw [if_neg fun hboth => hends hboth.1] at hshown ⊢
        exact hshown

theorem tracks_run (events : List Event) : Tracks events (run events) := by
  induction events using List.reverseRecOn with
  | nil => exact ⟨UInt8.le_refl 0, by simp [run, State.init], fun d hd => (by cases hd),
      .inl ⟨rfl, rfl, by simp⟩⟩
  | append_singleton events e ih =>
    have hstep : run (events ++ [e]) = step (run events) e := by
      rw [run, Machine.run_append]
      rfl
    rw [hstep]
    cases e with
    | set frame =>
      change Tracks _ (handleSet (run events) frame).2
      rw [handleSet_eq]
      cases heffect : effect frame with
      | none => exact ih.quiet (fun _ heq => by cases heq; exact heffect) (by simp)
      | some p => exact ih.set heffect
    | get frame multicast => exact ih.quiet (by simp) (by simp)
    | timeout => exact ih.expire

theorem Tracks.toShows {s : State} (h : Tracks events s) : Shows events s.props := by
  rcases h.shows with ⟨hzero, -, hall⟩ | ⟨after, p, hlast, hshown⟩
  · exact .inl ⟨hzero, hall⟩
  · refine .inr ⟨after, p, hlast, ?_⟩
    split_ifs at hshown ⊢
    · exact hshown.1
    · exact hshown.1

end Runs

/-- The indicator over every sequence of SETs, GETs and expirations of its timer. -/
structure Faithful (events : List Event) : Prop where
  onTime : (run events).props.onTime ≤ (run events).props.period
  blinks : ∀ b ∈ (run events).blinks, Exact b
  duration : (run events).props.ends = true → (run events).props.totalDurationMs.toNat =
    (run events).props.period.toNat * (run events).props.cycles.toNat * 100
  timer : ∀ d ∈ (run events).timer, (run events).props.period.toNat * (run events).props.cycles.toNat * 100 ≤ 4294967 →
      d.toNat = (run events).props.period.toNat * (run events).props.cycles.toNat * 100
  sets : ∀ frame, run (events ++ [.set frame]) =
    match effect frame with
    | some p => updateIndicator { run events with props := p }
    | none => run events
  reports : ∃ p, Shows events p ∧ ∀ frame report,
    (handleGet (run events) frame false).2 = some report → frame.length ≠ 2 → frame.getD 2 0 = nodeIdentify → report =
        [commandClassIndicator, indicatorReport, p.indicator0Value, 3, nodeIdentify,
          propOnOffPeriod, p.period, nodeIdentify, propOnOffCycles, p.cycles, nodeIdentify,
          propOnTime, p.onTime]

end ZipGateway.Indicator

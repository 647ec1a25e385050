import ZipGateway.Udp.Commands

/-!
# Which commands are accepted, and which classes are told

`ZW_command_handler_run` selects a handler for a frame, and `ZW_command_handler_get_nif` lists the classes of
the handlers for a scheme. The first takes the code for an unknown class for the one of a valid frame. It
looks for handlers by the first byte of the frame only, and all those of a class have to agree; the second
goes by each handler, and tells a class of two bytes by its last one.
-/

namespace ZipGateway.Udp

def commandClassZwaveplusInfo : UInt16 := 0x5E

section Selection

def Passes (env : Env) (c : Connection) (f : Frame) (fn : Handler) : Prop :=
  (supportsFrameAtSecurityLevel env fn c.scheme ∨ exceptionCcSecurityLevelCheck env c.scheme f) ∧
    fn.cmdClass ∉ env.disabled

/-- The frame of a Supervision that `ApplicationCommandHandlerZIP` gets instead. -/
def isWakeUpReport (f : Frame) (supervisionUnwrapped : Bool) : Bool :=
  supervisionUnwrapped ∧ f.cmdClass = commandClassWakeUp ∧ (f.cmd = wakeUpNotification ∨ f.cmd = wakeUpIntervalReport)

def selected (env : Env) (c : Connection) (f : Frame) (supervisionUnwrapped : Bool) : Option Handler :=
  if isWakeUpReport f supervisionUnwrapped then none
  else if validationCode (env.validate f) = none then
    match checkHandlers env c f env.handlers none with
    | .ok checked => checked
    | .error _ => none
  else none

variable {env : Env} {c : Connection} {f : Frame} {handlers : List Handler}

theorem checkHandlers_eq_ok_iff {checked : Option Handler} :
    (∃ fn, checkHandlers env c f handlers checked = .ok (some fn)) ↔
      (checked.isSome ∨ ∃ fn ∈ handlers, fn.cmdClass = f.cmdClass.toUInt16) ∧
        ∀ fn ∈ handlers, fn.cmdClass = f.cmdClass.toUInt16 → Passes env c f fn := by
  induction handlers generalizing checked with
  | nil => cases checked <;> simp [checkHandlers]
  | cons fn handlers ih =>
    rw [List.forall_mem_cons, List.exists_mem_cons_iff]
    unfold checkHandlers
    split_ifs with hclass hlevel hdisabled
    · exact ⟨fun h => absurd h (by rintro ⟨_, ⟨⟩⟩), fun h => absurd hdisabled (h.2.1 hclass).2⟩
    · rw [ih]
      have hpasses : Passes env c f fn := ⟨hlevel, hdisabled⟩
      simp only [Option.isSome_some, true_or, true_and, hclass, or_true, hpasses, imp_self]
    · exact ⟨fun h => absurd h (by rintro ⟨_, ⟨⟩⟩), fun h => absurd (h.2.1 hclass).1 hlevel⟩
    · rw [ih]
      simp only [hclass, false_or, false_implies, true_and]

theorem checkHandlers_mem {checked : Option Handler} {fn : Handler}
    (h : checkHandlers env c f handlers checked = .ok (some fn)) :
    checked = some fn ∨ fn ∈ handlers ∧ fn.cmdClass = f.cmdClass.toUInt16 := by
  induction handlers generalizing checked with
  | nil =>
    cases h
    exact .inl rfl
  | cons fn' handlers ih =>
    unfold checkHandlers at h
    split_ifs at h with hclass hlevel hdisabled
    · rcases ih h with heq | hmem
      · cases heq
        exact .inr ⟨List.mem_cons_self, hclass⟩
      · exact .inr ⟨List.mem_cons_of_mem _ hmem.1, hmem.2⟩
    · exact (ih h).imp_right fun hmem => ⟨List.mem_cons_of_mem _ hmem.1, hmem.2⟩

/-- `ZW_command_handler_run` calls the selected handler, and no other. -/
theorem commandHandlerRun_eq {nested : Nested} {s : State} {supervisionUnwrapped : Bool} :
    match selected env c f supervisionUnwrapped with
    | some fn => nested.commandHandlerRun env s c f supervisionUnwrapped = nested.execute env s c fn f
    | none => ∃ code log, nested.commandHandlerRun env s c f supervisionUnwrapped =
        (code, { s with log := log ++ s.log }, c) ∧ ∀ c' fn f', .executed c' fn f' ∉ log := by
  unfold selected isWakeUpReport Nested.commandHandlerRun
  by_cases hwake : supervisionUnwrapped ∧ f.cmdClass = commandClassWakeUp ∧
      (f.cmd = wakeUpNotification ∨ f.cmd = wakeUpIntervalReport)
  · rw [if_pos (decide_eq_true hwake), if_pos hwake]
    exact ⟨_, [.wakeUpReported c f], rfl, by simp⟩
  · rw [if_neg (by simpa using hwake), if_neg hwake]
    cases hcode : validationCode (env.validate f) with
    | none =>
      rw [if_pos rfl]
      cases checkHandlers env c f env.handlers none with
      | error code => exact ⟨code, [], rfl, by simp⟩
      | ok checked =>
        cases checked with
        | none => exact ⟨_, [], rfl, by simp⟩
        | some fn => rfl
    | some code =>
      rw [if_neg (Option.some_ne_none code)]
      cases checkHandlers env c f env.handlers none with
      | error code => exact ⟨code, [], rfl, by simp⟩
      | ok checked => cases checked <;> exact ⟨_, [], rfl, by simp⟩

/-- A handler is called for a valid frame only, of its class, with the right to it. -/
def Guarded (env : Env) (c : Connection) (f : Frame) (supervisionUnwrapped : Bool) : Prop :=
  ∀ fn, selected env c f supervisionUnwrapped = some fn → env.validate f = .parseOk ∧
    fn ∈ env.handlers ∧ fn.cmdClass = f.cmdClass.toUInt16 ∧ Passes env c f fn

/-- The class is registered and all its handlers pass. -/
def Registered (env : Env) (c : Connection) (f : Frame) : Prop :=
  (∃ fn ∈ env.handlers, fn.cmdClass = f.cmdClass.toUInt16) ∧
    ∀ fn ∈ env.handlers, fn.cmdClass = f.cmdClass.toUInt16 → Passes env c f fn

theorem guarded_iff {supervisionUnwrapped : Bool} : Guarded env c f supervisionUnwrapped ↔
    (env.validate f = .unknownClass → isWakeUpReport f supervisionUnwrapped = false → ¬Registered env c f) := by
  have hok : (∃ fn, checkHandlers env c f env.handlers none = .ok (some fn)) ↔ Registered env c f := by
    rw [checkHandlers_eq_ok_iff, Registered, Option.isSome_none, Bool.false_eq_true, false_or]
  constructor
  · intro h hunknown hwake hregistered
    obtain ⟨fn, hfn⟩ := hok.mpr hregistered
    have hselected : selected env c f supervisionUnwrapped = some fn := by
      rw [selected, hwake, hunknown, hfn]
      rfl
    have hvalid := (h fn hselected).1
    rw [hunknown] at hvalid
    cases hvalid
  · intro h fn hselected
    unfold selected at hselected
    split_ifs at hselected with hwake hcode
    split at hselected
    · rename_i checked hchecked
      rw [hselected] at hchecked
      have hregistered := hok.mp ⟨fn, hchecked⟩
      have hmem := (checkHandlers_mem hchecked).resolve_left (by simp)
      refine ⟨?_, hmem.1, hmem.2, hregistered.2 fn hmem.1 hmem.2⟩
      cases hvalidate : env.validate f with
      | parseOk => rfl
      | unknownClass => exact absurd hregistered (h hvalidate (Bool.eq_false_iff.mpr hwake))
      | unknownCommand | unknownParameter | parseFail =>
        rw [hvalidate] at hcode
        cases hcode
    · cases hselected

end Selection

section Nif

def nifBytes (env : Env) (scheme : Scheme) (fn : Handler) : Bytes :=
  if fn.cmdClass ∈ env.disabled then []
  else if supportsFrameAtSecurityLevel env fn scheme then
    if scheme ≠ .noScheme ∧ supportsFrameAtSecurityLevel env fn .noScheme then []
    else if fn.cmdClass = commandClassZwaveplusInfo then []
    else if fn.cmdClass &&& 0xF0 = 0xF0 then [(fn.cmdClass >>> 8).toUInt8, fn.cmdClass.toUInt8]
    else [fn.cmdClass.toUInt8]
  else []

def nifFrom (env : Env) (scheme : Scheme) : List Handler → Nat → Bytes
  | [], _ => []
  | fn :: handlers, room =>
    if room < (nifBytes env scheme fn).length then []
    else nifBytes env scheme fn ++ nifFrom env scheme handlers (room - (nifBytes env scheme fn).length)

def commandHandlerGetNif (env : Env) (scheme : Scheme) (maxLen : UInt8) : Bytes :=
  nifFrom env scheme env.handlers maxLen.toNat

def classBytes (cls : UInt16) : Bytes :=
  if cls < 0x100 then [cls.toUInt8] else [(cls >>> 8).toUInt8, cls.toUInt8]

def Accepts (env : Env) (scheme : Scheme) (cls : UInt16) : Prop :=
  ∃ (c : Connection) (f : Frame), c.scheme = scheme ∧ f.cmdClass.toUInt16 = cls ∧ f.isManufacturerGet = false ∧
    ∃ fn, checkHandlers env c f env.handlers none = .ok (some fn)

/-- The class is told, in the right way, if frames of it are accepted under the scheme and not without one. -/
def Told (env : Env) (scheme : Scheme) (cls : UInt16) : Prop :=
  (∀ fn ∈ env.handlers, fn.cmdClass = cls → nifBytes env scheme fn = [] ∨ nifBytes env scheme fn = classBytes cls) ∧
  ((∃ fn ∈ env.handlers, fn.cmdClass = cls ∧ nifBytes env scheme fn ≠ []) ↔
    Accepts env scheme cls ∧ ¬(scheme ≠ .noScheme ∧ Accepts env .noScheme cls) ∧ cls ≠ commandClassZwaveplusInfo)

/-- A class is added for the handler. -/
structure Listed (env : Env) (scheme : Scheme) (fn : Handler) : Prop where
  enabled : fn.cmdClass ∉ env.disabled
  level : supportsFrameAtSecurityLevel env fn scheme = true
  secure : ¬(scheme ≠ .noScheme ∧ supportsFrameAtSecurityLevel env fn .noScheme = true)
  other : fn.cmdClass ≠ commandClassZwaveplusInfo

variable {env : Env} {scheme : Scheme} {cls : UInt16} {fn : Handler}

theorem nifFrom_eq_iff {handlers : List Handler} {room : Nat} :
    nifFrom env scheme handlers room = handlers.flatMap (nifBytes env scheme) ↔
      (handlers.flatMap (nifBytes env scheme)).length ≤ room := by
  induction handlers generalizing room with
  | nil => exact ⟨fun _ => Nat.zero_le _, fun _ => rfl⟩
  | cons fn handlers ih =>
    rw [nifFrom, List.flatMap_cons, List.length_append]
    split
    · rename_i hfull
      constructor
      · intro h
        have hlength := congrArg List.length h
        rw [List.length_append, List.length_nil] at hlength
        omega
      · intro h
        omega
    · rw [List.append_cancel_left_eq, ih]
      omega

theorem accepts_iff : Accepts env scheme cls ↔ cls < 0x100 ∧ (∃ fn ∈ env.handlers, fn.cmdClass = cls) ∧
    ∀ fn ∈ env.handlers, fn.cmdClass = cls → supportsFrameAtSecurityLevel env fn scheme ∧ cls ∉ env.disabled := by
  constructor
  · rintro ⟨c, f, rfl, rfl, hother, hok⟩
    rw [checkHandlers_eq_ok_iff, Option.isSome_none, Bool.false_eq_true, false_or] at hok
    refine ⟨UInt16.lt_iff_toNat_lt.mpr f.cmdClass.toNat_lt, hok.1, fun fn hfn hclass => ?_⟩
    obtain ⟨hlevel, hdisabled⟩ := hok.2 fn hfn hclass
    rw [exceptionCcSecurityLevelCheck, hother] at hlevel
    rw [hclass] at hdisabled
    exact ⟨hlevel.resolve_right (by simp), hdisabled⟩
  · rintro ⟨hbyte, hfn, hall⟩
    have hcls : cls.toUInt8.toUInt16 = cls := by
      apply UInt16.toNat_inj.mp
      rw [UInt8.toNat_toUInt16, UInt16.toNat_toUInt8]
      exact Nat.mod_eq_of_lt (UInt16.lt_iff_toNat_lt.mp hbyte)
    let f : Frame := ⟨fun i => if i = 0 then cls.toUInt8 else 0, 2⟩
    have hother : f.isManufacturerGet = false := decide_eq_false fun h =>
      absurd (show (0 : UInt8) = manufacturerSpecificGet from h.2) (by decide)
    refine ⟨⟨scheme, 0, false, 0, false, 0, 0, 0⟩, f, rfl, hcls, hother, ?_⟩
    rw [checkHandlers_eq_ok_iff, show f.cmdClass.toUInt16 = cls from hcls]
    refine ⟨.inr hfn, fun fn hfn hclass => ?_⟩
    obtain ⟨hlevel, hdisabled⟩ := hall fn hfn hclass
    exact ⟨.inl hlevel, hclass ▸ hdisabled⟩

theorem nifBytes_of_listed (h : Listed env scheme fn) : nifBytes env scheme fn =
    if fn.cmdClass &&& 0xF0 = 0xF0 then [(fn.cmdClass >>> 8).toUInt8, fn.cmdClass.toUInt8]
    else [fn.cmdClass.toUInt8] := by
  obtain ⟨henabled, hlevel, hsecure, hplus⟩ := h
  rw [nifBytes, if_neg henabled, if_pos hlevel, if_neg hsecure, if_neg hplus]

theorem nifBytes_ne_nil_iff : nifBytes env scheme fn ≠ [] ↔ Listed env scheme fn := by
  constructor
  · intro h
    unfold nifBytes at h
    split_ifs at h with henabled hlevel hsecure hplus hextended
    all_goals first | exact absurd rfl h | exact ⟨henabled, hlevel, hsecure, hplus⟩
  · intro h
    rw [nifBytes_of_listed h]
    split <;> exact List.cons_ne_nil _ _

theorem told_iff : Told env scheme cls ↔ ∀ fn ∈ env.handlers, fn.cmdClass = cls → Listed env scheme fn →
    cls < 0x100 ∧ cls &&& 0xF0 ≠ 0xF0 ∧
      ∀ fn' ∈ env.handlers, fn'.cmdClass = cls → supportsFrameAtSecurityLevel env fn' scheme := by
  constructor
  · rintro ⟨hbytes, htold⟩ fn hfn rfl hlisted
    obtain ⟨haccepts, -, -⟩ := htold.mp ⟨fn, hfn, rfl, nifBytes_ne_nil_iff.mpr hlisted⟩
    obtain ⟨hbyte, -, hall⟩ := accepts_iff.mp haccepts
    refine ⟨hbyte, fun hextended => ?_, fun fn' hfn' hclass => (hall fn' hfn' hclass).1⟩
    have heq := (hbytes fn hfn rfl).resolve_left (nifBytes_ne_nil_iff.mpr hlisted)
    rw [nifBytes_of_listed hlisted, if_pos hextended, classBytes, if_pos hbyte] at heq
    exact List.cons_ne_nil _ _ (List.cons.inj heq).2
  · intro h
    refine ⟨fun fn hfn hclass => ?_, ?_, ?_⟩
    · by_cases hnone : nifBytes env scheme fn = []
      · exact .inl hnone
      · have hlisted := nifBytes_ne_nil_iff.mp hnone
        obtain ⟨hbyte, hshort, -⟩ := h fn hfn hclass hlisted
        rw [nifBytes_of_listed hlisted, hclass, if_neg hshort, classBytes, if_pos hbyte]
        exact .inr rfl
    · rintro ⟨fn, hfn, hclass, hne⟩
      have hlisted := nifBytes_ne_nil_iff.mp hne
      obtain ⟨hbyte, -, hall⟩ := h fn hfn hclass hlisted
      refine ⟨accepts_iff.mpr ⟨hbyte, ⟨fn, hfn, hclass⟩, fun fn' hfn' hclass' =>
        ⟨hall fn' hfn' hclass', hclass ▸ hlisted.enabled⟩⟩, fun hsecure => ?_, hclass ▸ hlisted.other⟩
      exact hlisted.secure ⟨hsecure.1, ((accepts_iff.mp hsecure.2).2.2 fn hfn hclass).1⟩
    · rintro ⟨haccepts, hsecure, hplus⟩
      obtain ⟨hbyte, ⟨fn, hfn, hclass⟩, hall⟩ := accepts_iff.mp haccepts
      -- without a scheme any handler of the class is listed, else one that asks for a scheme
      obtain ⟨fn', hfn', hclass', hnot⟩ : ∃ fn' ∈ env.handlers, fn'.cmdClass = cls ∧
          ¬(scheme ≠ .noScheme ∧ supportsFrameAtSecurityLevel env fn' .noScheme = true) := by
        by_contra hnone
        push Not at hnone
        exact hsecure ⟨(hnone fn hfn hclass).1, accepts_iff.mpr ⟨hbyte, ⟨fn, hfn, hclass⟩, fun fn' hfn' hclass' =>
          ⟨(hnone fn' hfn' hclass').2, (hall fn' hfn' hclass').2⟩⟩⟩
      obtain ⟨hlevel, henabled⟩ := hall fn' hfn' hclass'
      exact ⟨fn', hfn', hclass', nifBytes_ne_nil_iff.mpr ⟨hclass' ▸ henabled, hlevel, hnot, hclass' ▸ hplus⟩⟩

/-- A handler is only called as it should be for a frame unless the validator does not know the class of the
frame, which is registered. The classes that are told are those accepted exactly if there is room for them, they
are of one byte below 0xF0, and all handlers of such a class support the scheme. -/
theorem dispatcher_iff (env : Env) : (∀ c f supervisionUnwrapped, Guarded env c f supervisionUnwrapped ↔
      (env.validate f = .unknownClass → isWakeUpReport f supervisionUnwrapped = false → ¬Registered env c f)) ∧
    ∀ scheme maxLen, (commandHandlerGetNif env scheme maxLen = env.handlers.flatMap (nifBytes env scheme) ∧
        ∀ cls, Told env scheme cls) ↔
      (env.handlers.flatMap (nifBytes env scheme)).length ≤ maxLen.toNat ∧
        ∀ fn ∈ env.handlers, Listed env scheme fn → fn.cmdClass < 0x100 ∧ fn.cmdClass &&& 0xF0 ≠ 0xF0 ∧
          ∀ fn' ∈ env.handlers, fn'.cmdClass = fn.cmdClass → supportsFrameAtSecurityLevel env fn' scheme := by
  refine ⟨fun c f supervisionUnwrapped => guarded_iff, fun scheme maxLen => ?_⟩
  apply and_congr nifFrom_eq_iff
  constructor
  · exact fun h fn hfn hlisted => told_iff.mp (h fn.cmdClass) fn hfn rfl hlisted
  · intro h cls
    apply told_iff.mpr
    rintro fn hfn rfl hlisted
    exact h fn hfn hlisted

def sampleEnv : Env where
  handlers := [⟨0x20, .noScheme⟩]
  netScheme := .noScheme
  disabled := []
  validate _ := .unknownClass
  wakeUp _ _ := false
  answer _ _ := .handled
  unsolicited _ _ := false
  bufSize := 0
  asyncStateSize := 0
  room _ := true

theorem dispatcher_not : ¬ ∀ env c f supervisionUnwrapped, Guarded env c f supervisionUnwrapped := by
  intro hall
  have hvalid := (hall sampleEnv ⟨.noScheme, 0, false, 0, false, 0, 0, 0⟩ ⟨fun _ => 0x20, 2⟩ false _ rfl).1
  cases hvalid

end Nif
end ZipGateway.Udp

import ZipGateway.Udp.Commands
import ZipGateway.Lib.Byte

/-!
# What a client can do that was not received securely

A command that came in plain text is handed over with no scheme, or as a CRC16 frame, which counts as
none. Then only handlers run that ask for nothing, except for the two commands that are let through on
purpose: the Node Info Cached Get for node 0, and a Manufacturer Specific Get where the network has S0.

This is so as long as the packet does not name a security level by itself, in an encapsulation format
option, and a Node Info Cached Get does not stand in a Multi Command, where the scheme it is given is
left to the commands behind it.
-/

namespace ZipGateway.Udp

def Scheme.isPlain (s : Scheme) : Bool :=
  s = .noScheme ∨ s = .useCrc16

def Handler.required (fn : Handler) (env : Env) : Scheme :=
  if fn.minimalScheme = .netScheme then env.netScheme else fn.minimalScheme

/-- An entry of the log that no secure client is needed for, when one command is let through. -/
def Out.IsPlain (env : Env) : Out → Prop
  | .handed c _ => c.receivedSecure = false → c.scheme.isPlain
  | .executed c fn f =>
    c.receivedSecure = false → (fn.required env).prio = 0 ∨ f.isCachedGet
  | _ => True

instance (env : Env) : DecidablePred (Out.IsPlain env)
  | .handed c _ => inferInstanceAs (Decidable (c.receivedSecure = false → c.scheme.isPlain))
  | .executed c fn f =>
    inferInstanceAs (Decidable (c.receivedSecure = false → (fn.required env).prio = 0 ∨ f.isCachedGet))
  | .wakeUpReported _ _ | .supervised _ _ _ | .supervisionReport _ _ _ | .applicationBusy _ | .zipAck _
  | .keepAliveAck | .neighbourDiscovery | .timerSet => isTrue trivial

def Out.IsAllowed (env : Env) : Out → Prop
  | .handed c _ => c.receivedSecure = false → c.scheme.isPlain
  | .executed c fn f =>
    c.receivedSecure = false → (fn.required env).prio = 0 ∨ f.isCachedGet ∨
        env.netScheme = .scheme0 ∧ c.scheme = .noScheme ∧ f.isManufacturerGet
  | _ => True

def optionOffsets (data : Mem) (stop : Nat) : Nat → Nat → List Nat
  | 0, _ => []
  | n + 1, opt =>
    if opt < stop then opt :: optionOffsets data stop n (opt + ((data (opt + 1)).toNat + 2)) else []

def namesLevel (data : Mem) (opt : Nat) : Bool :=
  data opt = encapsulationFormatInfo ∧ 2 ≤ data (opt + 1) ∧ data (opt + 2) ∈ ([0x80, 0x01, 0x02, 0x04] : List UInt8)

def Payload.namesLevel (p : Payload) : Bool :=
  (optionOffsets p.data (zipHeaderSize + p.extension) (p.extension + 1) (zipHeaderSize + 1)).any (Udp.namesLevel p.data)

def Frame.unraised : Nat → Frame → Bool
  | 0, _ => true
  | n + 1, f =>
    (f.cmdClass = commandClassMultiCmd ∧ f.cmd = multiCmdEncap →
        ∀ g ∈ f.commands, g.isCachedGet = false ∧ g.unraised n) ∧
      (f.isSupervisionGet → f.supervised.unraised n)

def Payload.isModest (p : Payload) (depth : Nat) : Bool :=
  p.receivedSecure = false → p.namesLevel = false ∧ p.command.unraised depth

/-! ### The header -/

variable {fn : Handler} {p : Payload}

theorem isPlain_ofEfi {ext1 ext2 : UInt8} (h : ext1 ∉ ([0x80, 0x01, 0x02, 0x04] : List UInt8)) :
    (Scheme.ofEfi ext1 ext2).isPlain := by
  simp only [List.mem_cons, List.not_mem_nil, or_false, not_or] at h
  unfold Scheme.ofEfi
  split_ifs <;> simp_all [Scheme.isPlain]

theorem parseOptions_plain {data : Mem} {stop : Nat} (n : Nat) : ∀ {opt : Nat} {scheme scheme' : Scheme},
      (∀ o ∈ optionOffsets data stop n opt, namesLevel data o = false) →
      (scheme = .autoScheme ∨ scheme.isPlain) → parseOptions data stop n opt scheme = .ok scheme' →
      scheme' = .autoScheme ∨ scheme'.isPlain := by
  induction n with
  | zero =>
    intro opt scheme scheme' _ _ hparsed
    cases hparsed
  | succ n ih =>
    intro opt scheme scheme' hnames hscheme hparsed
    unfold parseOptions at hparsed
    unfold optionOffsets at hnames
    split_ifs at hparsed hnames with hmore hefi hshort hcritical hend
    · rw [List.forall_mem_cons] at hnames
      refine ih hnames.2 (.inr (isPlain_ofEfi fun hlevel => ?_)) hparsed
      have hnamed : namesLevel data opt = true := by
        simp only [namesLevel, decide_eq_true_eq]
        exact ⟨hefi, UInt8.not_lt.mp hshort, hlevel⟩
      rw [hnamed] at hnames
      cases hnames.1
    · rw [List.forall_mem_cons] at hnames
      exact ih hnames.2 hscheme hparsed
    · cases hparsed
      exact hscheme

theorem isPlain_scheme {scheme : Scheme} (hsecure : p.receivedSecure = false)
    (hnames : p.namesLevel = false) (hparsed : p.parse = .ok scheme) :
    (p.scheme scheme).isPlain := by
  have hscheme : scheme = .autoScheme ∨ scheme.isPlain := by
    unfold Payload.parse at hparsed
    split_ifs at hparsed
    · refine parseOptions_plain _ ?_ (.inl rfl) hparsed
      simpa [Payload.namesLevel] using hnames
    · cases hparsed
      exact .inl rfl
  rcases hscheme with rfl | hplain
  · simp [Payload.scheme, hsecure, Scheme.isPlain]
  · cases scheme <;> first | exact hplain | cases hplain

/-! ### The handlers -/

section Handlers

variable {env : Env} {c : Connection} {f : Frame}

theorem checkHandlers_spec : ∀ {handlers : List Handler} {checked : Option Handler},
      checkHandlers env c f handlers checked = .ok (some fn) →
      checked = some fn ∨ fn.cmdClass = f.cmdClass.toUInt16 ∧
        (supportsFrameAtSecurityLevel env fn c.scheme ∨ exceptionCcSecurityLevelCheck env c.scheme f) := by
  intro handlers
  induction handlers with
  | nil =>
    intro checked h
    cases h
    exact .inl rfl
  | cons fn' handlers ih =>
    intro checked h
    unfold checkHandlers at h
    split_ifs at h with hclass hlevel hdisabled
    · rcases ih h with heq | hspec
      · cases heq
        exact .inr ⟨hclass, hlevel⟩
      · exact .inr hspec
    · exact ih h

theorem required_of_plain (hplain : c.scheme.isPlain)
    (hlevel : supportsFrameAtSecurityLevel env fn c.scheme ∨ exceptionCcSecurityLevelCheck env c.scheme f) :
    (fn.required env).prio = 0 ∨ env.netScheme = .scheme0 ∧ c.scheme = .noScheme ∧ f.isManufacturerGet := by
  rcases hlevel with hsupports | hexception
  · left
    have hnone : (if c.scheme = .useCrc16 then Scheme.noScheme else c.scheme) = .noScheme := by
      simp only [Scheme.isPlain, decide_eq_true_eq] at hplain
      rcases hplain with h | h <;> simp [h]
    unfold supportsFrameAtSecurityLevel at hsupports
    rw [hnone] at hsupports
    unfold Handler.required
    split_ifs at hsupports ⊢ with hnet
    · have hnetScheme : Scheme.noScheme = env.netScheme := by simpa using hsupports
      rw [← hnetScheme]
      rfl
    · simp only [decide_eq_true_eq, Scheme.compare] at hsupports
      rcases hsupports with hminimal | ⟨-, hle⟩
      · rw [hminimal]
        rfl
      · exact Nat.le_zero.mp hle
  · right
    simp only [exceptionCcSecurityLevelCheck, decide_eq_true_eq] at hexception
    exact ⟨hexception.1, hexception.2.2, hexception.2.1⟩

end Handlers

def State.Clean (env : Env) (s : State) : Prop :=
  ∀ o ∈ s.log, o.IsAllowed env

theorem State.Clean.put {env : Env} {s : State} (h : s.Clean env) {o : Out} (ho : o.IsAllowed env) :
    (s.put o).Clean env := by
  simp only [State.Clean, State.put, List.forall_mem_cons]
  exact ⟨ho, h⟩

structure Connection.Kept (c d : Connection) : Prop where
  received : d.receivedSecure = c.receivedSecure
  same : c.receivedSecure = false → d = c

theorem Connection.Kept.refl (c : Connection) : c.Kept c :=
  ⟨rfl, fun _ => rfl⟩

theorem Connection.Kept.trans {c d e : Connection} (h : c.Kept d) (h' : d.Kept e) : c.Kept e where
  received := h'.received.trans h.received
  same hsecure := by rw [h'.same (h.received.trans hsecure), h.same hsecure]

def Connection.Hands (c : Connection) (f : Frame) (n : Nat) : Prop :=
  c.receivedSecure = false → c.scheme.isPlain ∧ f.unraised n

def Connection.Runs (c : Connection) (f : Frame) (n : Nat) : Prop :=
  c.receivedSecure = false → (c.scheme.isPlain ∨ f.isCachedGet) ∧ f.unraised n

/-- What holds of the two functions for frames up to a depth: they do nothing that is not allowed, and
keep the connection. -/
structure Nested.Good (env : Env) (n : Nat) (nested : Nested) : Prop where
  application : ∀ s c f, s.Clean env → c.Hands f n → (nested.application s c f).1.Clean env ∧
      ((c.receivedSecure = false → f.isCachedGet = false) → c.Kept (nested.application s c f).2)
  run : ∀ s c f unwrapped, s.Clean env → c.Runs f n →
    (nested.run s c f unwrapped).2.1.Clean env ∧ c.Kept (nested.run s c f unwrapped).2.2

namespace Nested.Good

variable {env : Env} {n : Nat} {nested : Nested} {s : State} {c : Connection} {f : Frame}

theorem commands (h : nested.Good env n) : ∀ {gs : List Frame} {s : State} {c : Connection},
      (c.receivedSecure = false → c.scheme.isPlain) →
      (c.receivedSecure = false → ∀ g ∈ gs, g.isCachedGet = false ∧ g.unraised n) → s.Clean env →
      let r := gs.foldl (fun sc g => nested.application sc.1 sc.2 g) (s, c)
      r.1.Clean env ∧ c.Kept r.2 := by
  intro gs
  induction gs with
  | nil =>
    intro s c _ _ hs
    exact ⟨hs, .refl c⟩
  | cons g gs ih =>
    intro s c hc hgs hs
    obtain ⟨hclean, hkept⟩ := h.application s c g hs fun hsecure =>
      ⟨hc hsecure, (hgs hsecure g List.mem_cons_self).2⟩
    have hkept := hkept fun hsecure => (hgs hsecure g List.mem_cons_self).1
    have hplain : (nested.application s c g).2.receivedSecure = false →
        (nested.application s c g).2.scheme.isPlain := by
      intro hsecure
      rw [hkept.received] at hsecure
      rw [hkept.same hsecure]
      exact hc hsecure
    have hrest : (nested.application s c g).2.receivedSecure = false →
        ∀ g' ∈ gs, g'.isCachedGet = false ∧ g'.unraised n := by
      intro hsecure g' hg'
      exact hgs (hkept.received ▸ hsecure) g' (List.mem_cons_of_mem g hg')
    obtain ⟨hclean', hkept'⟩ := ih hplain hrest hclean
    exact ⟨hclean', hkept.trans hkept'⟩

theorem multiCommandHandler (h : nested.Good env n) (hs : s.Clean env) (hc : c.Hands f (n + 1))
    (hclass : f.cmdClass = commandClassMultiCmd) :
    (nested.multiCommandHandler s c f).2.1.Clean env ∧ c.Kept (nested.multiCommandHandler s c f).2.2 := by
  unfold Nested.multiCommandHandler
  by_cases hcmd : f.cmd = multiCmdEncap
  · rw [if_neg (not_not.mpr hcmd)]
    refine h.commands (fun hsecure => (hc hsecure).1) (fun hsecure => ?_) hs
    have hunraised := (hc hsecure).2
    simp only [Frame.unraised, decide_eq_true_eq] at hunraised
    exact hunraised.1 ⟨hclass, hcmd⟩
  · rw [if_pos hcmd]
    exact ⟨hs, .refl c⟩

theorem supervisionCommandHandler (h : nested.Good env n) (hs : s.Clean env)
    (hc : c.Hands f (n + 1)) (hclass : f.cmdClass = commandClassSupervision) :
    (nested.supervisionCommandHandler env s c f).2.1.Clean env ∧
      c.Kept (nested.supervisionCommandHandler env s c f).2.2 := by
  unfold Nested.supervisionCommandHandler
  dsimp only
  split_ifs with hcmd hduplicate
  · exact ⟨hs, .refl c⟩
  · exact ⟨hs, .refl c⟩
  all_goals
    have hrun := h.run ({ s with lastSrcIp := c.ripaddr, lastSessionid := f.mem 2 &&& 0x3F }.put
        (.supervised c (f.mem 2 &&& 0x3F) f.supervised)) c
      f.supervised true (by exact hs.put trivial) fun hsecure => by
        have hunraised := (hc hsecure).2
        simp only [Frame.unraised, decide_eq_true_eq] at hunraised
        refine ⟨.inl (hc hsecure).1, hunraised.2 ?_⟩
        simp only [Frame.isSupervisionGet, decide_eq_true_eq]
        exact ⟨hclass, not_not.mp hcmd⟩
  · exact hrun
  · exact hrun
  · exact ⟨hrun.1.put trivial, hrun.2⟩

theorem execute (h : nested.Good env n) (hs : s.Clean env) (hc : c.Runs f (n + 1))
    (hclass : fn.cmdClass = f.cmdClass.toUInt16)
    (hlevel : supportsFrameAtSecurityLevel env fn c.scheme ∨ exceptionCcSecurityLevelCheck env c.scheme f) :
    (nested.execute env s c fn f).2.1.Clean env ∧ c.Kept (nested.execute env s c fn f).2.2 := by
  have hexecuted : (s.put (.executed c fn f)).Clean env := by
    refine hs.put fun hsecure => ?_
    rcases (hc hsecure).1 with hplain | hcached
    · exact (required_of_plain hplain hlevel).imp_right .inr
    · exact .inr (.inl hcached)
  -- a Node Info Cached Get is of another class
  have hplain (hother : f.cmdClass ≠ commandClassNetworkManagementProxy) : c.Hands f (n + 1) := by
    intro hsecure
    refine ⟨(hc hsecure).1.resolve_right fun hcached => ?_, (hc hsecure).2⟩
    simp only [Frame.isCachedGet, decide_eq_true_eq] at hcached
    exact hother hcached.1
  unfold Nested.execute
  dsimp only
  split_ifs with hmulti hsupervision
  · rw [hclass, UInt8.toUInt16_inj] at hmulti
    refine h.multiCommandHandler hexecuted (hplain ?_) hmulti
    rw [hmulti]
    decide
  · rw [hclass, UInt8.toUInt16_inj] at hsupervision
    refine h.supervisionCommandHandler hexecuted (hplain ?_) hsupervision
    rw [hsupervision]
    decide
  · exact ⟨hexecuted, .refl c⟩

theorem commandHandlerRun (h : nested.Good env n) (hs : s.Clean env) (hc : c.Runs f (n + 1)) (unwrapped : Bool) :
    (nested.commandHandlerRun env s c f unwrapped).2.1.Clean env ∧
      c.Kept (nested.commandHandlerRun env s c f unwrapped).2.2 := by
  unfold Nested.commandHandlerRun
  split_ifs
  · exact ⟨hs.put trivial, .refl c⟩
  · cases hchecked : checkHandlers env c f env.handlers none with
    | error code => exact ⟨hs, .refl c⟩
    | ok checked =>
      cases checked with
      | none => exact ⟨hs, .refl c⟩
      | some fn =>
        rcases checkHandlers_spec hchecked with hnone | ⟨hclass, hlevel⟩
        · cases hnone
        · dsimp only
          cases validationCode (env.validate f) with
          | some code => exact ⟨hs, .refl c⟩
          | none => exact h.execute hs hc hclass hlevel

theorem applicationIpCommandHandler (h : nested.Good env n) (hs : s.Clean env) (hc : c.Hands f (n + 1)) :
    (nested.applicationIpCommandHandler env s c f).1.Clean env ∧ ((c.receivedSecure = false → f.isCachedGet = false) →
        c.Kept (nested.applicationIpCommandHandler env s c f).2) := by
  have hhanded : (s.put (.handed c f)).Clean env := hs.put fun hsecure => (hc hsecure).1
  obtain ⟨c', hc'⟩ : ∃ c', c' = if f.isCachedGet then { c with scheme := .schemeUdp } else c :=
    ⟨_, rfl⟩
  have hreceived : c'.receivedSecure = c.receivedSecure := by
    rw [hc']
    split_ifs <;> rfl
  have hother : f.isCachedGet = false → c' = c := by
    intro hcached
    rw [hc', hcached]
    rfl
  have hkeeps (hcached : c.receivedSecure = false → f.isCachedGet = false) : c.Kept c' :=
    ⟨hreceived, fun hsecure => hother (hcached hsecure)⟩
  have hruns : c'.Runs f (n + 1) := by
    intro hsecure
    rw [hreceived] at hsecure
    refine ⟨?_, (hc hsecure).2⟩
    cases hcached : f.isCachedGet with
    | true => exact .inr rfl
    | false =>
      rw [hother hcached]
      exact .inl (hc hsecure).1
  obtain ⟨hclean, hkept⟩ := h.commandHandlerRun hhanded hruns false
  unfold Nested.applicationIpCommandHandler
  rw [← hc']
  dsimp only
  by_cases hlen : f.len < 2
  · rw [if_pos hlen]
    exact ⟨hhanded, fun _ => .refl c⟩
  rw [if_neg hlen]
  by_cases hwake : f.cmdClass = commandClassWakeUp ∧ env.wakeUp c f
  · rw [if_pos hwake]
    exact ⟨hhanded, fun _ => .refl c⟩
  rw [if_neg hwake]
  generalize nested.commandHandlerRun env (s.put (.handed c f)) c' f false = result at hclean hkept ⊢
  obtain ⟨code, t, d⟩ := result
  cases code with
  | busy => exact ⟨hclean.put trivial, fun hcached => (hkeeps hcached).trans hkept⟩
  | handled | parseError | notSupported | classNotSupported | postponed | disabled =>
    exact ⟨hclean, fun hcached => (hkeeps hcached).trans hkept⟩

end Nested.Good

theorem good_nested (env : Env) (n : Nat) : (nested env n).Good env n := by
  induction n with
  | zero => exact ⟨fun s c f hs _ => ⟨hs, fun _ => .refl c⟩, fun s c f _ hs _ => ⟨hs, .refl c⟩⟩
  | succ n ih =>
    refine ⟨?_, ?_⟩
    · intro s c f hs hc
      exact ih.applicationIpCommandHandler hs hc
    · intro s c f unwrapped hs hc
      exact ih.commandHandlerRun hs hc unwrapped

/-! ### The queue -/

namespace State

variable {env : Env} {depth : Nat} {s : State}

/-- What was done is allowed, and what waits may be handed over. -/
structure Sound (env : Env) (depth : Nat) (s : State) : Prop where
  clean : s.Clean env
  waiting : ∀ q ∈ s.queue, q.conn.Hands q.frame depth

theorem Sound.put (h : s.Sound env depth) {o : Out} (ho : o.IsAllowed env) : (s.put o).Sound env depth :=
  ⟨h.clean.put ho, h.waiting⟩

theorem clean_handOver (hs : s.Clean env) {q : Queued} (hq : q.conn.Hands q.frame depth) :
    (s.handOver env depth q).Clean env := by
  refine ((good_nested env depth).application _ q.conn q.frame ?_ hq).1
  split_ifs
  · exact hs.put trivial
  · exact hs

theorem clean_handOvers {queue : List Queued} (hqueue : ∀ q ∈ queue, q.conn.Hands q.frame depth) :
    ∀ {s : State}, s.Clean env → (queue.foldl (handOver env depth) s).Clean env := by
  induction queue with
  | nil =>
    intro s hs
    exact hs
  | cons q queue ih =>
    intro s hs
    rw [List.forall_mem_cons] at hqueue
    exact ih hqueue.2 (clean_handOver hs hqueue.1)

theorem sound_doAppHandler (h : s.Sound env depth) : (s.doAppHandler env depth).Sound env depth where
  clean := clean_handOvers h.waiting h.clean
  waiting _ hq := absurd hq List.not_mem_nil

theorem sound_ackRequested (h : s.Sound env depth) (p : Payload) (optionError : Bool) :
    (s.ackRequested p optionError).Sound env depth := by
  unfold ackRequested
  split_ifs
  · exact h.put trivial
  · exact h

theorem sound_queued (h : s.Sound env depth) (hp : p.isModest depth) {scheme : Scheme}
    (hparsed : p.parse = .ok scheme) (ackReq toMulticast : Bool) (allocated : Nat) :
    Sound env depth { s with
      allocated := allocated
      queue := s.queue ++ [⟨ackReq, ⟨p.scheme scheme, p.ripaddr, toMulticast, 0, p.receivedSecure,
        p.data 6, p.data 5, p.data 4⟩, p.command⟩] } where
  clean := h.clean
  waiting := by
    intro q hq
    rcases List.mem_append.mp hq with hold | hnew
    · exact h.waiting q hold
    · rw [List.mem_singleton] at hnew
      subst hnew
      intro hsecure
      simp only [Payload.isModest, decide_eq_true_eq] at hp
      obtain ⟨hnames, hunraised⟩ := hp hsecure
      exact ⟨isPlain_scheme hsecure hnames hparsed, hunraised⟩

theorem sound_zipPacket (h : s.Sound env depth) (hp : p.isModest depth) :
    (s.zipPacket env depth p).Sound env depth := by
  unfold zipPacket
  cases hparsed : p.parse with
  | drop =>
    dsimp only
    split_ifs
    · exact sound_ackRequested h p false
    · exact h
    · exact h
  | optionError =>
    dsimp only
    split_ifs
    · exact sound_ackRequested h p false
    · exact h
    · exact sound_ackRequested h p true
  | ok scheme =>
    dsimp only
    split_ifs
    · exact sound_ackRequested h p false
    · exact h
    · exact h
    · exact Sound.put (o := .timerSet) (sound_queued h hp hparsed _ _ _) trivial
    · exact sound_doAppHandler (sound_queued h hp hparsed _ _ _)
    · exact sound_queued h hp hparsed _ _ _
    · exact ⟨h.clean, h.waiting⟩

theorem sound_udpCommandHandler (h : s.Sound env depth) (hp : p.isModest depth) :
    (s.udpCommandHandler env depth p).Sound env depth := by
  unfold udpCommandHandler
  split_ifs
  · exact h.put trivial
  · exact h
  · exact h
  · exact h.put trivial
  · exact h
  · exact sound_zipPacket h hp
  · exact h

/-- The packets of a run that were not received securely make no claims about security. -/
def Modest (depth : Nat) (events : List Event) : Prop :=
  ∀ p, .received p ∈ events → p.isModest depth

theorem sound_run (env : Env) (depth : Nat) {events : List Event} (hmodest : Modest depth events) :
    ∀ {s : State}, s.Sound env depth → (s.run env depth events).Sound env depth := by
  induction events with
  | nil =>
    intro s h
    exact h
  | cons e events ih =>
    intro s h
    have hrest : Modest depth events := fun p hp => hmodest p (List.mem_cons_of_mem e hp)
    refine ih hrest ?_
    cases e with
    | received p => exact sound_udpCommandHandler h (hmodest p List.mem_cons_self)
    | timer => exact sound_doAppHandler h
    | expired i => exact ⟨h.clean, fun q hq => h.waiting q (List.mem_of_mem_eraseIdx hq)⟩

/-- Whatever a client sends that was not received securely is handed over without a scheme, and runs no
handler that asks for one, the two commands apart. -/
theorem insecure_commands_allowed (env : Env) (depth : Nat) (events : List Event)
    (hmodest : Modest depth events) : ∀ o ∈ (init.run env depth events).log, o.IsAllowed env := by
  have hinit : init.Sound env depth :=
    ⟨fun o ho => absurd ho List.not_mem_nil, fun q hq => absurd hq List.not_mem_nil⟩
  exact (sound_run env depth hmodest hinit).clean

end State

def registered : List Handler :=
  [⟨0x69, .schemeUdp⟩, ⟨0x8F, .noScheme⟩, ⟨0x72, .netScheme⟩, ⟨0x8A, .noScheme⟩, ⟨0x74, .noScheme⟩,
    ⟨0x87, .netScheme⟩, ⟨0x5E, .noScheme⟩, ⟨0x6C, .noScheme⟩, ⟨0x73, .netScheme⟩, ⟨0x4D, .scheme0⟩,
    ⟨0x52, .scheme0⟩, ⟨0x34, .scheme0⟩, ⟨0x61, .schemeUdp⟩, ⟨0x86, .netScheme⟩, ⟨0x67, .scheme0⟩,
    ⟨0x5F, .schemeUdp⟩, ⟨0x68, .schemeUdp⟩, ⟨0x7A, .scheme0⟩, ⟨0x78, .scheme2Access⟩]

def s0Gateway : Env where
  handlers := registered
  netScheme := .scheme0
  disabled := []
  validate := fun _ => .parseOk
  wakeUp := fun _ _ => false
  answer := fun _ _ => .handled
  unsolicited := fun _ _ => false
  bufSize := 1600
  asyncStateSize := 100
  room := fun _ => true

def plainPacket (command : Bytes) : Payload where
  data := Mem.ofBytes ([0x23, 0x02, 0x00, 0x40, 0x01, 0x00, 0x00] ++ command)
  len := UInt16.ofNat (7 + command.length)
  ripaddr := 0xfd00
  toMulticast := false
  toAllRouters := false
  sourced := true
  receivedSecure := false

namespace State

theorem plainVersionGet_allowed : (plainPacket [0x86, 0x11]).isModest 4 ∧
      ∀ o ∈ (init.run s0Gateway 4 [.received (plainPacket [0x86, 0x11])]).log, o.IsAllowed s0Gateway := by
  have hmodest : (plainPacket [0x86, 0x11]).isModest 4 := by decide
  refine ⟨hmodest, insecure_commands_allowed s0Gateway 4 _ ?_⟩
  intro p hp
  rw [List.mem_singleton] at hp
  cases hp
  exact hmodest

/-- A Manufacturer Specific Get in plain text is answered, though its handler asks for S0. -/
theorem plainManufacturerGet_executed : ¬∀ o ∈ (init.run s0Gateway 4 [.received (plainPacket [0x72, 0x04])]).log,
      o.IsPlain s0Gateway := by
  decide

end State

end ZipGateway.Udp

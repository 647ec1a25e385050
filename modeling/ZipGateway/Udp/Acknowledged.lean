import ZipGateway.Udp.Sessions

/-!
# The life of a session

Every session that is listed has a timer that runs, so that it ends with an acknowledgement or with a
time-out, and then its block is free. This is so as long as the packet takes a way on which the timer is
started at once: it is not queued for an IPv4 address, does not go through the portal, and a DTLS session
is there with its handshake done.
-/

namespace ZipGateway.UdpSession

open Function (update)

namespace Out

def completes (k : Nat) : Out → Bool
  | .completed call _ => call = k
  | _ => false

end Out

def Proved : List Out → Prop
  | [] => True
  | o :: log =>
    (∀ k, o = .completed k transmitCompleteOk →
        ∃ p rest, log = .acked p :: rest ∧ .sent (some k) p.seqNo ∈ rest) ∧ Proved log

variable {i : Block} {c : Call} {o : Out} {status : UInt8}

namespace State

def completions (s : State) (k : Nat) : Nat :=
  s.log.countP (Out.completes k)

/-- What the sessions owe the calls: a call was completed, once, or a session with a timer is there for
it; OK is said only for the packet's own acknowledgement; and a block that is taken has a timer. -/
structure Served (s : State) : Prop where
  once : ∀ k, .called k ∈ s.log → s.completions k = 1 ∨ s.completions k = 0 ∧ ∃ i, s.timer i ∧ (s.mem i).cb = some k
  proved : Proved s.log
  blocks : ∀ i, s.allocated i → s.timer i

/-! ### The condition -/

def starts (env : Env) (s : State) (c : Call) : Bool :=
  ¬(isIpv4Mapped c.conn.ripaddr ∧ ¬env.hasIpv4 (s.clock + 1) (env.nodeOfIp c.conn.lipaddr)) ∧
    ¬env.portal (s.clock + 1) c.conn.ripaddr ∧
    (c.conn.lport ≠ dtlsPort ∨ env.nodeOfIp c.conn.ripaddr = 0 ∧ env.written (s.clock + 1) ∧
        (s.dtls.find? fun d => d.conn = c.conn).any Dtls.finished)

def Starts (env : Env) (s : State) (c : Call) : Prop :=
  (∃ i, s.allocated i = false) → s.starts env c

def StartsInside (env : Env) (s : State) (i : Block) (status : UInt8) (inside : List Call) : Prop :=
  (s.mem i).cb.isSome → Machine.Admissible (sendDataZipAck env) (Starts env)
      ({ s with timer := update s.timer i false }.complete (s.mem i).cb status) inside

/-- The calls of an event start their timers, and no late callback of a DTLS session starts that of a
block that is free by now. -/
def Timed (env : Env) (s : State) : Event → Prop
  | .send c => Starts env s c
  | .ack p inside =>
    ∀ i, (s.list.find? fun i => Session.matches (s.mem i) p) = some i →
      StartsInside env (s.put (.acked p)) i transmitCompleteOk inside
  | .timeout i inside => s.timer i → StartsInside env s i transmitCompleteFail inside
  | .initDone conn =>
    ∀ d, (s.dtls.find? fun d => d.conn = conn) = some d → d.queue ≠ 0 → ∀ i, d.user = some i → s.allocated i
  | .accepted _ | .handshake _ | .expired _ | .otherTraffic _ | .closed _ => True

/-! ### The invariant -/

def holds (s : State) (closing : Option Block) (k : Nat) (i : Block) : Bool :=
  (s.mem i).cb = some k ∧ closing ≠ some i

structure Inv (closing : Option Block) (s : State) : Prop where
  nodup : s.list.Nodup
  allocated : ∀ i, s.allocated i ↔ i ∈ s.list
  timer : ∀ i, s.timer i ↔ i ∈ s.list ∧ closing ≠ some i
  listed : ∀ i, closing = some i → i ∈ s.list
  numbers : ∀ i ∈ s.list, ∀ k, (s.mem i).cb = some k → k < s.calls ∧ .sent (some k) (s.mem i).seq ∈ s.log
  logged : ∀ k, .called k ∈ s.log ∨ s.completions k ≠ 0 → k < s.calls
  once : ∀ k, .called k ∈ s.log → s.completions k + s.list.countP (s.holds closing k) = 1
  proved : Proved s.log

variable {env : Env} {s t : State} {closing : Option Block}

theorem Inv.served (h : s.Inv none) : s.Served where
  once k hk := by
    have honce := h.once k hk
    by_cases hzero : s.completions k = 0
    · right
      refine ⟨hzero, ?_⟩
      have hpos : 0 < s.list.countP (s.holds none k) := by omega
      obtain ⟨i, hi, hholds⟩ := List.countP_pos_iff.mp hpos
      simp only [holds, decide_eq_true_eq] at hholds
      exact ⟨i, (h.timer i).mpr ⟨hi, hholds.2⟩, hholds.1⟩
    · left
      omega
  proved := h.proved
  blocks i hi := (h.timer i).mpr ⟨(h.allocated i).mp hi, by simp⟩

theorem inv_init : init.Inv none where
  nodup := List.nodup_nil
  allocated i := by simp [init]
  timer i := by simp [init]
  listed i hi := by cases hi
  numbers i hi := absurd hi List.not_mem_nil
  logged k hk := by simp [init, completions] at hk
  once k hk := absurd hk List.not_mem_nil
  proved := trivial

theorem Inv.congr (h : s.Inv closing) (hmem : t.mem = s.mem) (hallocated : t.allocated = s.allocated)
    (hlist : t.list = s.list) (htimer : t.timer = s.timer) (hcalls : t.calls = s.calls)
    (hlog : t.log = s.log) : t.Inv closing := by
  have hcompletions (k : Nat) : t.completions k = s.completions k := by
    unfold completions
    rw [hlog]
  have hholds (k : Nat) : t.holds closing k = s.holds closing k := by
    unfold holds
    rw [hmem]
  constructor
  · rw [hlist]
    exact h.nodup
  · rw [hallocated, hlist]
    exact h.allocated
  · rw [htimer, hlist]
    exact h.timer
  · rw [hlist]
    exact h.listed
  · rw [hlist, hmem, hcalls, hlog]
    exact h.numbers
  · intro k
    rw [hcompletions, hcalls, hlog]
    exact h.logged k
  · intro k
    rw [hcompletions, hholds, hlist, hlog]
    exact h.once k
  · rw [hlog]
    exact h.proved

theorem Inv.note (h : s.Inv closing) (hcalled : ∀ k, o ≠ .called k)
    (hcompleted : ∀ k status, o ≠ .completed k status) : (s.put o).Inv closing := by
  have hcompletions (k : Nat) : (s.put o).completions k = s.completions k := by
    refine List.countP_cons_of_neg ?_
    cases o <;> simp_all [Out.completes]
  have hmem (k : Nat) : .called k ∈ (s.put o).log ↔ .called k ∈ s.log := by
    simp [State.put, (hcalled k).symm]
  constructor
  · exact h.nodup
  · exact h.allocated
  · exact h.timer
  · exact h.listed
  · intro i hi k hk
    obtain ⟨hlt, hsent⟩ := h.numbers i hi k hk
    exact ⟨hlt, List.mem_cons_of_mem o hsent⟩
  · intro k hk
    rw [hcompletions, hmem] at hk
    exact h.logged k hk
  · intro k hk
    rw [hmem] at hk
    rw [hcompletions]
    exact h.once k hk
  · exact ⟨fun k hk => absurd hk (hcompleted k _), h.proved⟩

theorem Inv.udpSendDone (h : s.Inv none) {user : Option Block} (hlisted : ∀ i, user = some i → i ∈ s.list) :
    (s.udpSendDone user).Inv none := by
  cases user with
  | none => exact h
  | some i =>
    have htimer : update s.timer i true = s.timer := by
      rw [Function.update_eq_self_iff]
      exact ((h.timer i).mpr ⟨hlisted i rfl, by simp⟩).symm
    exact h.congr rfl rfl rfl htimer rfl rfl

theorem sendDataUdp_eq (hstarts : s.starts env c) (i : Block) (call : Option Nat) : ∃ dtls, s.sendDataUdp env c i call =
      { s with
        seqNo := s.seqNo + 1, log := .sent call s.seqNo :: s.log, clock := s.clock + 1, dtls := dtls
        timer := update s.timer i true } := by
  simp only [starts, decide_eq_true_eq] at hstarts
  obtain ⟨hreachable, hportal, hway⟩ := hstarts
  unfold sendDataUdp udpSendWrap
  dsimp only [State.put]
  rw [if_neg hreachable, if_neg hportal]
  by_cases hdtls : c.conn.lport = dtlsPort
  · obtain ⟨hnode, hwritten, hfinished⟩ := hway.resolve_left (not_not.mpr hdtls)
    obtain ⟨d, hfind, hd⟩ : ∃ d, (s.dtls.find? fun d => d.conn = c.conn) = some d ∧ d.finished := by
      simpa [Option.any_eq_true] using hfinished
    rw [if_neg (not_not.mpr hdtls), if_neg (not_not.mpr hnode), if_pos hdtls]
    unfold dtlsSend
    dsimp only
    rw [hfind]
    dsimp only
    rw [if_pos ⟨hd, hwritten⟩]
    exact ⟨_, rfl⟩
  · rw [if_pos hdtls]
    by_cases hnode : env.nodeOfIp c.conn.ripaddr = 0
    · rw [if_neg (not_not.mpr hnode), if_neg hdtls]
      exact ⟨s.dtls, rfl⟩
    · rw [if_pos hnode]
      exact ⟨s.dtls, rfl⟩

def number (s : State) (c : Call) : Option Nat :=
  if c.hasCb then some s.calls else none

def logCalled (s : State) (c : Call) : List Out :=
  match s.number c with
  | some k => .called k :: s.log
  | none => s.log

theorem number_eq_some {k : Nat} (h : s.number c = some k) : k = s.calls := by
  unfold number at h
  split_ifs at h
  exact (Option.some.inj h).symm

theorem mem_logCalled : o ∈ s.logCalled c ↔ (∃ k, s.number c = some k ∧ o = .called k) ∨ o ∈ s.log := by
  unfold logCalled
  cases s.number c <;> simp

theorem countP_logCalled (c : Call) (k : Nat) : (s.logCalled c).countP (Out.completes k) = s.completions k := by
  unfold logCalled
  cases s.number c with
  | none => rfl
  | some k' => exact List.countP_cons_of_neg (by simp [Out.completes])

theorem proved_logCalled (h : Proved s.log) (c : Call) : Proved (s.logCalled c) := by
  unfold logCalled
  cases s.number c with
  | none => exact h
  | some k => exact ⟨fun k' hk => (by cases hk), h⟩

theorem Inv.new (h : s.Inv closing) :
    s.completions s.calls = 0 ∧ s.list.countP (s.holds closing s.calls) = 0 := by
  constructor
  · by_contra hne
    exact lt_irrefl _ (h.logged _ (.inr hne))
  · refine List.countP_eq_zero.mpr fun i hi hholds => ?_
    simp only [holds, decide_eq_true_eq] at hholds
    exact lt_irrefl _ (h.numbers i hi _ hholds.1).1

theorem Inv.number_ne (h : s.Inv closing) {k : Nat} (hold : .called k ∈ s.log) : s.number c ≠ some k := by
  intro heq
  have hlt := h.logged k (.inl hold)
  rw [number_eq_some heq] at hlt
  exact lt_irrefl _ hlt

theorem countP_holds_congr (hmem : ∀ i ∈ s.list, t.mem i = s.mem i) (k : Nat) :
    s.list.countP (t.holds closing k) = s.list.countP (s.holds closing k) := by
  refine List.countP_congr fun i hi => ?_
  simp only [holds, hmem i hi]

theorem Inv.called_lt (h : s.Inv closing) {k : Nat}
    (hk : .called k ∈ s.logCalled c ∨ s.completions k ≠ 0) : k < s.calls + 1 := by
  rcases hk with hcalled | hcompleted
  · rcases mem_logCalled.mp hcalled with ⟨k', hnumber, heq⟩ | hold
    · cases heq
      exact number_eq_some hnumber ▸ Nat.lt_succ_self _
    · exact Nat.lt_succ_of_lt (h.logged k (.inl hold))
  · exact Nat.lt_succ_of_lt (h.logged k (.inr hcompleted))

theorem Inv.send (h : s.Inv closing) (hi : s.allocated i = false) (session : Session)
    (hcb : session.cb = s.number c) (hmem : t.mem = update s.mem i session)
    (hallocated : t.allocated = update s.allocated i true) (hlist : t.list = s.list ++ [i])
    (htimer : t.timer = update s.timer i true) (hcalls : t.calls = s.calls + 1)
    (hlog : t.log = .sent (s.number c) session.seq :: s.logCalled c) : t.Inv closing := by
  have hfree : i ∉ s.list := fun hmem => by
    rw [(h.allocated i).mpr hmem] at hi
    cases hi
  have hother {j : Block} (hj : j ∈ s.list) : j ≠ i := fun heq => hfree (heq ▸ hj)
  have hkept : ∀ j ∈ s.list, t.mem j = s.mem j := fun j hj => by
    rw [hmem, Function.update_of_ne (hother hj)]
  have hself : t.mem i = session := by rw [hmem, Function.update_self]
  have hopen : closing ≠ some i := fun heq => hfree (h.listed i heq)
  have hcompletions (k : Nat) : t.completions k = s.completions k := by
    rw [← countP_logCalled (s := s) c k, completions, hlog]
    exact List.countP_cons_of_neg (by simp [Out.completes])
  obtain ⟨hnew, hempty⟩ := h.new
  constructor
  · rw [hlist]
    exact List.nodup_append.mpr ⟨h.nodup, List.nodup_singleton i, by simpa using fun j hj => hother hj⟩
  · intro j
    rw [hallocated, hlist]
    by_cases hj : j = i
    · simp [hj]
    · simp [hj, h.allocated j]
  · intro j
    rw [htimer, hlist]
    by_cases hj : j = i
    · simp [hj, hopen]
    · simp [hj, h.timer j]
  · rw [hlist]
    exact fun j hj => List.mem_append_left _ (h.listed j hj)
  · rw [hlist, hcalls, hlog]
    intro j hj k hk
    rcases List.mem_append.mp hj with hold | hlast
    · rw [hkept j hold] at hk ⊢
      obtain ⟨hlt, hsent⟩ := h.numbers j hold k hk
      exact ⟨Nat.lt_succ_of_lt hlt, List.mem_cons_of_mem _ (mem_logCalled.mpr (.inr hsent))⟩
    · obtain rfl := List.mem_singleton.mp hlast
      rw [hself] at hk ⊢
      rw [hcb] at hk
      exact ⟨number_eq_some hk ▸ Nat.lt_succ_self _, hk ▸ List.mem_cons_self⟩
  · intro k hk
    rw [hcompletions, hlog] at hk
    rw [hcalls]
    refine h.called_lt (c := c) (hk.imp_left fun hmem => ?_)
    simpa using hmem
  · intro k hk
    rw [hlog] at hk
    rw [hcompletions, hlist, List.countP_append, List.countP_singleton, countP_holds_congr hkept]
    have hholds : t.holds closing k i = decide (s.number c = some k) := by
      simp [holds, hself, hcb, hopen]
    rw [hholds]
    rcases mem_logCalled.mp (by simpa using hk) with ⟨k', hnumber, heq⟩ | hold
    · -- the call is the new one
      cases heq
      obtain rfl := number_eq_some hnumber
      simp [hnew, hempty, hnumber]
    · simpa [h.number_ne hold] using h.once k hold
  · rw [hlog]
    exact ⟨fun k hk => (by cases hk), proved_logCalled h.proved c⟩

def logRefused (s : State) (c : Call) : List Out :=
  match s.number c with
  | some k => .completed k transmitCompleteFail :: s.logCalled c
  | none => s.logCalled c

theorem mem_logRefused (ho : o ∈ s.logCalled c) : o ∈ s.logRefused c := by
  unfold logRefused
  cases s.number c with
  | none => exact ho
  | some k => exact List.mem_cons_of_mem _ ho

theorem called_of_logRefused {k : Nat} (hk : .called k ∈ s.logRefused c) : .called k ∈ s.logCalled c := by
  unfold logRefused at hk
  cases hnumber : s.number c <;> simpa [hnumber] using hk

theorem countP_logRefused (c : Call) (k : Nat) : (s.logRefused c).countP (Out.completes k) =
      s.completions k + if s.number c = some k then 1 else 0 := by
  rw [← countP_logCalled c k]
  unfold logRefused
  cases s.number c with
  | none => simp
  | some k' => simp [List.countP_cons, Out.completes]

theorem proved_logRefused (h : Proved s.log) (c : Call) : Proved (s.logRefused c) := by
  unfold logRefused
  cases s.number c with
  | none => exact proved_logCalled h c
  | some k => exact ⟨fun k' hk => (by cases hk), proved_logCalled h c⟩

theorem Inv.refuse (h : s.Inv closing) (c : Call) (hmem : t.mem = s.mem)
    (hallocated : t.allocated = s.allocated) (hlist : t.list = s.list) (htimer : t.timer = s.timer)
    (hcalls : t.calls = s.calls + 1) (hlog : t.log = s.logRefused c) : t.Inv closing := by
  have hcompletions (k : Nat) : t.completions k = s.completions k + if s.number c = some k then 1 else 0 := by
    rw [completions, hlog, countP_logRefused]
  have hholds (k : Nat) : s.list.countP (t.holds closing k) = s.list.countP (s.holds closing k) :=
    countP_holds_congr (fun i _ => congrFun hmem i) k
  obtain ⟨hnew, hempty⟩ := h.new
  constructor
  · rw [hlist]
    exact h.nodup
  · rw [hallocated, hlist]
    exact h.allocated
  · rw [htimer, hlist]
    exact h.timer
  · rw [hlist]
    exact h.listed
  · rw [hlist, hmem, hcalls, hlog]
    intro i hi k hk
    obtain ⟨hlt, hsent⟩ := h.numbers i hi k hk
    exact ⟨Nat.lt_succ_of_lt hlt, mem_logRefused (mem_logCalled.mpr (.inr hsent))⟩
  · intro k hk
    rw [hcalls]
    by_cases hnumber : s.number c = some k
    · exact number_eq_some hnumber ▸ Nat.lt_succ_self _
    · rw [hcompletions, if_neg hnumber, hlog] at hk
      exact h.called_lt (c := c) (hk.imp_left called_of_logRefused)
  · intro k hk
    rw [hlog] at hk
    rw [hcompletions, hlist, hholds]
    rcases mem_logCalled.mp (called_of_logRefused hk) with ⟨k', hnumber, heq⟩ | hold
    · cases heq
      obtain rfl := number_eq_some hnumber
      simp [hnew, hempty, hnumber]
    · simpa [h.number_ne hold] using h.once k hold
  · rw [hlog]
    exact proved_logRefused h.proved c

def opened (s : State) (c : Call) (i : Block) : State :=
  { s with
    calls := s.calls + 1, log := s.logCalled c
    allocated := update s.allocated i true
    mem := update s.mem i ⟨s.number c, s.seqNo, c.lendpoint, c.rendpoint,
      c.conn.ripaddr, c.conn.lipaddr, c.conn.rport⟩
    list := s.list ++ [i] }

theorem sendDataZipAck_eq (env : Env) (s : State) (c : Call) : s.sendDataZipAck env c =
      match (List.finRange 4).find? fun i => !s.allocated i with
      | some i => (s.opened c i).sendDataUdp env c i (s.number c)
      | none => { s with calls := s.calls + 1, log := s.logRefused c } := by
  unfold sendDataZipAck opened logRefused logCalled number
  cases c.hasCb <;> rfl

theorem Inv.sendDataZipAck (h : s.Inv closing) (hstarts : Starts env s c) : (s.sendDataZipAck env c).Inv closing := by
  rw [sendDataZipAck_eq]
  cases hfind : (List.finRange 4).find? fun i => !s.allocated i with
  | none => exact h.refuse c rfl rfl rfl rfl rfl rfl
  | some i =>
    have hi : s.allocated i = false := by simpa using List.find?_some hfind
    obtain ⟨dtls, heq⟩ := sendDataUdp_eq (s := s.opened c i) (hstarts ⟨i, hi⟩) i (s.number c)
    dsimp only
    rw [heq]
    exact h.send hi _ rfl rfl rfl rfl rfl rfl rfl

theorem timer_sendDataUdp (hnot : ¬s.starts env c) (i : Block) (call : Option Nat) :
    (s.sendDataUdp env c i call).timer = s.timer ∧ (s.sendDataUdp env c i call).allocated = s.allocated := by
  simp only [starts, decide_eq_true_eq] at hnot
  unfold sendDataUdp udpSendWrap
  dsimp only [State.put]
  split
  · exact ⟨rfl, rfl⟩
  rename_i hreachable
  split
  · exact ⟨rfl, rfl⟩
  rename_i hportal
  have hway := fun h => hnot ⟨hreachable, hportal, h⟩
  have hdtls : c.conn.lport = dtlsPort := by
    by_contra hne
    exact hway (.inl hne)
  rw [if_neg (not_not.mpr hdtls), if_pos hdtls]
  split
  · exact ⟨rfl, rfl⟩
  rename_i hnode
  unfold dtlsSend
  split
  · rename_i d hfind
    rw [if_neg]
    · exact ⟨rfl, rfl⟩
    · exact fun h => hway (.inr ⟨not_not.mp hnode, h.2, by simp [show s.dtls.find? _ = some d from hfind, h.1]⟩)
  · split <;> exact ⟨rfl, rfl⟩

/-- The condition is exact at a call: a block that is taken on any other way has no timer when the call returns. -/
theorem Inv.starts_of_served (h : s.Inv none) (hserved : (s.sendDataZipAck env c).Served) : Starts env s c := by
  rintro ⟨j, hj⟩
  by_contra hnot
  rw [sendDataZipAck_eq] at hserved
  cases hfind : (List.finRange 4).find? fun i => !s.allocated i with
  | none => simpa [hj] using List.find?_eq_none.mp hfind j (List.mem_finRange j)
  | some i =>
    have hi : s.allocated i = false := by simpa using List.find?_some hfind
    have htimer := hserved.blocks i
    rw [hfind] at htimer
    dsimp only at htimer
    obtain ⟨hsame, htaken⟩ := timer_sendDataUdp (s := s.opened c i) hnot i (s.number c)
    rw [htaken, hsame] at htimer
    have hlisted := ((h.timer i).mp (htimer (by simp [opened]))).1
    rw [(h.allocated i).mpr hlisted] at hi
    cases hi

theorem countP_holds_erase (hnodup : s.list.Nodup) (i : Block) (k : Nat) :
    (s.list.erase i).countP (s.holds none k) = s.list.countP (s.holds (some i) k) := by
  rw [hnodup.erase_eq_filter, List.countP_filter]
  refine List.countP_congr fun j _ => ?_
  simp only [holds, Bool.and_eq_true, decide_eq_true_eq, bne_iff_ne, ne_eq, reduceCtorEq,
    not_false_eq_true, and_true, Option.some.injEq]
  rw [eq_comm (a := i)]

theorem countP_holds_closing (hnodup : s.list.Nodup) (hi : i ∈ s.list) (k : Nat) :
    s.list.countP (s.holds (some i) k) + (if (s.mem i).cb = some k then 1 else 0) = s.list.countP (s.holds none k) := by
  have hperm := List.perm_cons_erase hi
  rw [← countP_holds_erase hnodup, hperm.countP_eq, List.countP_cons]
  simp [holds]

theorem completions_complete (s : State) (cb : Option Nat) (status : UInt8) (k : Nat) :
    (s.complete cb status).completions k = s.completions k + if cb = some k then 1 else 0 := by
  cases cb with
  | none => simp [State.complete]
  | some k' => simp [State.complete, State.put, completions, List.countP_cons, Out.completes]

theorem mem_complete {cb : Option Nat} :
    o ∈ (s.complete cb status).log ↔ o ∈ s.log ∨ ∃ k, cb = some k ∧ o = .completed k status := by
  cases cb with
  | none => simp [State.complete]
  | some k => simp [State.complete, State.put, or_comm]

theorem Inv.complete (h : s.Inv none) (hi : i ∈ s.list)
    (hproved : status = transmitCompleteOk → ∀ k, (s.mem i).cb = some k → ∃ p rest, s.log = .acked p :: rest ∧ .sent (some k) p.seqNo ∈ rest) :
    Inv (some i) ({ s with timer := update s.timer i false }.complete (s.mem i).cb status) := by
  let u : State := { s with timer := update s.timer i false }
  obtain ⟨log, heq⟩ : ∃ log, u.complete (s.mem i).cb status = { u with log := log } := by
    cases (s.mem i).cb with
    | none => exact ⟨s.log, rfl⟩
    | some k => exact ⟨_, rfl⟩
  have hcompletions (k : Nat) : (u.complete (s.mem i).cb status).completions k =
      s.completions k + if (s.mem i).cb = some k then 1 else 0 := completions_complete u _ status k
  have hmem {o : Out} : o ∈ (u.complete (s.mem i).cb status).log ↔
      o ∈ s.log ∨ ∃ k, (s.mem i).cb = some k ∧ o = .completed k status := mem_complete
  change Inv (some i) (u.complete (s.mem i).cb status)
  have hlog : (u.complete (s.mem i).cb status).log = log := by rw [heq]
  rw [hlog] at hmem
  rw [heq] at hcompletions ⊢
  constructor
  · exact h.nodup
  · exact h.allocated
  · intro j
    change update s.timer i false j = true ↔ _
    by_cases hj : j = i
    · simp [hj]
    · have hne : i ≠ j := fun heq => hj heq.symm
      have htimer := h.timer j
      simpa [hj, hne] using htimer
  · rintro j ⟨rfl⟩
    exact hi
  · intro j hj k hk
    obtain ⟨hlt, hsent⟩ := h.numbers j hj k hk
    exact ⟨hlt, hmem.mpr (.inl hsent)⟩
  · intro k hk
    by_cases hcb : (s.mem i).cb = some k
    · exact (h.numbers i hi k hcb).1
    · rw [hcompletions, if_neg hcb] at hk
      refine h.logged k (hk.imp_left fun hcalled => ?_)
      rcases hmem.mp hcalled with hold | ⟨k', -, hother⟩
      · exact hold
      · cases hother
  · intro k hk
    have hcalled : .called k ∈ s.log := by
      rcases hmem.mp hk with hold | ⟨k', -, hother⟩
      · exact hold
      · cases hother
    rw [hcompletions]
    have honce := h.once k hcalled
    have hcount := countP_holds_closing h.nodup hi k
    change s.completions k + _ + s.list.countP (s.holds (some i) k) = 1
    omega
  · change Proved log
    rw [← hlog]
    cases hcb : (s.mem i).cb with
    | none => exact h.proved
    | some k =>
      refine ⟨fun k' hk' => ?_, h.proved⟩
      cases hk'
      exact hproved rfl k hcb

theorem Inv.free (h : s.Inv (some i)) :
    Inv none { s with list := s.list.erase i, allocated := update s.allocated i false } := by
  constructor
  · exact h.nodup.erase i
  · intro j
    change update s.allocated i false j = true ↔ j ∈ s.list.erase i
    rw [h.nodup.mem_erase_iff]
    by_cases hj : j = i
    · simp [hj]
    · simp [hj, h.allocated j]
  · intro j
    change s.timer j = true ↔ j ∈ s.list.erase i ∧ _
    rw [h.nodup.mem_erase_iff, h.timer j]
    simp [and_comm, eq_comm]
  · rintro j ⟨⟩
  · exact fun j hj => h.numbers j (List.mem_of_mem_erase hj)
  · exact h.logged
  · intro k hk
    have hcount := countP_holds_erase h.nodup i k
    change s.completions k + (s.list.erase i).countP (s.holds none k) = 1
    rw [hcount]
    exact h.once k hk
  · exact h.proved

theorem Inv.finish (h : s.Inv none) (hi : i ∈ s.list) {inside : List Call}
    (hstarts : StartsInside env s i status inside)
    (hproved : status = transmitCompleteOk → ∀ k, (s.mem i).cb = some k → ∃ p rest, s.log = .acked p :: rest ∧ .sent (some k) p.seqNo ∈ rest) :
    Inv none ({ s with timer := update s.timer i false }.finish env i status inside) := by
  have hcompleted := h.complete hi hproved
  unfold State.finish
  dsimp only
  apply Inv.free
  split_ifs with hcb
  · exact Machine.run_invariant_of_admissible (fun t c hc ht => ht.sendDataZipAck hc) (hstarts hcb) hcompleted
  · exact hcompleted

theorem inv_receiveAck (h : s.Inv none) {p : Ack} {inside : List Call}
    (htimed : Timed env s (.ack p inside)) : (s.receiveAck env p inside).Inv none := by
  have hacked : (s.put (.acked p)).Inv none := h.note (by simp) (by simp)
  unfold receiveAck
  dsimp only
  cases hfind : (s.put (.acked p)).list.find? fun i => Session.matches ((s.put (.acked p)).mem i) p with
  | none => exact hacked
  | some i =>
    have hi : i ∈ s.list := List.mem_of_find?_eq_some hfind
    refine hacked.finish hi (htimed i hfind) fun _ k hk => ⟨p, s.log, rfl, ?_⟩
    have hseq : (s.mem i).seq = p.seqNo := by
      have hmatches := List.find?_some hfind
      simp only [Session.matches, decide_eq_true_eq] at hmatches
      exact hmatches.2.2.2.1
    rw [← hseq]
    exact (h.numbers i hi k hk).2

theorem inv_step (env : Env) (s : State) (e : Event) (htimed : Timed env s e) (h : s.Inv none) :
    (s.step env e).Inv none := by
  cases e with
  | send c => exact h.sendDataZipAck htimed
  | ack p inside => exact inv_receiveAck h htimed
  | timeout i inside =>
    change (s.ackSessionTimeout env i inside).Inv none
    unfold ackSessionTimeout
    split_ifs with htimer
    · refine h.finish ((h.timer i).mp htimer).1 (htimed htimer) fun hok => ?_
      cases hok
    · exact h
  | accepted conn | handshake conn | expired conn | closed conn => exact h.congr rfl rfl rfl rfl rfl rfl
  | initDone conn =>
    change (s.initDone conn).Inv none
    unfold State.initDone
    cases hfind : s.dtls.find? fun d => d.conn = conn with
    | none => exact h
    | some d =>
      dsimp only
      split_ifs with hqueue
      · have hsent : Inv none { s with
            dtls := s.dtls.map fun e => if e.conn = conn then { e with queue := 0 } else e } :=
          h.congr rfl rfl rfl rfl rfl rfl
        refine hsent.udpSendDone fun i hi => ?_
        exact (h.allocated i).mp (htimed d hfind hqueue i hi)
      · exact h.congr rfl rfl rfl rfl rfl rfl
  | otherTraffic conn =>
    change (State.dtlsSend _ _ _ _).Inv none
    unfold dtlsSend
    dsimp only
    cases s.dtls.find? fun d => d.conn = conn with
    | none => dsimp only; split_ifs <;> exact h.congr rfl rfl rfl rfl rfl rfl
    | some d => dsimp only; split_ifs <;> exact h.congr rfl rfl rfl rfl rfl rfl

/-- Every call is completed once, by the acknowledgement of its packet or by a timer, and its block is
free again. -/
theorem sessions_served (env : Env) (events : List Event)
    (htimed : Machine.Admissible (step env) (Timed env) init events) :
    (init.run env events).Served :=
  (Machine.run_invariant_of_admissible (inv_step env) htimed inv_init).served

def plainLan : Env where
  nodeOfIp := fun _ => 0
  hasIpv4 := fun _ _ => false
  portal := fun _ _ => false
  newSession := fun _ => true
  written := fun _ => true

def callTo (ip : IpAddr) : Call :=
  ⟨⟨ip, 1, zwavePort, zwavePort⟩, 0, 0, 2, true⟩

theorem twoCalls_served : (init.run plainLan
      [.send (callTo 0xfd00), .send (callTo 0xfd00), .ack ⟨0xfd00, 1, zwavePort, 1, 0, 0⟩ [],
        .timeout 0 []]).Served := by
  refine sessions_served plainLan _ ⟨fun _ => ?_, fun _ => ?_, ?_, ?_, trivial⟩
  · decide
  · decide
  · exact fun i _ _ => trivial
  · exact fun _ _ => trivial

/-- Four packets to IPv4 clients whose sender has no IPv4 address take all blocks, and no timer is ever
going to give one back. -/
theorem unreachableIpv4_not_served :
    let s := init.run plainLan (List.replicate 4 (.send (callTo 0xFFFF0A000001)))
    (∀ i, s.allocated i ∧ s.timer i = false) ∧ s.completions 0 = 0 ∧ ¬s.Served := by
  intro s
  have hblocks : ∀ i, s.allocated i ∧ s.timer i = false := by decide
  refine ⟨hblocks, by decide, fun h => ?_⟩
  have htimer := h.blocks 0 (hblocks 0).1
  rw [(hblocks 0).2] at htimer
  cases htimer

end State

end ZipGateway.UdpSession

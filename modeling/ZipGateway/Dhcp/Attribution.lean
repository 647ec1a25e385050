import ZipGateway.Dhcp.Client

/-!
# Whose address it is

The session of the DHCP client is about the entry it was started for, an address is given only to the
node that was offered it, or held it, and asked for it, and what a datagram says does not depend on what
is behind its end. This holds in the runs in which the NAT table does not change under the open session,
an ACK comes after the REQUEST, and the options of an OFFER end inside the datagram.
-/

namespace ZipGateway.Dhcp

open Machine (Admissible)

variable {site : Site}

section Claims

/-- Every address that is given to a node is one that the node asked for in a REQUEST, after it was
offered to it or it had held it. -/
def Assigned (site : Site) (log : List Out) : Prop :=
  ∀ before node xid suffix netmask after, log = before ++ .assigned node xid suffix netmask :: after →
    ∃ addr, .request (site.macOfNode node) xid addr ∈ before ∧ suffix = addr.suffix netmask ∧
      (.offered node addr ∈ before ∨ .held node addr ∈ before)

structure Attributed (site : Site) (s : State) : Prop where
  session : ∀ i, s.session = some i → i < s.natTableSize ∧ (s.natTable i).nodeid = s.startedFor
  assigned : Assigned site s.log

def State.lease (s : State) : Ip4 × Ip4 × Ip4 × Ip4 × UInt32 :=
  (s.ipaddr, s.netmask, s.defaultRouter, s.serverid, s.leaseTime)

def Event.SameInside : Event → Event → Prop
  | .datagram m len rand, e' => ∃ m', e' = .datagram m' len rand ∧ ∀ i < len, m i = m' i
  | e, e' => e' = e

def Attribution (site : Site) (events : List Event) : Prop :=
  Attributed site (run site events) ∧ ∀ events', List.Forall₂ Event.SameInside events events' →
      (run site events').lease = (run site events).lease

end Claims

section Condition

variable (m : Mem) (len : Nat)

def TypeInside : Nat → Nat → Prop
  | 0, _ => True
  | n + 1, pos =>
    pos < len →
      if m pos = optionMsgType then pos + 2 < len
      else m pos ≠ optionEnd → TypeInside n (nextOption m pos)

def isKept (type : UInt8) : Bool :=
  type = optionSubnetMask ∨ type = optionRouter ∨ type = optionDnsServer ∨ type = optionServerId ∨
    type = optionLeaseTime

def OptionsInside : Nat → Nat → Prop
  | 0, _ => False
  | n + 1, pos =>
    pos < len ∧ (m pos ≠ optionEnd →
      pos + 1 < len ∧ (isKept (m pos) = true → pos + 6 ≤ len) ∧ OptionsInside n (nextOption m pos))

instance : ∀ n pos, Decidable (TypeInside m len n pos)
  | 0, _ => isTrue trivial
  | n + 1, pos =>
    haveI : Decidable (TypeInside m len n (nextOption m pos)) := instDecidableTypeInside n _
    inferInstanceAs (Decidable (pos < len → if m pos = optionMsgType then pos + 2 < len
      else m pos ≠ optionEnd → TypeInside m len n (nextOption m pos)))

instance : ∀ n pos, Decidable (OptionsInside m len n pos)
  | 0, _ => isFalse id
  | n + 1, pos =>
    haveI : Decidable (OptionsInside m len n (nextOption m pos)) := instDecidableOptionsInside n _
    inferInstanceAs (Decidable (_ ∧ (_ → _ ∧ (_ → _) ∧ _)))

end Condition

/-- A datagram for the session of the entry at `i` can be read, and an ACK comes after the REQUEST. -/
structure Orderly (site : Site) (s : State) (m : Mem) (len i : Nat) : Prop where
  type : TypeInside m len len optionsOffset
  offer : s.state = .sendDiscover → findType m len len optionsOffset = some dhcpOffer →
    OptionsInside m len len optionsOffset
  ack : s.state = .sendRequest → findType m len len optionsOffset = some dhcpAck → s.requested = true

instance (site : Site) (s : State) (m : Mem) (len i : Nat) : Decidable (Orderly site s m len i) :=
  decidable_of_iff (TypeInside m len len optionsOffset ∧
      (s.state = .sendDiscover → findType m len len optionsOffset = some dhcpOffer →
        OptionsInside m len len optionsOffset) ∧
      (s.state = .sendRequest → findType m len len optionsOffset = some dhcpAck → s.requested = true))
    ⟨fun h => ⟨h.1, h.2.1, h.2.2⟩, fun h => ⟨h.type, h.offer, h.ack⟩⟩

/-- The entry of the open session stays where it is and keeps its node, and datagrams are orderly. -/
def Allowed (site : Site) (s : State) : Event → Prop
  | .delEntry node => node ≠ site.myNodeId → ∀ i ∈ s.session, ∀ k ∈ s.indexOf node, i < k
  | .delAllNodes => ∀ i ∈ s.session, i = 0 ∧ State.myIndex site s = 0
  | .renameNode old new => ∀ i ∈ s.session, (s.natTable i).nodeid = old → new = old
  | .datagram m len _ => ∀ i ∈ s.session, optionsOffset < len → s.isAnswered site m i = true →
      Orderly site s m len i
  | .addEntry _ _ | .poll _ | .tick _ | .abort _ => True

instance (site : Site) (s : State) : ∀ e : Event, Decidable (Allowed site s e)
  | .delEntry _ => inferInstanceAs (Decidable (_ ≠ _ → ∀ i ∈ s.session, ∀ k ∈ s.indexOf _, i < k))
  | .delAllNodes => inferInstanceAs (Decidable (∀ i ∈ s.session, i = 0 ∧ State.myIndex site s = 0))
  | .renameNode old new =>
    inferInstanceAs (Decidable (∀ i ∈ s.session, (s.natTable i).nodeid = old → new = old))
  | .datagram m len _ => inferInstanceAs (Decidable (∀ i ∈ s.session, optionsOffset < len →
      s.isAnswered site m i = true → Orderly site s m len i))
  | .addEntry _ _ | .poll _ | .tick _ | .abort _ => isTrue trivial

variable {off : Nat}

section Reading

variable {m m' : Mem} {len : Nat} {s : State}

theorem wordAt_congr (h : ∀ i < len, m i = m' i) (hoff : off + 2 ≤ len) : wordAt m off = wordAt m' off := by
  unfold wordAt
  rw [h off (by omega), h (off + 1) (by omega)]

theorem ip4At_congr (h : ∀ i < len, m i = m' i) (hoff : off + 4 ≤ len) : ip4At m off = ip4At m' off := by
  unfold ip4At
  rw [wordAt_congr h (by omega), wordAt_congr h (by omega)]

theorem longAt_congr (h : ∀ i < len, m i = m' i) (hoff : off + 4 ≤ len) : longAt m off = longAt m' off := by
  unfold longAt
  rw [wordAt_congr h (by omega), wordAt_congr h (by omega)]

theorem nextOption_congr {pos : Nat} (h : ∀ i < len, m i = m' i) (hpos : pos + 1 < len) :
    nextOption m pos = nextOption m' pos := by
  unfold nextOption
  rw [h (pos + 1) hpos]

theorem isAnswered_congr {i : Nat} (h : ∀ i < len, m i = m' i) (hlen : optionsOffset < len) :
    s.isAnswered site m i = s.isAnswered site m' i := by
  unfold State.isAnswered
  have hlen : 240 < len := hlen
  have hchaddr : m.slice chaddrOffset 6 = m'.slice chaddrOffset 6 := by
    refine Mem.slice_congr fun j _ hj => h j ?_
    have hj : j < 28 + 6 := hj
    omega
  rw [h 0 (by omega), longAt_congr h (by omega), hchaddr]

theorem takeOption_congr {pos : Nat} (h : ∀ i < len, m i = m' i) (hpos : pos < len)
    (hkept : isKept (m pos) = true → pos + 6 ≤ len) : s.takeOption m pos = s.takeOption m' pos := by
  unfold State.takeOption
  rw [← h pos hpos]
  unfold isKept at hkept
  split_ifs with hsubnet hrouter hdns hserver hlease
  · rw [ip4At_congr h (by have := hkept (by simp [hsubnet]); omega)]
  · rw [ip4At_congr h (by have := hkept (by simp [hrouter]); omega)]
  · rw [ip4At_congr h (by have := hkept (by simp [hdns]); omega)]
  · rw [ip4At_congr h (by have := hkept (by simp [hserver]); omega)]
  · rw [longAt_congr h (by have := hkept (by simp [hlease]); omega)]
  · rfl

theorem findType_congr (h : ∀ i < len, m i = m' i) {n pos : Nat} (hinside : TypeInside m len n pos) :
    findType m len n pos = findType m' len n pos := by
  induction n generalizing pos with
  | zero => rfl
  | succ n ih =>
    unfold findType
    unfold TypeInside at hinside
    by_cases hpos : pos < len
    · rw [if_pos hpos, if_pos hpos, ← h pos hpos]
      have hinside := hinside hpos
      by_cases htype : m pos = optionMsgType
      · rw [if_pos htype] at hinside
        rw [if_pos htype, if_pos htype, h _ hinside]
      · rw [if_neg htype] at hinside
        rw [if_neg htype, if_neg htype]
        by_cases hend : m pos = optionEnd
        · rw [if_pos hend, if_pos hend]
        · rw [if_neg hend, if_neg hend]
          by_cases hnext : pos + 1 < len
          · rw [← nextOption_congr h hnext]
            exact ih (hinside hend)
          · -- the length byte is outside, and whatever it is, the datagram is at its end
            have hstop : ∀ k : Mem, findType k len n (nextOption k pos) = none := by
              intro k
              cases n with
              | zero => rfl
              | succ n =>
                unfold findType
                rw [if_neg]
                unfold nextOption
                omega
            rw [hstop, hstop]
    · rw [if_neg hpos, if_neg hpos]

theorem parseOptions_congr (h : ∀ i < len, m i = m' i) {stop n pos : Nat}
    (hinside : OptionsInside m len n pos) (s : State) :
    parseOptions m stop n pos s = parseOptions m' stop n pos s := by
  induction n generalizing pos s with
  | zero => exact hinside.elim
  | succ n ih =>
    obtain ⟨hpos, hinside⟩ := hinside
    unfold parseOptions
    rw [← h pos hpos]
    by_cases hend : m pos = optionEnd
    · rw [if_pos hend, if_pos hend]
    · obtain ⟨hnext, hkept, hrest⟩ := hinside hend
      rw [if_neg hend, if_neg hend, takeOption_congr h hpos hkept, ← nextOption_congr h hnext, ih hrest]

theorem parseMsg_congr {i : Nat} (h : ∀ i < len, m i = m' i) (hlen : optionsOffset < len)
    (hinside : OptionsInside m len len optionsOffset) :
    parseMsg site m s len i = parseMsg site m' s len i := by
  have hlen' : 240 < len := hlen
  have haddr : ip4At m yiaddrOffset = ip4At m' yiaddrOffset :=
    ip4At_congr h (by show 16 + 4 ≤ len; omega)
  unfold parseMsg
  rw [isAnswered_congr h hlen, haddr]
  simp only [parseOptions_congr h hinside]

theorem msgForMe_of_len_le (hlen : len ≤ optionsOffset) : msgForMe site m s len = none := by
  unfold msgForMe
  have hnone : findType m len len optionsOffset = none := by
    cases len with
    | zero => rfl
    | succ n =>
      unfold findType
      rw [if_neg (by omega)]
  rw [hnone]
  split
  · rfl
  · simp

theorem datagram_congr {rand : UInt32} (h : ∀ i < len, m i = m' i) (hallowed : Allowed site s (.datagram m len rand)) :
    datagram site s rand m' len = datagram site s rand m len := by
  by_cases hlen : optionsOffset < len
  · unfold datagram
    unfold Allowed at hallowed
    cases hsession : s.session with
    | none => simp only [msgForMe, hsession]
    | some i =>
      by_cases hanswered : s.isAnswered site m i = true
      · have horderly := hallowed i hsession hlen hanswered
        have htype : msgForMe site m' s len = msgForMe site m s len := by
          simp only [msgForMe, hsession]
          rw [← isAnswered_congr h hlen, findType_congr h horderly.type]
        have hfound : msgForMe site m s len = findType m len len optionsOffset := by
          simp only [msgForMe, hsession, hanswered, if_pos]
        rw [htype, hfound]
        cases hfind : findType m len len optionsOffset with
        | none => rfl
        | some type =>
          simp only [updateCurrent, hsession]
          by_cases hoffer : type = dhcpOffer
          · rw [if_pos hoffer, if_pos hoffer]
            unfold updateRecvOffer
            by_cases hstate : s.state = .sendDiscover
            · have hinside := horderly.offer hstate (hfind.trans (by rw [hoffer]))
              rw [if_pos hstate, if_pos hstate, parseMsg_congr h hlen hinside]
            · rw [if_neg hstate, if_neg hstate]
          · rw [if_neg hoffer, if_neg hoffer]
      · have hanswered' : ¬s.isAnswered site m' i = true := by
          rwa [← isAnswered_congr h hlen]
        simp [msgForMe, hsession, hanswered, hanswered']
  · unfold datagram
    rw [msgForMe_of_len_le (by omega), msgForMe_of_len_le (by omega)]

theorem step_congr {e e' : Event} (h : e.SameInside e') (hallowed : Allowed site s e) :
    step site s e' = step site s e := by
  unfold step
  split
  · rfl
  · cases e with
    | datagram m len rand =>
      obtain ⟨m', rfl, hsame⟩ := h
      exact datagram_congr hsame hallowed
    | _ =>
      obtain rfl := h
      rfl

theorem run_congr {events events' : List Event} (h : List.Forall₂ Event.SameInside events events')
    (hevents : Admissible (step site) (Allowed site) s events) :
    Machine.run (step site) s events' = Machine.run (step site) s events := by
  induction h generalizing s with
  | nil => rfl
  | cons hsame _ ih =>
    rw [Machine.run_cons, Machine.run_cons, step_congr hsame hevents.1]
    exact ih hevents.2

end Reading

section Invariant

variable {s t : State} {rand : UInt32} {i : Nat}

theorem Assigned.put {log : List Out} (h : Assigned site log) {x : Out}
    (hx : ∀ node xid suffix netmask, x = .assigned node xid suffix netmask →
      ∃ addr, .request (site.macOfNode node) xid addr ∈ log ∧ suffix = addr.suffix netmask ∧
        (.offered node addr ∈ log ∨ .held node addr ∈ log)) : Assigned site (log ++ [x]) := by
  intro before node xid suffix netmask after heq
  obtain rfl | ⟨after, z, rfl⟩ := List.eq_nil_or_concat after
  · obtain ⟨rfl, hxy⟩ := List.append_inj' heq rfl
    exact hx node xid suffix netmask (by simpa using hxy)
  · have hcut : log ++ [x] = (before ++ .assigned node xid suffix netmask :: after) ++ [z] := by
      simpa using heq
    obtain ⟨hlog, -⟩ := List.append_inj' hcut rfl
    exact h before node xid suffix netmask after hlog

structure Answer (site : Site) (s : State) : Prop where
  source : .offered s.startedFor s.ipaddr ∈ s.log ∨ .held s.startedFor s.ipaddr ∈ s.log
  sent : s.requested = true → .request (site.macOfNode s.startedFor) s.xid s.ipaddr ∈ s.log

structure Inv (site : Site) (s : State) : Prop extends Attributed site s where
  answer : s.state = .sendRequest → Answer site s

theorem inv_init : Inv site .init where
  session := by simp [State.init]
  assigned := by
    intro before node xid suffix netmask after h
    simp [State.init] at h
  answer := by simp [State.init]

theorem Attributed.congr (h : Attributed site s) (hsession : t.session = s.session)
    (hstarted : t.startedFor = s.startedFor) (hsize : t.natTableSize = s.natTableSize)
    (hnode : ∀ i, (t.natTable i).nodeid = (s.natTable i).nodeid) (hlog : t.log = s.log) :
    Attributed site t := by
  refine ⟨?_, hlog ▸ h.assigned⟩
  intro i hi
  rw [hsession] at hi
  rw [hsize, hnode, hstarted]
  exact h.session i hi

theorem Attributed.put (h : Attributed site s) {x : Out}
    (hx : ∀ node xid suffix netmask, x ≠ .assigned node xid suffix netmask) :
    Attributed site (s.put x) :=
  ⟨h.session, h.assigned.put fun node xid suffix netmask heq => absurd heq (hx node xid suffix netmask)⟩

theorem Attributed.putCongr (h : Attributed site s) {x : Out}
    (hx : ∀ node xid suffix netmask, x ≠ .assigned node xid suffix netmask)
    (hlog : t.log = s.log ++ [x]) (hsession : t.session = s.session)
    (hstarted : t.startedFor = s.startedFor) (hsize : t.natTableSize = s.natTableSize)
    (hnode : ∀ i, (t.natTable i).nodeid = (s.natTable i).nodeid) : Attributed site t :=
  (h.put hx).congr hsession hstarted hsize hnode hlog

theorem Attributed.start (h : Attributed site s) (hi : i < t.natTableSize)
    (hsession : t.session = some i) (hstarted : t.startedFor = (t.natTable i).nodeid)
    (hlog : t.log = s.log) : Attributed site t := by
  refine ⟨?_, hlog ▸ h.assigned⟩
  intro j hj
  obtain rfl : i = j := Option.some.inj (hsession.symm.trans hj)
  exact ⟨hi, hstarted.symm⟩

theorem lt_of_searchTable {p : Entry → Bool} (h : s.searchTable p = .at i) : i < s.natTableSize := by
  unfold State.searchTable at h
  split at h
  · rename_i j hj
    obtain rfl : j = i := by simpa using h
    have := List.mem_range.mp (List.mem_of_find?_eq_some hj)
    omega
  · split_ifs at h

theorem Attributed.startFound (h : Attributed site s) (hidle : s.state = .idle) {p : Entry → Bool}
    (hfound : startFound s rand (s.searchTable p) = some t) : Inv site t := by
  cases hsearch : s.searchTable p with
  | «at» i =>
    rw [hsearch] at hfound
    obtain rfl : startDiscover s rand i = t := by simpa [Dhcp.startFound] using hfound
    refine ⟨h.start (lt_of_searchTable hsearch) rfl rfl rfl, ?_⟩
    simp [startDiscover]
  | nothing => simp [hsearch, Dhcp.startFound] at hfound
  | forever =>
    rw [hsearch] at hfound
    obtain rfl : { s with hung := true } = t := by simpa [Dhcp.startFound] using hfound
    refine ⟨h.congr rfl rfl rfl (fun _ => rfl) rfl, ?_⟩
    simp [hidle]

theorem Attributed.discoverNext (h : Attributed site s) (hidle : s.state = .idle) :
    Inv site (discoverNext site s rand) := by
  simp only [Dhcp.discoverNext]
  split
  · rename_i t hown
    split_ifs at hown
    exact h.startFound hidle hown
  · split
    · rename_i t hfound
      exact h.startFound hidle hfound
    · unfold allAssigned
      split
      · exact ⟨h.put (by simp), by simp [State.put, hidle]⟩
      · exact ⟨h.putCongr (by simp) rfl rfl rfl rfl fun _ => rfl, by simp [State.put, hidle]⟩

theorem Attributed.checkForNewSessions (h : Attributed site s) (hanswer : s.state = .sendRequest → Answer site s) :
    Inv site (checkForNewSessions site s rand) := by
  unfold Dhcp.checkForNewSessions
  split
  · exact ⟨h, hanswer⟩
  · rename_i hidle
    have hidle : s.state = .idle := by simpa using hidle
    split
    · rename_i hlt
      split
      · refine ⟨(h.put (x := .held _ _) (by simp)).start hlt rfl rfl rfl, ?_⟩
        intro _
        refine ⟨.inr ?_, by simp [startRenew]⟩
        simp [startRenew, State.put]
      · exact Attributed.discoverNext (h.congr rfl rfl rfl (fun _ => rfl) rfl) hidle
    · exact h.discoverNext hidle

theorem Attributed.updateIdle (h : Attributed site s) : Inv site (updateIdle site s rand) := by
  unfold Dhcp.updateIdle
  refine Attributed.checkForNewSessions ⟨?_, h.assigned⟩ (by simp)
  intro i hi
  cases hi

theorem Attributed.updateSendRequest (h : Attributed site s) (hi : s.session = some i)
    (hsource : .offered s.startedFor s.ipaddr ∈ s.log ∨ .held s.startedFor s.ipaddr ∈ s.log)
    (hanswer : s.state = .sendRequest → Answer site s) :
    Inv site (updateSendRequest site s i) := by
  unfold Dhcp.updateSendRequest
  split
  · obtain ⟨-, hnode⟩ := h.session i hi
    refine ⟨h.putCongr (by simp) rfl rfl rfl rfl fun _ => rfl, ?_⟩
    intro _
    refine ⟨?_, fun _ => ?_⟩
    · simp only [sendRequest, State.put, List.mem_append]
      exact hsource.imp Or.inl Or.inl
    · simp [sendRequest, State.put, hnode]
  · exact ⟨h, hanswer⟩

theorem Attributed.updateSendDiscover (h : Attributed site s) (hi : s.session = some i)
    (hanswer : s.state = .sendRequest → Answer site s) : Inv site (updateSendDiscover site s i) := by
  unfold Dhcp.updateSendDiscover
  split
  · rename_i hstate
    split
    · rename_i hown
      obtain ⟨-, hnode⟩ := h.session i hi
      refine Attributed.updateSendRequest ?_ hi ?_ ?_
      · exact h.putCongr (by simp) rfl rfl rfl rfl fun _ => rfl
      · refine .inr ?_
        simp [State.put, ← hnode, hown.1]
      · intro hs
        have hs : s.state = .sendRequest := hs
        simp [hs] at hstate
    · refine ⟨?_, by simp⟩
      exact h.putCongr (by simp) rfl rfl rfl rfl fun _ => rfl
  · exact ⟨h, hanswer⟩

structure SameSession (s t : State) : Prop where
  natTable : t.natTable = s.natTable
  natTableSize : t.natTableSize = s.natTableSize
  session : t.session = s.session
  startedFor : t.startedFor = s.startedFor
  ipaddr : t.ipaddr = s.ipaddr
  log : t.log = s.log

theorem sameSession_takeOption (m : Mem) (pos : Nat) : SameSession s (s.takeOption m pos) := by
  unfold State.takeOption
  simp only
  split_ifs
  all_goals exact ⟨rfl, rfl, rfl, rfl, rfl, rfl⟩

theorem SameSession.trans {u : State} (h : SameSession s t) (h' : SameSession t u) : SameSession s u :=
  ⟨h'.natTable.trans h.natTable, h'.natTableSize.trans h.natTableSize, h'.session.trans h.session,
    h'.startedFor.trans h.startedFor, h'.ipaddr.trans h.ipaddr, h'.log.trans h.log⟩

theorem sameSession_parseOptions (m : Mem) (stop n pos : Nat) (s : State) :
    SameSession s (parseOptions m stop n pos s) := by
  induction n generalizing pos s with
  | zero => exact ⟨rfl, rfl, rfl, rfl, rfl, rfl⟩
  | succ n ih =>
    unfold parseOptions
    split_ifs
    · exact ⟨rfl, rfl, rfl, rfl, rfl, rfl⟩
    · exact (sameSession_takeOption m pos).trans (ih _ _)
    · exact ⟨rfl, rfl, rfl, rfl, rfl, rfl⟩

theorem Inv.updateRecvOffer (h : Inv site s) (hi : s.session = some i) {m : Mem} {len : Nat}
    (hanswered : s.isAnswered site m i = true) : Inv site (updateRecvOffer site s m len i) := by
  unfold Dhcp.updateRecvOffer
  split
  · obtain ⟨-, hnode⟩ := h.session i hi
    simp only [parseMsg, if_pos hanswered]
    generalize ht : ({ s with ipaddr := ip4At m yiaddrOffset }.put
      (.offered (s.natTable i).nodeid (ip4At m yiaddrOffset))) = t
    have hkept := sameSession_parseOptions m (optionsOffset + len) len optionsOffset t
    generalize parseOptions m (optionsOffset + len) len optionsOffset t = u at hkept
    subst ht
    have hput : Attributed site ({ s with ipaddr := ip4At m yiaddrOffset }.put
        (.offered (s.natTable i).nodeid (ip4At m yiaddrOffset))) :=
      h.toAttributed.putCongr (by simp) rfl rfl rfl rfl fun _ => rfl
    refine ⟨hput.congr hkept.session hkept.startedFor hkept.natTableSize
      (fun j => by rw [hkept.natTable]) hkept.log, ?_⟩
    intro _
    refine ⟨.inl ?_, by simp⟩
    show Out.offered u.startedFor u.ipaddr ∈ u.log
    rw [hkept.startedFor, hkept.ipaddr, hkept.log]
    simp [State.put, hnode]
  · exact h

theorem Inv.updateRecvAck (h : Inv site s) (hi : s.session = some i)
    (hrequested : s.state = .sendRequest → s.requested = true) :
    Inv site (updateRecvAck site s rand i) := by
  unfold Dhcp.updateRecvAck
  split
  · rename_i hstate
    obtain ⟨hlt, hnode⟩ := h.session i hi
    have hanswer := h.answer hstate
    have hassigned : Attributed site ((s.setEntry i { s.natTable i with ipSuffix := s.ipaddr.suffix s.netmask }).put
          (.assigned (s.natTable i).nodeid s.xid (s.ipaddr.suffix s.netmask) s.netmask)) := by
      refine ⟨?_, h.assigned.put ?_⟩
      · intro j hj
        obtain rfl : i = j := Option.some.inj (hi.symm.trans hj)
        refine ⟨hlt, ?_⟩
        simpa [State.put, State.setEntry] using hnode
      · rintro node xid suffix netmask ⟨rfl, rfl, rfl, rfl⟩
        rw [hnode]
        exact ⟨s.ipaddr, hanswer.sent (hrequested hstate), rfl, hanswer.source⟩
    refine Attributed.updateIdle ?_
    split
    · exact hassigned.congr rfl rfl rfl (fun _ => rfl) rfl
    · exact hassigned
  · exact h

theorem nodeid_update {e : Entry} (he : e.nodeid = (s.natTable i).nodeid) (j : Nat) :
    (Function.update s.natTable i e j).nodeid = (s.natTable j).nodeid := by
  by_cases hj : j = i
  · rw [hj, Function.update_self, he]
  · rw [Function.update_of_ne hj]

theorem Inv.updateRecvNak (h : Inv site s) : Inv site (updateRecvNak site s i) := by
  unfold Dhcp.updateRecvNak
  split
  · rename_i hstate
    have hanswer := h.answer hstate
    simp only
    split
    · refine ⟨h.toAttributed.congr rfl rfl rfl (nodeid_update rfl) rfl, fun _ => ?_⟩
      exact ⟨hanswer.source, hanswer.sent⟩
    · refine ⟨h.toAttributed.congr rfl rfl rfl (nodeid_update rfl) rfl, fun _ => ?_⟩
      exact ⟨hanswer.source, hanswer.sent⟩
  · exact h

theorem Inv.updateTimeOut (h : Inv site s) (hi : s.session = some i) : Inv site (updateTimeOut site s rand i) := by
  unfold Dhcp.updateTimeOut
  have hput : Attributed site (s.put (.timedOut (s.natTable i).nodeid)) := h.put (by simp)
  simp only
  split
  · rename_i hstate
    have hstate : s.state = .sendDiscover := hstate
    exact hput.updateSendDiscover hi fun hs => by
      have hs : s.state = .sendRequest := hs
      rw [hstate] at hs
      cases hs
  · exact Attributed.updateIdle (hput.congr rfl rfl rfl (fun _ => rfl) rfl)

theorem Answer.congr (h : Answer site s) (hstarted : t.startedFor = s.startedFor)
    (hipaddr : t.ipaddr = s.ipaddr) (hxid : t.xid = s.xid) (hrequested : t.requested = s.requested)
    (hlog : t.log = s.log) : Answer site t := by
  refine ⟨?_, ?_⟩
  · rw [hstarted, hipaddr, hlog]
    exact h.source
  · rw [hstarted, hipaddr, hlog, hxid, hrequested]
    exact h.sent

theorem Inv.updatePoll (h : Inv site s) : Inv site (updatePoll site s rand) := by
  have hidle : Attributed site { s with state := .idle } :=
    h.toAttributed.congr rfl rfl rfl (fun _ => rfl) rfl
  have hkept : Inv site { s with state := .idle } := ⟨hidle, by simp⟩
  unfold Dhcp.updatePoll updateCurrent
  split
  · exact hkept
  · rename_i i hi
    split
    · exact hidle.updateIdle
    · exact hidle.updateSendDiscover hi (by simp)
    · exact hkept
    · rename_i hstate
      exact hidle.updateSendRequest hi (h.answer hstate).source (by simp)
    · exact hkept
    · exact hkept
    · exact hkept.updateTimeOut hi

theorem Inv.datagram (h : Inv site s) {m : Mem} {len : Nat}
    (hallowed : Allowed site s (.datagram m len rand)) : Inv site (datagram site s rand m len) := by
  unfold Dhcp.datagram
  split
  · rename_i type htype
    unfold msgForMe at htype
    split at htype
    · cases htype
    · rename_i i hi
      split at htype
      · rename_i hanswered
        have hlen : optionsOffset < len := by
          by_contra hle
          have hnone : msgForMe site m s len = none := msgForMe_of_len_le (Nat.le_of_not_lt hle)
          simp only [msgForMe, hi, hanswered, if_pos, htype] at hnone
          cases hnone
        have horderly := hallowed i hi hlen hanswered
        simp only [updateCurrent, hi]
        split
        · exact h.updateRecvOffer hi hanswered
        · split
          · rename_i hack
            exact h.updateRecvAck hi fun hstate => horderly.ack hstate (hack ▸ htype)
          · split
            · exact h.updateRecvNak
            · exact h
      · cases htype
  · exact h

theorem Inv.countSession (h : Inv site s) : Inv site (countSession site s rand) := by
  unfold Dhcp.countSession
  split
  · have hdown : Inv site { s with sessionTimeout := s.sessionTimeout - 1 } :=
      ⟨h.toAttributed.congr rfl rfl rfl (fun _ => rfl) rfl, fun hs =>
        (h.answer hs).congr rfl rfl rfl rfl rfl⟩
    simp only
    split
    · unfold updateCurrent
      split
      · exact hdown
      · rename_i i hi
        exact hdown.updateTimeOut hi
    · exact hdown
  · exact h

theorem Inv.countLease (h : Inv site s) : Inv site (countLease s) := by
  unfold Dhcp.countLease
  split
  · refine ⟨h.toAttributed.congr rfl rfl rfl ?_ rfl, fun hs => (h.answer hs).congr rfl rfl rfl rfl rfl⟩
    intro i
    simp only
    split <;> rfl
  · exact ⟨h.toAttributed.congr rfl rfl rfl (fun _ => rfl) rfl, fun hs =>
      (h.answer hs).congr rfl rfl rfl rfl rfl⟩

theorem Inv.renewAll (h : Inv site s) : Inv site (renewAll site s rand) := by
  unfold Dhcp.renewAll
  split
  · refine Attributed.checkForNewSessions (h.toAttributed.congr rfl rfl rfl (fun _ => rfl) rfl) ?_
    exact fun hs => (h.answer hs).congr rfl rfl rfl rfl rfl
  · exact h

theorem Inv.tick (h : Inv site s) : Inv site (tick site s rand) := by
  unfold Dhcp.tick
  simp only
  split
  · exact h.countSession
  · exact h.countSession.countLease.renewAll

theorem Inv.addEntry (h : Inv site s) (node : NodeId) : Inv site (addEntry site s rand node) := by
  unfold Dhcp.addEntry
  split
  · exact h
  split
  · exact h
  refine Attributed.checkForNewSessions ⟨?_, h.assigned⟩ ?_
  · intro i hi
    obtain ⟨hlt, hnode⟩ := h.session i hi
    refine ⟨Nat.lt_succ_of_lt hlt, ?_⟩
    simpa [State.setEntry, Function.update_of_ne (Nat.ne_of_lt hlt)] using hnode
  · exact fun hs => (h.answer hs).congr rfl rfl rfl rfl rfl

theorem lt_of_indexOf {node : NodeId} {k : Nat} (h : s.indexOf node = some k) : k < s.natTableSize :=
  List.mem_range.mp (List.mem_of_find?_eq_some h)

@[simp]
theorem natTable_dhcpRelease (s : State) (i : Nat) : (dhcpRelease s i).natTable = s.natTable := by
  unfold dhcpRelease
  split <;> rfl

@[simp]
theorem session_dhcpRelease (s : State) (i : Nat) : (dhcpRelease s i).session = s.session := by
  unfold dhcpRelease
  split <;> rfl

theorem Inv.dhcpRelease (h : Inv site s) (i : Nat) : Inv site (dhcpRelease s i) := by
  unfold Dhcp.dhcpRelease
  split
  · refine ⟨h.put (by simp), fun hs => ⟨?_, fun hr => ?_⟩⟩
    · exact (h.answer hs).source.imp (List.mem_append_left _) (List.mem_append_left _)
    · exact List.mem_append_left _ ((h.answer hs).sent hr)
  · exact h

theorem Inv.setTable (h : Inv site s) {natTable : Nat → Entry} {size : Nat}
    (htable : ∀ i, s.session = some i → i < s.natTableSize → i < size ∧ (natTable i).nodeid = (s.natTable i).nodeid) :
    Inv site { s with natTable := natTable, natTableSize := size } := by
  refine ⟨⟨?_, h.assigned⟩, fun hs => (h.answer hs).congr rfl rfl rfl rfl rfl⟩
  intro i hi
  obtain ⟨hlt, hnode⟩ := h.session i hi
  obtain ⟨hlt', hsame⟩ := htable i hi hlt
  exact ⟨hlt', hsame.trans hnode⟩

theorem Inv.delEntry (h : Inv site s) {node : NodeId} (hallowed : Allowed site s (.delEntry node)) :
    Inv site (delEntry site s node) := by
  unfold Dhcp.delEntry
  split
  · exact h
  rename_i hown
  split
  · exact h
  rename_i k hk
  refine (h.dhcpRelease k).setTable ?_
  intro i hi _
  rw [session_dhcpRelease] at hi
  have hik := hallowed hown i hi k hk
  have hks := lt_of_indexOf hk
  refine ⟨by omega, ?_⟩
  rw [if_neg (by omega), natTable_dhcpRelease]

theorem inv_releases {p : Nat → Prop} [DecidablePred p] (indices : List Nat) (h : Inv site s) :
    let t := indices.foldl (fun t i => if p i then t else dhcpRelease t i) s
    Inv site t ∧ t.natTable = s.natTable ∧ t.session = s.session := by
  induction indices generalizing s with
  | nil => exact ⟨h, rfl, rfl⟩
  | cons i indices ih =>
    simp only [List.foldl_cons]
    split
    · exact ih h
    · obtain ⟨hinv, htable, hsession⟩ := ih (h.dhcpRelease i)
      exact ⟨hinv, htable.trans (natTable_dhcpRelease s i), hsession.trans (session_dhcpRelease s i)⟩

theorem Inv.delAllNodes (h : Inv site s) (hallowed : Allowed site s .delAllNodes) : Inv site (delAllNodes site s) := by
  unfold Dhcp.delAllNodes
  obtain ⟨hinv, htable, hsession⟩ :=
    inv_releases (p := fun i => (s.natTable i).nodeid = site.myNodeId) (List.range s.natTableSize) h
  refine hinv.setTable ?_
  intro i hi _
  rw [hsession] at hi
  obtain ⟨rfl, hmine⟩ := hallowed i hi
  refine ⟨Nat.one_pos, ?_⟩
  simp [State.setEntry, hmine, htable]

theorem Inv.renameNode (h : Inv site s) {old new : NodeId}
    (hallowed : Allowed site s (.renameNode old new)) : Inv site (renameNode s old new) := by
  unfold Dhcp.renameNode
  refine h.setTable ?_
  intro i hi hlt
  refine ⟨hlt, ?_⟩
  split
  · rename_i hold
    rw [hallowed i hi hold.2]
    exact hold.2.symm
  · rfl

theorem inv_step (h : Inv site s) {e : Event} (he : Allowed site s e) : Inv site (step site s e) := by
  unfold step
  split
  · exact h
  cases e with
  | addEntry node rand => exact h.addEntry node
  | delEntry node => exact h.delEntry he
  | delAllNodes => exact h.delAllNodes he
  | renameNode old new => exact h.renameNode he
  | datagram m len rand => exact h.datagram he
  | poll rand => exact h.updatePoll
  | tick rand => exact h.tick
  | abort rand =>
    simp only [react, updateCurrent]
    split
    · exact h
    · exact h.toAttributed.updateIdle

end Invariant

/-- Addresses are attributed as claimed in every run of allowed events. -/
theorem dhcp_attributed (site : Site) (events : List Event)
    (hevents : Admissible (step site) (Allowed site) .init events) : Attribution site events := by
  refine ⟨?_, ?_⟩
  · exact (Machine.run_invariant_of_admissible (fun _ _ he h => inv_step h he) hevents inv_init).toAttributed
  · intro events' hsame
    unfold run
    rw [run_congr hsame hevents]

def someSite : Site := ⟨1, 0xC0FFEE01, [2, 0, 0, 0, 0, 1]⟩

def serverMessage (type : UInt8) (xid : Bytes) (yiaddr : Bytes) (chaddr : Bytes) : Mem :=
  Mem.ofBytes ([dhcpReply, 1, 6, 0] ++ xid ++ List.replicate 8 0 ++ yiaddr ++ List.replicate 8 0 ++
    chaddr ++ List.replicate 206 0 ++
    [optionMsgType, 1, type, optionSubnetMask, 4, 255, 255, 255, 0, optionLeaseTime, 4, 0, 0, 14, 16, optionEnd])

def twoNodes : List Event :=
  [.addEntry 5 0x01020304, .addEntry 7 0, .addEntry 6 0, .poll 0,
    .datagram (serverMessage dhcpOffer [1, 2, 3, 4] [10, 0, 0, 9] (someSite.macOfNode 5)) 256 0, .poll 0,
    .datagram (serverMessage dhcpAck [1, 2, 3, 4] [10, 0, 0, 9] (someSite.macOfNode 5)) 256 0x05060708,
    .delEntry 6, .poll 0, .tick 0, .abort 9]

theorem twoNodes_attributed : Attribution someSite twoNodes :=
  dhcp_attributed someSite twoNodes (by decide)

def leavingNode : List Event :=
  [.addEntry 5 0x01020304, .addEntry 6 0, .delEntry 5]

theorem dhcp_not_attributed : ¬Attribution someSite leavingNode := by
  intro h
  have hnode := (h.1.session 0 rfl).2
  exact absurd hnode (by decide)

end ZipGateway.Dhcp

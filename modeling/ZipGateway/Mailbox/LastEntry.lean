import ZipGateway.Mailbox.Transitions

/-!
# The entry the state machine points at

The pointer `last_entry` is set to elements of `mb_list` only, and the entry it points at is taken
off the list by the state machine alone, which moves it on first. The exception is
`mb_failing_notify_byip`: it frees the entries that have been in the mailbox for too long, whether
one of them is being sent or not. As long as that does not happen the pointer is good.
-/

set_option maxRecDepth 8000

namespace ZipGateway.Mailbox

/-- The list is a list of blocks in use, each of them once. -/
structure Sound (s : State) : Prop where
  nodup : s.list.Nodup
  used : ∀ b ∈ s.list, s.count b = true

/-- The pointer is null, or the entry it points at is on the list and not freed. -/
def ValidLast (s : State) : Prop :=
  ∀ b, s.lastEntry = some b → b ∈ s.list ∧ s.count b = true

structure Linked (s : State) : Prop extends Sound s where
  last : ∀ b, s.lastEntry = some b → b ∈ s.list

def Fsm.isSending : Fsm → Bool
  | .sending | .sendingPing | .sendingThroughProxy | .sendingFromProxy | .sendingLastFromProxy =>
    true
  | _ => false

section Condition

def SparesLast (w : World) (s : State) (ip : Bytes) : Prop :=
  ∀ b ∈ s.lastEntry, outlived w s ip b = false

def SparesLastOnPost (w : World) (s : State) (buf : Bytes) : Prop :=
  let dnode := w.nodeOfIp (destIpAddr buf)
  w.nodeFailing dnode = true → s.confMode ≠ disableMailbox →
    s.confMode ≠ enableMailboxProxyForwarding → SparesLast w s (w.ipOfNode dnode)

/-- No entry is freed for its age while the machine points at it. -/
def Spared (s : State) : World × Event → Prop
  | (w, .post buf) => SparesLastOnPost w s buf
  | (w, .command _ (.nodeFailing nodeIp)) => SparesLast w s nodeIp
  | (w, .command _ (.queue param1 _ entry)) =>
    param1 &&& 0x7 = mailboxPush → SparesLastOnPost w s entry
  | (w, .failing node) =>
    s.confMode ≠ enableMailboxProxyForwarding → SparesLast w s (w.ipOfNode node)
  | _ => True

instance (w : World) (s : State) (ip : Bytes) : Decidable (SparesLast w s ip) :=
  inferInstanceAs (Decidable (∀ b ∈ s.lastEntry, _))

instance (w : World) (s : State) (buf : Bytes) : Decidable (SparesLastOnPost w s buf) :=
  inferInstanceAs (Decidable (_ → _))

instance (s : State) (input : World × Event) : Decidable (Spared s input) := by
  unfold Spared
  split <;> infer_instance

end Condition

variable {m : Block}

section Fields

variable {w : World} {s t : State}

structure Steady (s t : State) : Prop where
  list : t.list = s.list
  count : t.count = s.count
  lastEntry : t.lastEntry = s.lastEntry

theorem Steady.trans {u : State} (h : Steady s t) (h' : Steady t u) : Steady s u :=
  ⟨h'.list.trans h.list, h'.count.trans h.count, h'.lastEntry.trans h.lastEntry⟩

theorem Sound.of_eq (h : Sound s) (hlist : t.list = s.list) (hcount : t.count = s.count) : Sound t :=
  ⟨hlist ▸ h.nodup, by rw [hlist, hcount]; exact h.used⟩

theorem Sound.point {b : Block} (h : Sound s) (hb : b ∈ s.list) (hlist : t.list = s.list)
    (hcount : t.count = s.count) (hlast : t.lastEntry = some b) : Linked t := by
  refine ⟨h.of_eq hlist hcount, ?_⟩
  intro c hc
  obtain rfl : b = c := Option.some.inj (hlast.symm.trans hc)
  rw [hlist]
  exact hb

theorem Linked.steady (h : Linked s) (ht : Steady s t) : Linked t :=
  ⟨h.toSound.of_eq ht.list ht.count, by rw [ht.list, ht.lastEntry]; exact h.last⟩

theorem steady_toIdle (s : State) : Steady s (toIdle s) := ⟨rfl, rfl, rfl⟩

theorem steady_mbSendNoMoreInformation (w : World) (s : State) : Steady s (mbSendNoMoreInformation w s) := by
  unfold mbSendNoMoreInformation
  split
  · exact ⟨rfl, rfl, rfl⟩
  · split <;> exact ⟨rfl, rfl, rfl⟩

theorem steady_mbSendProxyStatus (s : State) : Steady s (mbSendProxyStatus s) := by
  unfold mbSendProxyStatus
  split <;> exact ⟨rfl, rfl, rfl⟩

theorem steady_enterSendNoMoreInfo (w : World) (s : State) : Steady s (enterSendNoMoreInfo w s) := by
  have hfsm : Steady s { s with fsm := .sendNoMoreInfo } := ⟨rfl, rfl, rfl⟩
  exact (hfsm.trans (steady_mbSendProxyStatus _)).trans (steady_mbSendNoMoreInformation w _)

theorem steady_sendMbProxyQueueCommand (s : State) (command : UInt8) (b : Block) :
    Steady s (sendMbProxyQueueCommand s command b) := by
  unfold sendMbProxyQueueCommand
  split <;> exact ⟨rfl, rfl, rfl⟩

end Fields

section Entries

variable {w : World} {s : State} {b : Block}

theorem Sound.free (h : Sound s) (b : Block) : Sound (mbFreeEntry s b) where
  nodup := h.nodup.erase b
  used := by
    intro c hc
    obtain ⟨hne, hc⟩ := (h.nodup.mem_erase_iff).mp hc
    change Function.update s.count b false c = true
    rw [Function.update_of_ne hne]
    exact h.used c hc

theorem Linked.free (h : Linked s) (hb : s.lastEntry ≠ some b) : Linked (mbFreeEntry s b) where
  toSound := h.toSound.free b
  last := by
    intro c hc
    refine h.nodup.mem_erase_iff.mpr ⟨?_, h.last c hc⟩
    rintro rfl
    exact hb hc

theorem entriesFrom_subset (h : Linked s) : ∀ c ∈ entriesFrom s s.lastEntry, c ∈ s.list := by
  intro c hc
  cases hlast : s.lastEntry with
  | none => simp [hlast, entriesFrom] at hc
  | some b =>
    rw [hlast, entriesFrom, if_pos (h.last b hlast)] at hc
    exact (List.dropWhile_sublist _).subset hc

theorem nodup_entriesFrom (h : Linked s) : (entriesFrom s s.lastEntry).Nodup := by
  cases hlast : s.lastEntry with
  | none => simp [entriesFrom]
  | some b =>
    rw [entriesFrom, if_pos (h.last b hlast)]
    exact h.nodup.sublist (List.dropWhile_sublist _)

theorem dropWhile_ne_eq_cons {l : List Block} (h : b ∈ l) : ∃ rest, l.dropWhile (· ≠ b) = b :: rest := by
  induction l with
  | nil => exact absurd h (by simp)
  | cons c l ih =>
    by_cases hc : c = b
    · subst hc
      exact ⟨l, by simp⟩
    · have hb : b ∈ l := by
        rcases List.mem_cons.mp h with hb | hb
        · exact absurd hb.symm hc
        · exact hb
      obtain ⟨rest, hrest⟩ := ih hb
      exact ⟨rest, by simpa [hc] using hrest⟩

theorem entriesFrom_cons (h : Linked s) (hlast : s.lastEntry = some b) :
    ∃ rest, entriesFrom s (some b) = b :: rest := by
  rw [entriesFrom, if_pos (h.last b hlast)]
  exact dropWhile_ne_eq_cons (h.last b hlast)

theorem linked_entryDone {rest : List Block} (h : Sound s) (hb : b ∉ rest)
    (hrest : ∀ c ∈ rest, c ∈ s.list) : Linked (entryDone s b rest.head?) := by
  have hhead : ∀ c, rest.head? = some c → c ∈ s.list :=
    fun c hc => hrest c (List.mem_of_mem_head? hc)
  have hlinked : Linked { s with lastEntry := rest.head? } := ⟨⟨h.nodup, h.used⟩, hhead⟩
  simp only [entryDone]
  split
  · refine hlinked.free ?_
    intro hc
    exact hb (List.mem_of_mem_head? hc)
  · exact hlinked

theorem mem_entryDone {c : Block} {next : Option Block} (hc : c ∈ s.list) (hne : c ≠ b) :
    c ∈ (entryDone s b next).list := by
  simp only [entryDone]
  split
  · exact (List.mem_erase_of_ne hne).mpr hc
  · exact hc

theorem linked_sendNext (w : World) (entries : List Block) (h : Sound s) (hnodup : entries.Nodup)
    (hentries : ∀ c ∈ entries, c ∈ s.list) : Linked (sendNext w entries s) := by
  induction entries generalizing s with
  | nil =>
    have hnone : Linked { s with lastEntry := none } := ⟨⟨h.nodup, h.used⟩, by simp⟩
    simp only [sendNext]
    split
    · exact hnone.steady (steady_enterSendNoMoreInfo w _)
    · exact hnone.steady ⟨rfl, rfl, rfl⟩
  | cons b rest ih =>
    obtain ⟨hb, hrestnodup⟩ := List.nodup_cons.mp hnodup
    have hrest : ∀ c ∈ rest, c ∈ s.list := fun c hc => hentries c (List.mem_cons_of_mem _ hc)
    have hb' : b ∈ s.list := hentries b List.mem_cons_self
    simp only [sendNext]
    split
    · split
      · refine Linked.steady ?_ (steady_enterSendNoMoreInfo w _)
        exact h.point hb' rfl rfl rfl
      · exact h.point hb' rfl rfl rfl
      · -- The frame was completed at once: the entry is left behind, freed or not.
        refine ih ?_ hrestnodup ?_
        · refine (linked_entryDone ?_ hb ?_).toSound
          · exact h.of_eq rfl rfl
          · exact hrest
        · intro c hc
          refine mem_entryDone ?_ (fun hcb => hb (hcb ▸ hc))
          exact hrest c hc
    · exact ih h hrestnodup hrest

theorem linked_pingNext (w : World) (entries : List Block) (h : Sound s)
    (hentries : ∀ c ∈ entries, c ∈ s.list) : Linked (pingNext w entries s) := by
  induction entries generalizing s with
  | nil => exact ⟨⟨h.nodup, h.used⟩, by simp [pingNext, toIdle, State.record]⟩
  | cons b rest ih =>
    have hrest : ∀ c ∈ rest, c ∈ s.list := fun c hc => hentries c (List.mem_cons_of_mem _ hc)
    have hb' : b ∈ s.list := hentries b List.mem_cons_self
    simp only [pingNext]
    split
    · split
      · split
        · exact h.point hb' rfl rfl rfl
        · exact ih (h.of_eq rfl rfl) hrest
      · refine Linked.steady ?_ (steady_sendMbProxyQueueCommand _ _ _)
        exact h.point hb' rfl rfl rfl
    · exact ih h hrest

theorem linked_popToProxy (w : World) (h : Sound s) : Linked (popToProxy w s) := by
  unfold popToProxy
  split
  · exact ⟨⟨h.nodup, h.used⟩, by simp [toIdle, State.record]⟩
  · rename_i b more hentries
    refine Linked.steady ?_ (steady_sendMbProxyQueueCommand _ _ _)
    have hmem : b ∈ proxyEntries s := by rw [hentries]; exact List.mem_cons_self
    exact h.point (List.mem_filter.mp hmem).1 rfl rfl rfl

end Entries

section Transitions

variable {w : World} {s : State}

theorem linked_enterSending (w : World) (h : Linked s) : Linked (enterSending w s) :=
  linked_sendNext w s.list (h.toSound.of_eq rfl rfl) h.nodup fun _ hc => hc

theorem linked_sending (h : Linked s) (event : MbEvent) : Linked (sending w s event) := by
  have hsearch : Linked (sendNext w (entriesFrom s s.lastEntry) s) :=
    linked_sendNext w _ h.toSound (nodup_entriesFrom h) (entriesFrom_subset h)
  cases event with
  | sendDone =>
    simp only [sending]
    cases hlast : s.lastEntry with
    | none => exact linked_sendNext w [] h.toSound List.nodup_nil (by simp)
    | some b =>
      obtain ⟨rest, hrest⟩ := entriesFrom_cons h hlast
      have hnodup : (b :: rest).Nodup := by
        rw [← hrest, ← hlast]
        exact nodup_entriesFrom h
      have hsubset : ∀ c ∈ rest, c ∈ s.list := by
        intro c hc
        refine entriesFrom_subset h c ?_
        rw [hlast, hrest]
        exact List.mem_cons_of_mem _ hc
      obtain ⟨hb, hrestnodup⟩ := List.nodup_cons.mp hnodup
      simp only [hrest, List.tail_cons]
      refine linked_sendNext w rest (linked_entryDone h.toSound hb hsubset).toSound hrestnodup ?_
      exact fun c hc => mem_entryDone (hsubset c hc) fun hcb => hb (hcb ▸ hc)
  | wakeup => exact hsearch
  | pop => exact hsearch
  | popLast => exact hsearch
  | timeout => exact hsearch
  | pingReq => exact hsearch
  | timeToPing => exact hsearch
  | frameSentToNode => exact hsearch

theorem linked_pingZipclients (h : Linked s) (event : MbEvent) : Linked (pingZipclients w s event) := by
  unfold pingZipclients
  split
  · cases hlast : s.lastEntry with
    | none => exact h
    | some b =>
      refine linked_pingNext w _ (h.toSound.of_eq rfl rfl) ?_
      intro c hc
      refine entriesFrom_subset h c ?_
      rw [hlast]
      exact List.mem_of_mem_tail hc
  · exact h

theorem linked_sendingThroughProxy (h : Linked s) (event : MbEvent) : Linked (sendingThroughProxy w s event) := by
  unfold sendingThroughProxy
  split
  · exact h.steady (steady_toIdle s)
  · refine linked_popToProxy w ?_
    split
    · cases hlast : s.lastEntry with
      | none => exact h.toSound
      | some b => exact h.toSound.free b
    · exact h.toSound
  · exact h

theorem linked_sendingLastFromProxy (h : Linked s) (event : MbEvent) : Linked (sendingLastFromProxy w s event) := by
  unfold sendingLastFromProxy
  split
  · exact h.steady (steady_enterSendNoMoreInfo w s)
  · exact h

theorem linked_sendingFromProxy (h : Linked s) (event : MbEvent) : Linked (sendingFromProxy s event) := by
  unfold sendingFromProxy
  split
  · exact h.steady ((steady_mbSendProxyStatus s).trans (steady_toIdle _))
  · exact h

theorem linked_sendFromProxy {done : State → State} (h : Linked s)
    (hdone : ∀ t, Linked t → Linked (done t)) : Linked (sendFromProxy w s done) := by
  unfold sendFromProxy
  split
  · exact hdone _ (h.steady ⟨rfl, rfl, rfl⟩)
  · exact h.steady ⟨rfl, rfl, rfl⟩
  · exact hdone _ (h.steady ⟨rfl, rfl, rfl⟩)

theorem linked_idle (h : Linked s) (event : MbEvent) : Linked (idle w s event) := by
  cases event with
  | timeToPing => exact linked_pingNext w s.list (h.toSound.of_eq rfl rfl) fun _ hc => hc
  | pingReq =>
    simp only [idle]
    split <;> exact h.steady ⟨rfl, rfl, rfl⟩
  | wakeup =>
    simp only [idle]
    split
    · exact linked_popToProxy w (h.toSound.of_eq rfl rfl)
    · split
      · split
        · split
          · exact h.steady ⟨rfl, rfl, rfl⟩
          · exact linked_enterSending w h
        · exact linked_enterSending w h
      · refine Linked.steady ?_ (steady_mbSendNoMoreInformation w _)
        exact h.steady ⟨rfl, rfl, rfl⟩
  | pop =>
    refine linked_sendFromProxy ?_ fun t ht => linked_sendingFromProxy ht .sendDone
    exact h.steady ⟨rfl, rfl, rfl⟩
  | popLast =>
    refine linked_sendFromProxy ?_ fun t ht => linked_sendingLastFromProxy ht .sendDone
    exact h.steady ⟨rfl, rfl, rfl⟩
  | sendDone => exact h
  | timeout => exact h
  | frameSentToNode => exact h

theorem linked_mbStateTransition (h : Linked s) (event : MbEvent) : Linked (mbStateTransition w s event) := by
  unfold mbStateTransition
  cases s.fsm with
  | idle => exact linked_idle h event
  | probeWakeupInterval =>
    simp only
    split
    · exact linked_enterSending w h
    · exact h
  | pingZipclients => exact linked_pingZipclients h event
  | sendingThroughProxy => exact linked_sendingThroughProxy h event
  | sending => exact linked_sending h event
  | sendNoMoreInfoDelayed =>
    simp only
    split
    · split
      · exact h.steady ⟨rfl, rfl, rfl⟩
      · refine Linked.steady ?_ (steady_mbSendNoMoreInformation w _)
        exact h.steady ⟨rfl, rfl, rfl⟩
    · split <;> exact h.steady ⟨rfl, rfl, rfl⟩
  | sendNoMoreInfo =>
    simp only
    split
    · exact h.steady (steady_toIdle s)
    · exact h
  | sendingFromProxy => exact linked_sendingFromProxy h event
  | sendingLastFromProxy => exact linked_sendingLastFromProxy h event
  | sendingPing => exact h.steady ((steady_mbSendProxyStatus s).trans (steady_toIdle _))

end Transitions

section Events

variable {w : World} {s : State}

theorem linked_mbFailingNotifyByip {ip : Bytes} (h : Linked s) (hspares : SparesLast w s ip) :
    Linked (mbFailingNotifyByip w s ip) := by
  -- The pointer and the contents stay while the entries go one by one.
  have hfold : ∀ (entries : List Block) (t : State), Linked t → t.mem = s.mem → t.lastEntry = s.lastEntry →
      Linked (entries.foldl (fun t b => if outlived w t ip b then purge w t b else t) t) := by
    intro entries
    induction entries with
    | nil => exact fun t ht _ _ => ht
    | cons b entries ih =>
      intro t ht hmem hlast
      rw [List.foldl_cons]
      by_cases hout : outlived w t ip b = true
      · rw [if_pos hout]
        refine ih _ ?_ hmem hlast
        have hrecorded : Linked (t.record (.purged (t.mem b).message
            (isZipPkt w.extLen (t.mem b).data) (!isUnspecified (t.mem b).proxy)
            (isZipPkt w.extLen (t.mem b).data && !(!isUnspecified (t.mem b).proxy)))) :=
          ht.steady ⟨rfl, rfl, rfl⟩
        refine hrecorded.free ?_
        intro hb
        have hspared := hspares b (hlast ▸ hb)
        rw [outlived, hmem] at hout
        rw [outlived] at hspared
        rw [hspared] at hout
        exact absurd hout (by simp)
      · rw [if_neg hout]
        exact ih t ht hmem hlast
  exact hfold s.list s h rfl rfl

theorem linked_mbPurgeMessages {node : NodeId} (h : Linked s)
    (hspares : s.confMode ≠ enableMailboxProxyForwarding → SparesLast w s (w.ipOfNode node)) :
    Linked (mbPurgeMessages w s node) := by
  unfold mbPurgeMessages
  split
  · exact h
  · rename_i hmode
    exact linked_mbFailingNotifyByip h (hspares hmode)

theorem membAlloc_free (h : membAlloc s = some m) : s.count m = false := by
  have := List.find?_some h
  simpa using this

theorem linked_fillEntry (h : Linked s) (buf : Bytes) (waiting : Bool) (proxy : Option Bytes)
    (handle : UInt8) : Linked (fillEntry w s m buf waiting proxy handle) := by
  refine ⟨⟨h.nodup, ?_⟩, h.last⟩
  intro b hb
  change Function.update s.count m true b = true
  by_cases hbm : b = m
  · rw [hbm, Function.update_self]
  · rw [Function.update_of_ne hbm]
    exact h.used b hb

theorem linked_addEntry (h : Linked s) (hm : m ∉ s.list) (hcount : s.count m = true) : Linked (addEntry s m) := by
  have hlist : (addEntry s m).list = s.list ++ [m] := by
    simp [addEntry, State.record, List.erase_of_not_mem hm]
  refine ⟨⟨?_, ?_⟩, ?_⟩
  · rw [hlist]
    exact (List.nodup_append_comm.mp (List.nodup_cons.mpr ⟨hm, h.nodup⟩))
  · intro b hb
    rw [hlist] at hb
    change s.count b = true
    rcases List.mem_append.mp hb with hb | hb
    · exact h.used b hb
    · rw [List.mem_singleton.mp hb]
      exact hcount
  · intro b hb
    rw [hlist]
    exact List.mem_append_left _ (h.last b hb)

theorem linked_mbPostUipbuf {buf : Bytes} {proxy : Option Bytes} {handle : UInt8} (h : Linked s)
    (hspares : SparesLastOnPost w s buf) : Linked (mbPostUipbuf w s buf proxy handle) := by
  unfold mbPostUipbuf
  split
  · exact h
  split
  · exact h
  split
  · exact h
  rename_i hdisabled
  simp only
  split
  · unfold forwardToProxy
    split <;> exact h.steady ⟨rfl, rfl, rfl⟩
  rename_i hforwarding
  cases halloc : membAlloc s with
  | none =>
    simp only
    split <;> exact h.steady ⟨rfl, rfl, rfl⟩
  | some m =>
    have hm : m ∉ s.list := by
      intro hmem
      have hused := h.used m hmem
      rw [membAlloc_free halloc] at hused
      exact absurd hused (by simp)
    have hfill := linked_fillEntry (w := w) (m := m) h buf (isZipPkt w.extLen buf) proxy handle
    simp only
    split
    · refine Linked.free ?_ ?_
      · exact hfill.steady (steady_sendMbProxyQueueCommand _ _ _)
      · rw [(steady_sendMbProxyQueueCommand _ _ _).lastEntry]
        intro hlast
        exact hm (h.last m hlast)
    · have hadd := linked_addEntry hfill hm (Function.update_self ..)
      split
      · rename_i hfailing
        refine linked_mbPurgeMessages hadd fun _ b hb => ?_
        have hbm : b ≠ m := by
          rintro rfl
          exact hm (h.last b hb)
        have hspared := hspares hfailing hdisabled hforwarding b hb
        have hmem : ((addEntry (fillEntry w s m buf (isZipPkt w.extLen buf) proxy handle) m).mem b) =
            s.mem b := Function.update_of_ne hbm _ _
        rw [outlived, hmem]
        exact hspared
      · exact hadd

theorem linked_handleQueue {c : Conn} {param1 handle : UInt8} {entry : Bytes} (h : Linked s)
    (hspares : param1 &&& 0x7 = mailboxPush → SparesLastOnPost w s entry) :
    Linked (handleQueue w s c param1 handle entry) := by
  have hproxy : ∀ status, Steady s (recordProxyResult s status) := by
    intro status
    unfold recordProxyResult
    split <;> exact ⟨rfl, rfl, rfl⟩
  simp only [handleQueue]
  split
  · refine linked_mbStateTransition ((h.steady (hproxy transmitCompleteOk)).steady ?_) .sendDone
    exact ⟨rfl, rfl, rfl⟩
  split
  · refine linked_mbStateTransition ((h.steady (hproxy transmitCompleteFail)).steady ?_) .sendDone
    exact ⟨rfl, rfl, rfl⟩
  split
  · exact h.steady ⟨rfl, rfl, rfl⟩
  split
  · refine linked_mbStateTransition (h.steady ?_) .pingReq
    exact ⟨rfl, rfl, rfl⟩
  split
  · rename_i hpush
    exact linked_mbPostUipbuf h (hspares hpush)
  split
  · split
    · exact h
    · refine linked_mbStateTransition (h.steady ?_) _
      exact ⟨rfl, rfl, rfl⟩
  · exact h

theorem linked_callback (h : Linked s) (p : Pending) (status : UInt8) : Linked (callback w s p status) := by
  unfold callback
  split <;> (refine linked_mbStateTransition (h.steady ?_) .sendDone; exact ⟨rfl, rfl, rfl⟩)

theorem linked_step (input : World × Event) (hspared : Spared s input) (h : Linked s) : Linked (step s input) := by
  obtain ⟨w, event⟩ := input
  cases event with
  | post buf =>
    simp only [step]
    exact linked_mbPostUipbuf h hspared
  | wakeup node isBroadcast =>
    simp only [step, mbWakeupEvent]
    split
    · refine linked_mbStateTransition (h.steady ?_) .wakeup
      exact ⟨rfl, rfl, rfl⟩
    · exact h
  | command c cmd =>
    cases cmd with
    | wakeupNotification handle =>
      refine linked_mbStateTransition (h.steady ?_) .wakeup
      exact ⟨rfl, rfl, rfl⟩
    | configurationGet => exact h
    | configurationSet properties1 => exact h.steady ⟨rfl, rfl, rfl⟩
    | nodeFailing nodeIp => exact linked_mbFailingNotifyByip h hspared
    | queue param1 handle entry =>
      simp only [step, mbCommandHandler]
      exact linked_handleQueue h hspared
  | callback i status =>
    simp only [step]
    split
    · exact h
    · rename_i p hp
      refine linked_callback ?_ p status
      exact h.steady ⟨rfl, rfl, rfl⟩
  | failing node => exact linked_mbPurgeMessages h hspared
  | pingTimer => exact linked_mbStateTransition h .timeToPing
  | noMoreTimer =>
    simp only [step]
    split
    · refine linked_mbStateTransition (h.steady ?_) .timeout
      exact ⟨rfl, rfl, rfl⟩
    · exact h
  | waitingTimer b =>
    simp only [step]
    split
    · unfold sendWaitingTimeout
      split
      · split
        · exact h.steady ⟨rfl, rfl, rfl⟩
        · exact h.steady (steady_sendMbProxyQueueCommand _ _ _)
      · exact h
    · exact h
  | transmissionOk node =>
    simp only [step]
    split
    · exact linked_mbStateTransition h .frameSentToNode
    · exact h
  | abort =>
    simp only [step]
    split <;> exact h.steady ⟨rfl, rfl, rfl⟩
  | sleepLater node =>
    simp only [step]
    split <;> exact h.steady ⟨rfl, rfl, rfl⟩

end Events

theorem linked_init (confMode : UInt8) : Linked (init confMode) :=
  ⟨⟨List.nodup_nil, by simp [init]⟩, by simp [init]⟩

/-- Whatever the mailbox does: as long as no entry is freed for its age while the machine points at
it, the pointer is null or good in every state, those in which something is sent among them. -/
theorem lastEntry_valid (confMode : UInt8) (inputs : List (World × Event))
    (hspared : Machine.Admissible step Spared (init confMode) inputs) :
    (Machine.run step (init confMode) inputs).fsm.isSending = true →
      ValidLast (Machine.run step (init confMode) inputs) := by
  have hlinked : Linked (Machine.run step (init confMode) inputs) :=
    Machine.run_invariant_of_admissible (fun _ input hspared h => linked_step input hspared h)
      hspared (linked_init confMode)
  intro _ b hb
  have hmem := hlinked.last b hb
  exact ⟨hmem, hlinked.used b hmem⟩

/-- The entry of node 22 is freed while the one of node 21 is being sent. -/
def otherPurged : List (World × Event) :=
  [sampleEvent 0 (.post (basicGetPacket 22 1)), sampleEvent 500 (.post (basicGetPacket 21 1)),
    sampleEvent 1000 (.wakeup 21 false), sampleEvent 1001 (.callback 0 transmitCompleteOk), sampleEvent 1001 (.failing 21),
    sampleEvent 1002 (.failing 22)]

theorem messageSent_valid : Machine.Admissible step Spared (init enableMailboxService) otherPurged ∧
      (Machine.run step (init enableMailboxService) otherPurged).lastEntry = some 1 ∧
      (Machine.run step (init enableMailboxService) otherPurged).list = [1] ∧
      ValidLast (Machine.run step (init enableMailboxService) otherPurged) :=
  ⟨by decide, by decide, by decide, lastEntry_valid enableMailboxService otherPurged (by decide) (by decide)⟩

def purgedInTransmission : List (World × Event) :=
  messageSent ++ [sampleEvent 1002 (.failing 21)]

theorem purgedInTransmission_dangling :
    ¬ ((Machine.run step (init enableMailboxService) purgedInTransmission).fsm.isSending = true →
      ValidLast (Machine.run step (init enableMailboxService) purgedInTransmission)) := by
  intro h
  have hlinked := (h (by decide) 0 (by decide)).1
  revert hlinked
  decide

end ZipGateway.Mailbox

import ZipGateway.Mdns.Handler

/-!
# What the parser reads

The handler gets through a packet exactly if every record that its two loops come to can be read: the
labels of the name lie in the packet, the name that they spell with their pointers comes to an end, and
so do the fields after it and the part of the data that is looked at.
-/

namespace ZipGateway.Mdns

open Fuel (Settles Turn Describes)
open Relation (ReflTransGen)

section Legible

variable (host : Host) (pkt : Bytes) (asked : Questioning)

def QuestionAt (p : Nat) (q : Question) : Prop :=
  ∃ e name, Delimited pkt p e ∧ e + 4 ≤ pkt.length ∧ Spells pkt maxDomainSize p [] name ∧
    q = { name := name, qtype := word pkt e, qclass := word pkt (e + 2), next := e + 4 }

def RecordAt (p : Nat) (r : Record) : Prop :=
  ∃ e name, Delimited pkt p e ∧ e + 10 ≤ pkt.length ∧ Spells pkt maxDomainSize p [] name ∧
    r = { name := name, qtype := word pkt e, qclass := word pkt (e + 2), ttl := word pkt (e + 6),
          rlength := word pkt (e + 8), data := e + 10 }

def nameInData (i : Nat) (r : Record) : Option Nat :=
  if isZwavePtr asked r then some r.data
  else if isKnownSrv host pkt asked i r then some (r.data + 6)
  else none

def addressInData (r : Record) : Bool :=
  (host.session.any fun names => names.any fun name => stringRightCompare name r.name) &&
    host.nodeNamed r.name && (header pkt).flags1 &&& 0x84 = 0 && r.qclass % 128 = rrClassIn &&
    r.qtype = rrTypeA

structure DataAt (i : Nat) (r : Record) (known : Bool) (u8 : Bytes) : Prop where
  name : match nameInData host pkt asked i r with
    | some p => ∃ t, Spells pkt maxDomainSize p [] t ∧ known = (host.nodeNamed t || host.serviceNamed t)
    | none => known = false
  address : if addressInData host pkt r = true
    then r.data + 4 ≤ pkt.length ∧ u8 = (pkt.drop r.data).take 4
    else u8 = []

def tieBroken (u8 : Bytes) (r : Record) (won : Nat) : Nat :=
  if host.nodeNamed r.name && (header pkt).flags1 &&& 0x84 = 0 then
    if rrClassIn < r.qclass % 128 then 2
    else if r.qclass % 128 = rrClassIn then
      if rrTypeA < r.qtype then 2
      else if r.qtype = rrTypeA then lexLater host u8
      else won
    else won
  else won

def sessionMatched (u8 : Bytes) (r : Record) (s : Answering) : Answering :=
  match host.session with
  | none => s
  | some names =>
    let i := names.findIdx fun name => stringRightCompare name r.name
    if i < names.length then s.tied i (tieBroken host pkt u8 r s.tieBrakingWon) else { s with i := i }

def recordTaken (known : Bool) (u8 : Bytes) (r : Record) (s : Answering) : Answering :=
  if known then
    if isZwavePtr asked r then s.knownPtr r else s.knownSrv r
  else if s.i < (header pkt).numanswers && host.serviceNamed r.name && host.session.isNone then s
  else
    let s :=
      if stringRightCompare r.name zwaveDomainName && (header pkt).isQuery && r.qtype = rrTypePtr
      then s.dropPtr host r.name else s
    if (header pkt).numanswers ≤ s.i && host.nodeNamed r.name && host.session.isNone then s
    else sessionMatched host pkt u8 r s

def Asks (s s' : Questioning) : Prop :=
  ∃ q, QuestionAt pkt s.ptr q ∧ s' = s.asked host pkt q

def Takes (s s' : Answering) : Prop :=
  ∃ r known u8, RecordAt pkt s.ptr r ∧ DataAt host pkt asked s.i r known u8 ∧
    s' = { recordTaken host pkt asked known u8 r s with
      ptr := r.data + r.rlength
      i := ((recordTaken host pkt asked known u8 r s).i + 1) % 65536 }

def Asked (s : Questioning) : Prop :=
  ReflTransGen (Turn (Questioning.over pkt) (Asks host pkt)) .start s

def Taken (s : Answering) : Prop :=
  ReflTransGen (Turn (Answering.over pkt) (Takes host pkt asked)) (.start host asked) s

def Duplicate : Prop :=
  (header pkt).numanswers = 0 ∧ host.probe ≠ [] ∧ (pkt.drop asked.ptr).take host.probe.length = host.probe

/-- Everything the handler comes to lies in the packet and ends. -/
structure Legible : Prop where
  header : 10 ≤ pkt.length
  question : ∀ s, Asked host pkt s → s.over pkt = false → ∃ q, QuestionAt pkt s.ptr q
  probe : ∀ asked, Asked host pkt asked → asked.over pkt = true → (Mdns.header pkt).numanswers = 0 → host.probe ≠ [] →
    asked.ptr + host.probe.length ≤ pkt.length
  record : ∀ asked, Asked host pkt asked → asked.over pkt = true → ¬Duplicate host pkt asked →
    ∀ s, Taken host pkt asked s → s.over pkt = false →
    ∃ r known u8, RecordAt pkt s.ptr r ∧ DataAt host pkt asked s.i r known u8

def Parses : Prop :=
  ∃ fuel actions, tcpipHandler host pkt fuel = .ok actions

end Legible

variable {host : Host} {pkt : Bytes} {asked : Questioning}

variable {s : Answering} {fuel p : Nat} {r : Record}

theorem wordAt_eq_ok {p w : Nat} : wordAt pkt p = .ok w ↔ p + 2 ≤ pkt.length ∧ w = word pkt p := by
  unfold wordAt
  split_ifs with h <;> simp [h, eq_comm]

section Questions

theorem questionAt_of_eq {q : Question} (h : readQuestion pkt fuel p = .ok q) : QuestionAt pkt p q := by
  obtain ⟨e, he, h⟩ := Fuel.bind_eq_ok.mp h
  obtain ⟨qtype, ht, h⟩ := Fuel.bind_eq_ok.mp h
  obtain ⟨qclass, hc, h⟩ := Fuel.bind_eq_ok.mp h
  obtain ⟨name, hn, h⟩ := Fuel.bind_eq_ok.mp h
  cases h
  obtain ⟨_, rfl⟩ := wordAt_eq_ok.mp ht
  obtain ⟨hin, rfl⟩ := wordAt_eq_ok.mp hc
  exact ⟨e, name, delimited_of_eq he, hin, spells_of_eq hn, rfl⟩

theorem QuestionAt.settles {q : Question} (h : QuestionAt pkt p q) :
    Settles (fun fuel => readQuestion pkt fuel p) q := by
  obtain ⟨e, name, he, hin, hn, rfl⟩ := h
  refine .bind (.of_forall fun _ => he.eq) ?_
  refine .bind (.of_forall fun _ => wordAt_eq_ok.mpr ⟨by omega, rfl⟩) ?_
  refine .bind (.of_forall fun _ => wordAt_eq_ok.mpr ⟨by omega, rfl⟩) ?_
  exact hn.settles.bind (.of_forall fun _ => rfl)

theorem describes_parseQuestion : Describes (parseQuestion host pkt) (Asks host pkt) where
  sound h := by
    obtain ⟨q, hq, h⟩ := Fuel.bind_eq_ok.mp h
    cases h
    exact ⟨q, questionAt_of_eq hq, rfl⟩
  complete := by
    rintro s _ ⟨q, hq, rfl⟩
    exact hq.settles.bind (.of_forall fun _ => rfl)

@[simp]
theorem asked_ptr (s : Questioning) (q : Question) : (s.asked host pkt q).ptr = q.next := by
  unfold Questioning.asked
  split_ifs <;> try rfl
  split <;> rfl

theorem asks_shortens {s s' : Questioning} (h : Turn (Questioning.over pkt) (Asks host pkt) s s') :
    pkt.length - s'.ptr < pkt.length - s.ptr := by
  obtain ⟨hover, q, ⟨e, name, he, hin, _, rfl⟩, rfl⟩ := h
  have := he.lt
  simp only [asked_ptr]
  omega

end Questions

section Records

theorem recordAt_of_eq (h : readRecord pkt fuel p = .ok r) :
    RecordAt pkt p r ∧ domainNameCopy pkt p maxDomainSize fuel = .ok r.name := by
  obtain ⟨e, he, h⟩ := Fuel.bind_eq_ok.mp h
  obtain ⟨qtype, ht, h⟩ := Fuel.bind_eq_ok.mp h
  obtain ⟨qclass, hc, h⟩ := Fuel.bind_eq_ok.mp h
  obtain ⟨high, _, h⟩ := Fuel.bind_eq_ok.mp h
  obtain ⟨ttl, hl, h⟩ := Fuel.bind_eq_ok.mp h
  obtain ⟨rlength, hr, h⟩ := Fuel.bind_eq_ok.mp h
  obtain ⟨name, hn, h⟩ := Fuel.bind_eq_ok.mp h
  cases h
  obtain ⟨_, rfl⟩ := wordAt_eq_ok.mp ht
  obtain ⟨_, rfl⟩ := wordAt_eq_ok.mp hc
  obtain ⟨_, rfl⟩ := wordAt_eq_ok.mp hl
  obtain ⟨hin, rfl⟩ := wordAt_eq_ok.mp hr
  exact ⟨⟨e, name, delimited_of_eq he, hin, spells_of_eq hn, rfl⟩, hn⟩

theorem RecordAt.settles (h : RecordAt pkt p r) : Settles (fun fuel => readRecord pkt fuel p) r := by
  obtain ⟨e, name, he, hin, hn, rfl⟩ := h
  have hword : ∀ k, k + 2 ≤ 10 → Settles (fun _ => wordAt pkt (e + k)) (word pkt (e + k)) :=
    fun k hk => .of_forall fun _ => wordAt_eq_ok.mpr ⟨by omega, rfl⟩
  refine .bind (.of_forall fun _ => he.eq) ?_
  refine (hword 0 (by omega)).bind ?_
  refine (hword 2 (by omega)).bind ?_
  refine (hword 4 (by omega)).bind ?_
  refine (hword 6 (by omega)).bind ?_
  refine (hword 8 (by omega)).bind ?_
  exact hn.settles.bind (.of_forall fun _ => rfl)

theorem RecordAt.copies (h : RecordAt pkt p r) :
    Settles (fun fuel => domainNameCopy pkt p maxDomainSize fuel) r.name := by
  obtain ⟨e, name, _, _, hn, rfl⟩ := h
  exact hn.settles

section Data

variable (host : Host) (pkt : Bytes) (asked : Questioning)

def readTarget (fuel i : Nat) (r : Record) : Except Fault Bool :=
  match nameInData host pkt asked i r with
  | some p => matchTarget host pkt fuel p
  | none => pure false

def readAddress (r : Record) : Except Fault Bytes :=
  if addressInData host pkt r then bytesAt pkt r.data 4 else pure []

def readData (fuel : Nat) (r : Record) (s : Answering) : Except Fault Answering := do
  let known ← readTarget host pkt asked fuel s.i r
  let u8 ← readAddress host pkt r
  return recordTaken host pkt asked known u8 r s

end Data

theorem addressInData_of_isNone (h : host.session = none) : addressInData host pkt r = false := by
  simp [addressInData, h]

theorem addressInData_of_qtype (h : r.qtype ≠ rrTypeA) : addressInData host pkt r = false := by
  simp [addressInData, h]

theorem matchSession_eq (r : Record) (s : Answering) :
    matchSession host pkt r s = readAddress host pkt r >>= fun u8 => pure (sessionMatched host pkt u8 r s) := by
  unfold matchSession sessionMatched readAddress
  cases hs : host.session with
  | none => simp [addressInData_of_isNone hs]
  | some names =>
    have hany : (names.findIdx fun name => stringRightCompare name r.name) < names.length ↔
        (names.any fun name => stringRightCompare name r.name) = true := by
      simp [List.findIdx_lt_length]
    by_cases hi : (names.findIdx fun name => stringRightCompare name r.name) < names.length
    · simp only [hi, if_true, breakTie, tieBroken, addressInData, hs, Option.any_some, hany.mp hi, Bool.true_and]
      split_ifs <;> simp_all
    · have : (names.any fun name => stringRightCompare name r.name) = false := by
        simpa [hany] using hi
      simp [hi, addressInData, hs, this]

theorem dropKnownPtr_eq {fuel last : Nat} (hname : domainNameCopy pkt last maxDomainSize fuel = .ok r.name) :
    dropKnownPtr host pkt fuel last r s = pure (if stringRightCompare r.name zwaveDomainName && (header pkt).isQuery &&
        r.qtype = rrTypePtr then s.dropPtr host r.name else s) := by
  unfold dropKnownPtr
  rw [hname]
  split_ifs <;> rfl

theorem takeRecord_eq {fuel last : Nat} (hname : domainNameCopy pkt last maxDomainSize fuel = .ok r.name) :
    takeRecord host pkt asked fuel last r s = readData host pkt asked fuel r s := by
  have rest : (if s.i < (header pkt).numanswers && host.serviceNamed r.name && host.session.isNone then
        pure s
      else do
        let s ← dropKnownPtr host pkt fuel last r s
        if (header pkt).numanswers ≤ s.i && host.nodeNamed r.name && host.session.isNone then
          pure s
        else matchSession host pkt r s) =
      readAddress host pkt r >>= fun u8 =>
        pure (recordTaken host pkt asked false u8 r s) := by
    rw [dropKnownPtr_eq hname]
    simp only [matchSession_eq, pure_bind, recordTaken, Bool.false_eq_true, if_false]
    cases hs : host.session with
    | none => simp [readAddress, addressInData_of_isNone hs, ← apply_ite]
    | some names => simp
  unfold takeRecord readData readTarget nameInData
  by_cases hz : isZwavePtr asked r = true
  · have htype : r.qtype = rrTypePtr := by simp_all [isZwavePtr]
    have hsrv : isKnownSrv host pkt asked s.i r = false := by
      simp [isKnownSrv, htype, rrTypePtr, rrTypeSrv]
    have haddr : addressInData host pkt r = false := addressInData_of_qtype (by rw [htype]; decide)
    simp only [hz, hsrv, if_true, Bool.false_eq_true, if_false, pure_bind, rest]
    congr 1
    funext known
    cases known <;> simp [readAddress, haddr, recordTaken, hz]
  · simp only [Bool.not_eq_true] at hz
    by_cases hsrv : isKnownSrv host pkt asked s.i r = true
    · have htype : r.qtype = rrTypeSrv := by simp_all [isKnownSrv]
      have haddr : addressInData host pkt r = false :=
        addressInData_of_qtype (by rw [htype]; decide)
      simp only [hz, hsrv, if_true, Bool.false_eq_true, if_false, pure_bind, rest]
      congr 1
      funext known
      cases known <;> simp [readAddress, haddr, recordTaken, hz]
    · simp only [Bool.not_eq_true] at hsrv
      simp only [hz, hsrv, Bool.false_eq_true, if_false, pure_bind, rest]

theorem DataAt.settles {known : Bool} {u8 : Bytes} (h : DataAt host pkt asked s.i r known u8) :
    Settles (fun fuel => readData host pkt asked fuel r s) (recordTaken host pkt asked known u8 r s) := by
  have hname : Settles (fun fuel => readTarget host pkt asked fuel s.i r) known := by
    have := h.name
    unfold readTarget
    cases hp : nameInData host pkt asked s.i r with
    | none =>
      rw [hp] at this
      exact .of_forall fun _ => congrArg Except.ok this.symm
    | some p =>
      rw [hp] at this
      obtain ⟨t, ht, rfl⟩ := this
      exact ht.settles.bind (.of_forall fun _ => rfl)
  have haddr : readAddress host pkt r = .ok u8 := by
    have := h.address
    unfold readAddress
    split_ifs at this ⊢ with ha
    · exact bytesAt_eq_ok.mpr this
    · exact congrArg Except.ok this.symm
  exact hname.bind (.of_forall fun _ => Fuel.bind_eq_ok.mpr ⟨u8, haddr, rfl⟩)

theorem dataAt_of_eq {s t : Answering} (h : readData host pkt asked fuel r s = .ok t) :
    ∃ known u8, DataAt host pkt asked s.i r known u8 ∧ t = recordTaken host pkt asked known u8 r s := by
  obtain ⟨known, hname, h⟩ := Fuel.bind_eq_ok.mp h
  obtain ⟨u8, haddr, h⟩ := Fuel.bind_eq_ok.mp h
  refine ⟨known, u8, ⟨?_, ?_⟩, (Except.ok.inj h).symm⟩
  · unfold readTarget at hname
    cases hp : nameInData host pkt asked s.i r with
    | none =>
      rw [hp] at hname
      exact (Except.ok.inj hname).symm
    | some p =>
      rw [hp] at hname
      obtain ⟨name, hcopy, hname⟩ := Fuel.bind_eq_ok.mp hname
      exact ⟨name, spells_of_eq hcopy, (Except.ok.inj hname).symm⟩
  · unfold readAddress at haddr
    split_ifs at haddr ⊢ with ha
    · exact bytesAt_eq_ok.mp haddr
    · exact (Except.ok.inj haddr).symm

theorem describes_parseRecord : Describes (parseRecord host pkt asked) (Takes host pkt asked) where
  sound h := by
    obtain ⟨r, hr, h⟩ := Fuel.bind_eq_ok.mp h
    obtain ⟨s', hs', h⟩ := Fuel.bind_eq_ok.mp h
    cases h
    obtain ⟨hat, hcopy⟩ := recordAt_of_eq hr
    rw [takeRecord_eq hcopy] at hs'
    obtain ⟨known, u8, hdata, rfl⟩ := dataAt_of_eq hs'
    exact ⟨r, known, u8, hat, hdata, rfl⟩
  complete := by
    rintro s _ ⟨r, known, u8, hat, hdata, rfl⟩
    refine hat.settles.bind (.bind ?_ (.of_forall fun _ => rfl))
    -- The name is decompressed a second time with the same rounds as the first.
    obtain ⟨k, hk⟩ := hat.copies
    obtain ⟨l, hl⟩ := hdata.settles
    refine ⟨max k l, fun n hn => ?_⟩
    exact (takeRecord_eq (hk n (by omega))).trans (hl n (by omega))

theorem takes_shortens {s s' : Answering} (h : Turn (Answering.over pkt) (Takes host pkt asked) s s') :
    pkt.length - s'.ptr < pkt.length - s.ptr := by
  obtain ⟨_, r, known, u8, ⟨e, name, he, hin, _, rfl⟩, _, rfl⟩ := h
  have := he.lt
  show pkt.length - (e + 10 + word pkt (e + 8)) < pkt.length - s.ptr
  omega

end Records

section Handler

theorem isDuplicate_eq_ok {b : Bool} : isDuplicate host pkt asked.ptr = .ok b ↔
      ((header pkt).numanswers = 0 → host.probe ≠ [] → asked.ptr + host.probe.length ≤ pkt.length) ∧
      (b = true ↔ Duplicate host pkt asked) := by
  unfold isDuplicate findDuplicateProbe Duplicate
  by_cases hn : (header pkt).numanswers = 0
  · by_cases hp : host.probe = []
    · simp [hn, hp, eq_comm]
    · by_cases hin : asked.ptr + host.probe.length ≤ pkt.length
      · simp only [hn, hp, hin, bytesAt, if_true, if_false]
        cases b <;> simp [hp, bind, Except.bind, pure, Except.pure]
      · simp [hn, hp, hin, bytesAt, bind, Except.bind]
  · cases b <;> simp [hn, pure, Except.pure]

theorem legible_of_parses (h : Parses host pkt) : Legible host pkt := by
  obtain ⟨fuel, actions, h⟩ := h
  obtain ⟨hdr, hhdr, h⟩ := Fuel.bind_eq_ok.mp h
  obtain ⟨asked, hasked, h⟩ := Fuel.bind_eq_ok.mp h
  obtain ⟨b, hb, h⟩ := Fuel.bind_eq_ok.mp h
  obtain ⟨hprobe, hdup⟩ := isDuplicate_eq_ok.mp hb
  have last : ∀ s, Asked host pkt s → s.over pkt = true → s = asked := fun s hs =>
    (Fuel.loop_eq_ok describes_parseQuestion hasked hs).2
  constructor
  case header =>
    unfold readHeader at hhdr
    split_ifs at hhdr with hlen
    exact hlen
  case question =>
    intro s hs hover
    obtain ⟨_, q, hq, _⟩ := (Fuel.loop_eq_ok describes_parseQuestion hasked hs).1 hover
    exact ⟨q, hq⟩
  case probe =>
    intro s hs hover
    rw [last s hs hover]
    exact hprobe
  case record =>
    intro s hs hover hnew t ht htover
    rw [last s hs hover] at hnew ht
    rw [last s hs hover]
    have hfalse : b = false := by
      rw [← hdup] at hnew
      simpa using hnew
    subst hfalse
    obtain ⟨t', ht', _⟩ := Fuel.bind_eq_ok.mp h
    obtain ⟨_, r, known, u8, hr, hdata, _⟩ :=
      (Fuel.loop_eq_ok describes_parseRecord ht' ht).1 htover
    exact ⟨r, known, u8, hr, hdata⟩

theorem Legible.questions_settle (h : Legible host pkt) :
    ∃ asked, Settles (parseQuestions host pkt) asked ∧ Asked host pkt asked ∧ asked.over pkt = true := by
  refine Fuel.loop_settles describes_parseQuestion (fun s => pkt.length - s.ptr)
    (fun _ _ => asks_shortens) fun s hs hover => ?_
  obtain ⟨q, hq⟩ := h.question s hs hover
  exact ⟨_, q, hq, rfl⟩

theorem Legible.answers_settle (h : Legible host pkt) (hasked : Asked host pkt asked)
    (hover : asked.over pkt = true) (hnew : ¬Duplicate host pkt asked) :
    ∃ s, Settles (parseAnswers host pkt asked) s := by
  obtain ⟨s, hs, _⟩ : ∃ s, Settles (parseAnswers host pkt asked) s ∧ Taken host pkt asked s ∧ s.over pkt = true := by
    refine Fuel.loop_settles describes_parseRecord (fun s => pkt.length - s.ptr)
      (fun _ _ => takes_shortens) fun s hs hsover => ?_
    obtain ⟨r, known, u8, hr, hdata⟩ := h.record asked hasked hover hnew s hs hsover
    exact ⟨_, r, known, u8, hr, hdata, rfl⟩
  exact ⟨s, hs⟩

theorem parses_of_legible (h : Legible host pkt) : Parses host pkt := by
  obtain ⟨asked, hsettles, hasked, hover⟩ := h.questions_settle
  have hheader : Settles (fun _ => readHeader pkt) (header pkt) :=
    .of_forall fun _ => if_pos h.header
  have hprobe := h.probe asked hasked hover
  suffices ∃ actions, Settles (tcpipHandler host pkt) actions by
    obtain ⟨actions, hactions⟩ := this
    obtain ⟨fuel, hfuel⟩ := hactions.exists
    exact ⟨fuel, actions, hfuel⟩
  by_cases hdup : Duplicate host pkt asked
  · have hb : isDuplicate host pkt asked.ptr = .ok true :=
      isDuplicate_eq_ok.mpr ⟨hprobe, iff_of_true rfl hdup⟩
    refine ⟨asked.actions, hheader.bind (hsettles.bind ?_)⟩
    exact .bind (.of_forall fun _ => hb) (.of_forall fun _ => rfl)
  · have hb : isDuplicate host pkt asked.ptr = .ok false :=
      isDuplicate_eq_ok.mpr ⟨hprobe, iff_of_false Bool.false_ne_true hdup⟩
    obtain ⟨s, hs⟩ := h.answers_settle hasked hover hdup
    refine ⟨s.actions, hheader.bind (hsettles.bind ?_)⟩
    exact .bind (.of_forall fun _ => hb) (hs.bind (.of_forall fun _ => rfl))

/-- The handler ends with reads inside the packet only if, and only if, what it comes to is legible. -/
theorem handler_parses_iff_legible (host : Host) (pkt : Bytes) : Parses host pkt ↔ Legible host pkt :=
  ⟨legible_of_parses, parses_of_legible⟩

def silentHost : Host where
  nodeNamed _ := false
  serviceNamed _ := false
  session := none
  probe := []
  address := [0, 0, 0, 0]
  tieBrakingWon := 0

def selfPointing : Bytes :=
  [0, 0, 0, 0, 0, 1, 0, 0, 0, 0, 0, 0, 0xC0, 0x0C, 0, 1, 0, 1]

def croppedLabel : Bytes :=
  [0, 0, 0, 0, 0, 1, 0, 0, 0, 0, 0, 0, 5, 108]

theorem handler_of_parseQuestion_error {e : Fault} (hlen : 10 ≤ pkt.length)
    (hover : Questioning.start.over pkt = false) (h : parseQuestion host pkt fuel .start = .error e) :
    tcpipHandler host pkt (fuel + 1) = .error e := by
  have hquestions : parseQuestions host pkt (fuel + 1) = .error e := by
    simp [parseQuestions, Fuel.loop, hover, h, bind, Except.bind]
  simp [tcpipHandler, readHeader, hlen, hquestions, bind, Except.bind]

theorem copy_selfPointing (fuel : Nat) : domainNameCopy selfPointing 12 maxDomainSize fuel = .error .unfinished := by
  unfold domainNameCopy
  induction fuel with
  | zero => rfl
  | succ fuel ih => exact ih

theorem handler_selfPointing_unfinished : (∀ fuel, tcpipHandler silentHost selfPointing fuel = .error .unfinished) ∧
      (∀ fuel, tcpipHandler silentHost croppedLabel (fuel + 1) = .error .outside) ∧
      ¬Parses silentHost selfPointing := by
  have never : ∀ fuel, tcpipHandler silentHost selfPointing fuel = .error .unfinished := by
    intro fuel
    cases fuel with
    | zero => rfl
    | succ fuel =>
      refine handler_of_parseQuestion_error (by decide) (by decide) ?_
      have hend : domainNameEnd selfPointing Questioning.start.ptr = .ok 14 :=
        (Delimited.pointer rfl rfl).eq
      have htype : wordAt selfPointing 14 = .ok 1 := rfl
      have hclass : wordAt selfPointing (14 + 2) = .ok 1 := rfl
      simp only [parseQuestion, readQuestion, hend, htype, hclass, bind, Except.bind]
      rw [show Questioning.start.ptr = 12 from rfl, copy_selfPointing]
  refine ⟨never, ?_, ?_⟩
  · intro fuel
    refine handler_of_parseQuestion_error (by decide) (by decide) ?_
    have hend : domainNameEnd croppedLabel Questioning.start.ptr = .error .outside := by
      rw [domainNameEnd_eq (b := 5) rfl, if_neg (by decide), if_neg (by decide), domainNameEnd]
      rfl
    simp only [parseQuestion, readQuestion, hend, bind, Except.bind]
  · rintro ⟨fuel, actions, h⟩
    rw [never fuel] at h
    cases h

end Handler

end ZipGateway.Mdns

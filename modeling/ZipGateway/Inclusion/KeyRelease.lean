import ZipGateway.Inclusion.Simulation

/-!
# When a network key is given away

A Network Key Report leaves the including node only after the user granted the key, accepted the
challenge, and the joining node repeated the offer and asked for the key under the temporary key. The
machine has one event for both answers of the user, so a challenge response that comes while the key
grant is awaited passes for the grant, and the other way round: with that excluded, every report is
justified.
-/

namespace ZipGateway.Inclusion

def era (log : List Entry) : List Entry :=
  log.takeWhile (· ≠ .started)

def Granted (log : List Entry) (key : UInt8) : Prop :=
  ∃ found keys csa, .keyGrant found acceptInclusion keys csa ∈ era log ∧ key &&& keys ≠ 0

def Challenged (log : List Entry) : Prop :=
  ∃ found, .challenge found acceptInclusion ∈ era log

/-- An echoed KEX Set, encrypted with the temporary key, that agrees with the one that was sent in the
scheme, the curve, the keys and the CSA bit. -/
def OfferEchoed (log : List Entry) : Prop :=
  ∃ con sent ok found requested exchange src echo, .sentFrame con sent ok ∈ era log ∧ sent.getD 1 0 = kexSet ∧
      .received found requested exchange src echo ∈ era log ∧ src.classId = tempKeySlot ∧
      echo.getD 1 0 = kexSet ∧ echo.getD 2 0 &&& echoOn ≠ 0 ∧
      echo.getD 2 0 &&& csaOn = sent.getD 2 0 &&& csaOn ∧ echo.getD 3 0 = sent.getD 3 0 ∧
      echo.getD 4 0 = sent.getD 4 0 ∧ echo.getD 5 0 = sent.getD 5 0

def AskedFor (log : List Entry) (key : UInt8) : Prop :=
  (∃ found requested exchange src frame,
    .received found requested exchange src frame ∈ era log ∧ src.classId = tempKeySlot ∧
      frame.getD 1 0 = networkKeyGet ∧ frame.getD 2 0 = key) ∧
    key ≠ 0 ∧ key &&& (key - 1) = 0

structure Justified (log : List Entry) (key : UInt8) : Prop where
  granted : Granted log key
  challenged : Challenged log
  echoed : OfferEchoed log
  asked : AskedFor log key

def Entry.Transmits : Entry → UInt8 → Prop
  | .sentFrame _ frame _, key | .sentData _ frame _, key => Releases frame key
  | _, _ => False

instance (e : Entry) (key : UInt8) : Decidable (e.Transmits key) :=
  match e with
  | .sentFrame _ frame _ | .sentData _ frame _ =>
    inferInstanceAs (Decidable (frame[1]? = some networkKeyReport ∧ frame[2]? = some key))
  | .started | .joined | .keyGrant .. | .challenge .. | .aborted _ | .received .. | .event _ =>
    isFalse id

/-- Every Network Key Report in the log is justified by what came before it. -/
def ReleasesJustified : List Entry → Prop
  | [] => True
  | e :: before => (∀ key, e.Transmits key → Justified before key) ∧ ReleasesJustified before

/-- A yes to the question that was not asked: a key grant while the challenge is open, or a challenge
response while the grant is. -/
def Entry.isMisplaced : Entry → Bool
  | .keyGrant .awaitingUserAccept accept _ _ => accept = acceptInclusion
  | .challenge .awaitingKeyUserAccept accept => accept = acceptInclusion
  | _ => false

def AnswersInOrder (log : List Entry) : Prop :=
  ∀ e ∈ log, e.isMisplaced = false

instance (log : List Entry) : Decidable (AnswersInOrder log) :=
  inferInstanceAs (Decidable (∀ e ∈ log, e.isMisplaced = false))

def Entry.isGrant : Entry → Bool
  | .keyGrant _ _ _ _ => true
  | _ => false

variable {frame : Bytes} {src : Connection}

section Era

variable {log : List Entry} {e : Entry}

theorem era_cons (he : e ≠ .started) : era (e :: log) = e :: era log := by
  simp [era, he]

theorem mem_era_cons (he : e ≠ .started) {x : Entry} (hx : x ∈ era log) : x ∈ era (e :: log) := by
  rw [era_cons he]
  exact List.mem_cons_of_mem e hx

theorem Challenged.cons (he : e ≠ .started) (h : Challenged log) : Challenged (e :: log) := by
  obtain ⟨found, hmem⟩ := h
  exact ⟨found, mem_era_cons he hmem⟩

theorem OfferEchoed.cons (he : e ≠ .started) (h : OfferEchoed log) : OfferEchoed (e :: log) := by
  obtain ⟨con, sent, ok, found, requested, exchange, src, echo, hsent, hset, hecho, hrest⟩ := h
  exact ⟨con, sent, ok, found, requested, exchange, src, echo, mem_era_cons he hsent, hset,
    mem_era_cons he hecho, hrest⟩

theorem Justified.cons (he : e ≠ .started) {key : UInt8} (h : Justified log key) : Justified (e :: log) key := by
  obtain ⟨⟨found, keys, csa, hgrant, hkey⟩, hchallenged, hechoed,
    ⟨found', requested, exchange, src, frame, hget, hrest⟩, hsingle⟩ := h
  exact ⟨⟨found, keys, csa, mem_era_cons he hgrant, hkey⟩, hchallenged.cons he, hechoed.cons he,
    ⟨found', requested, exchange, src, frame, mem_era_cons he hget, hrest⟩, hsingle⟩

end Era

def UserGranted (keys : UInt8) (log : List Entry) : Prop :=
  ∃ found csa, .keyGrant found acceptInclusion keys csa ∈ era log

structure Offered (scheme curve : UInt8) (mode : Mode) (keys : UInt8) (log : List Entry) : Prop where
  scheme : scheme = scheme1Support
  curve : curve = curve25519
  granted : UserGranted keys log
  sent : ∃ con ok, .sentFrame con (kexSetFrame mode keys) ok ∈ era log

def Stage (o : Progress) : Prop :=
  match o.state with
  | .awaitingKeyUserAccept => o.schemeSupport = scheme1Support ∧ o.curveSupport = curve25519
  | .awaitingPubKeyB | .awaitingUserAccept =>
    Offered o.schemeSupport o.curveSupport o.mode o.keyGranted o.log
  | .awaitingEchoKexSet =>
    Offered o.schemeSupport o.curveSupport o.mode o.keyGranted o.log ∧ Challenged o.log
  | .awaitingNetKeyGet | .awaitingNetKeyVerify | .awaitingTransferEnd =>
    UserGranted o.keyGranted o.log ∧ Challenged o.log ∧ OfferEchoed o.log
  | _ => True

section Stages

variable {log : List Entry} {e : Entry} (he : e ≠ .started)

include he

theorem UserGranted.cons {keys : UInt8} (h : UserGranted keys log) : UserGranted keys (e :: log) := by
  obtain ⟨found, csa, hmem⟩ := h
  exact ⟨found, csa, mem_era_cons he hmem⟩

theorem Offered.cons {scheme curve : UInt8} {mode : Mode} {keys : UInt8}
    (h : Offered scheme curve mode keys log) : Offered scheme curve mode keys (e :: log) := by
  obtain ⟨hscheme, hcurve, hgranted, con, ok, hsent⟩ := h
  exact ⟨hscheme, hcurve, hgranted.cons he, con, ok, mem_era_cons he hsent⟩

theorem stage_cons {o : Progress} (h : Stage o) : Stage { o with log := e :: o.log } := by
  unfold Stage at *
  dsimp only
  split at h
  · exact h
  · exact h.cons he
  · exact h.cons he
  · exact ⟨h.1.cons he, h.2.cons he⟩
  · exact ⟨h.1.cons he, h.2.1.cons he, h.2.2.cons he⟩
  · exact ⟨h.1.cons he, h.2.1.cons he, h.2.2.cons he⟩
  · exact ⟨h.1.cons he, h.2.1.cons he, h.2.2.cons he⟩
  · trivial

end Stages

theorem mem_era_of_heard {o : Progress} (h : o.Heard src frame) :
    .received o.state o.keyRequested o.keyExchange src frame ∈ era o.log := by
  obtain ⟨rest, hlog⟩ := h
  rw [hlog, era_cons (by simp)]
  exact List.mem_cons_self

theorem Offered.echoed {o : Progress} (h : Offered o.schemeSupport o.curveSupport o.mode o.keyGranted o.log)
    (hecho : o.Echoed src frame) : OfferEchoed o.log := by
  obtain ⟨con, ok, hsent⟩ := h.sent
  have hcsa : frame.getD 2 0 &&& csaOn = (kexSetFrame o.mode o.keyGranted).getD 2 0 &&& csaOn := by
    rw [hecho.csa]
    change _ = (if o.mode = .csa then csaOn else 0) &&& csaOn
    cases o.mode <;> decide
  exact ⟨con, kexSetFrame o.mode o.keyGranted, ok, o.state, o.keyRequested, o.keyExchange, src, frame,
    hsent, rfl, mem_era_of_heard hecho.heard, hecho.secure, hecho.command, hecho.echo, hcsa,
    hecho.scheme.trans h.scheme, hecho.curve.trans h.curve, hecho.keys⟩

theorem justified_of_requested {o : Progress} {key : UInt8}
    (h : UserGranted o.keyGranted o.log ∧ Challenged o.log ∧ OfferEchoed o.log)
    (hrequested : o.Requested src frame key) : Justified o.log key := by
  obtain ⟨⟨found, csa, hgrant⟩, hchallenged, hechoed⟩ := h
  have hne : key ≠ 0 := by
    rintro rfl
    exact hrequested.granted (by simp)
  exact ⟨⟨found, o.keyGranted, csa, hgrant, hrequested.granted⟩, hchallenged, hechoed,
    ⟨o.state, o.keyRequested, o.keyExchange, src, frame, mem_era_of_heard hrequested.heard,
      hrequested.secure, hrequested.command, hrequested.names⟩, hne, hrequested.single⟩

structure Guarded (o : Progress) : Prop where
  justified : ReleasesJustified o.log
  buffer : o.command = networkKeyReport → Justified o.log o.key
  stage : Stage o

namespace Guarded

variable {o o' : Progress}

theorem note (h : Guarded o) {e : Entry} (he : e ≠ .started)
    (htransmits : ∀ key, e.Transmits key → Justified o.log key) :
    Guarded { o with log := e :: o.log } where
  justified := ⟨htransmits, h.justified⟩
  buffer hcommand := (h.buffer hcommand).cons he
  stage := stage_cons he h.stage

theorem of_still (h : Guarded o) (hstill : o.Still o') (hstage : Stage o') : Guarded o' where
  justified := by
    rw [hstill.log]
    exact h.justified
  buffer := by
    rw [hstill.command, hstill.log, hstill.key]
    exact h.buffer
  stage := hstage

theorem ne_started_of_sends {e : Entry} (h : o.Sends e) : e ≠ .started := by
  rintro rfl
  exact h

theorem ne_started_of_hears {e : Entry} (h : o.Hears e) : e ≠ .started := by
  rintro rfl
  exact h

theorem transmits_of_hears {e : Entry} (h : o.Hears e) (key : UInt8) : ¬e.Transmits key := by
  cases e <;> first | exact h.elim | exact id

theorem move (h : Guarded o) (hmove : Move o o') (horder : AnswersInOrder o'.log) : Guarded o' := by
  cases hmove with
  | prepare command key hcommand =>
    exact ⟨h.justified, fun hreport => absurd hreport hcommand, h.stage⟩
  | sent e hsends =>
    refine h.note (ne_started_of_sends hsends) fun key hkey => ?_
    have hbuffer : o.command = networkKeyReport ∧ o.key = key := by
      cases e <;> first | exact hsends key hkey | exact hkey.elim
    exact hbuffer.2 ▸ h.buffer hbuffer.1
  | heard e hhears =>
    exact h.note (ne_started_of_hears hhears) fun key hkey =>
      absurd hkey (transmits_of_hears hhears key)
  | restored => exact ⟨h.justified, h.buffer, h.stage⟩
  | idle _ hs hstate hstill hslots =>
    refine h.of_still hstill ?_
    unfold Stage
    rw [hstate]
    trivial
  | start rNode mode key hs =>
    exact ⟨⟨fun _ hkey => hkey.elim, h.justified⟩, fun hreport => absurd hreport (by simp [kexGet, networkKeyReport]), trivial⟩
  | join rNode mode hs =>
    have hstill : Guarded { o with state := .awaitingKexGet, rNode := rNode, mode := mode } :=
      h.of_still ⟨rfl, rfl, rfl⟩ trivial
    exact hstill.note (by simp) fun _ hkey => hkey.elim
  | cancel e hs hfound hrejection =>
    have hidle : Guarded { o with state := .idle } := h.of_still ⟨rfl, rfl, rfl⟩ trivial
    refine hidle.note ?_ fun key hkey => ?_
    · rintro rfl
      cases hrejection
    · cases e <;> first | exact hkey.elim | cases hrejection
  | fail o₁ peer failType hs hstill =>
    have hidle : Guarded { o₁ with state := .idle, temporary := false, network := false } :=
      h.of_still ⟨hstill.1, hstill.2, hstill.3⟩ trivial
    rw [← hstill.log]
    exact hidle.note (by simp) fun _ hkey => hkey.elim
  | complete peer hpeer hs =>
    have hidle : Guarded { o with state := .idle, temporary := false, network := false } :=
      h.of_still ⟨rfl, rfl, rfl⟩ trivial
    exact hidle.note (by simp) fun _ hkey => hkey.elim
  | joined up hs hup =>
    have hidle : Guarded { o with state := .idle, temporary := false, network := false } :=
      h.of_still ⟨rfl, rfl, rfl⟩ trivial
    exact hidle.note (by simp) fun _ hkey => hkey.elim
  | error _ hs hstate hstill =>
    refine h.of_still hstill ?_
    unfold Stage
    rw [hstate]
    trivial
  | joining _ hs hstate hslots hstill =>
    refine h.of_still hstill ?_
    unfold Stage
    cases hs' : o'.state <;> rw [hs'] at hstate <;> trivial
  | reported keyGranted keyExchange hs => exact h.of_still ⟨rfl, rfl, rfl⟩ ⟨rfl, rfl⟩
  | offer mode keys con ok hs haccepts =>
    have hstage : o.schemeSupport = scheme1Support ∧ o.curveSupport = curve25519 := by
      have hstage := h.stage
      unfold Stage at hstage
      rwa [hs] at hstage
    rcases haccepts with ⟨csa, rest, hlog⟩ | ⟨⟨rest, hlog⟩, -⟩
    · have hgranted : UserGranted keys o.log := by
        refine ⟨o.state, csa, ?_⟩
        rw [hlog, era_cons (by simp)]
        exact List.mem_cons_self
      refine ⟨⟨?_, h.justified⟩, fun hreport => absurd hreport (by simp [kexSet, networkKeyReport]),
        hstage.1, hstage.2, hgranted.cons (by simp), con, ok, ?_⟩
      · intro key hkey
        exact absurd hkey.1 (by simp [kexSetFrame, kexSet, networkKeyReport])
      · rw [era_cons (by simp)]
        exact List.mem_cons_self
    · -- a challenge response took the place of the key grant
      have hmisplaced := horder (.challenge o.state acceptInclusion) (by simp [hlog])
      rw [hs] at hmisplaced
      cases hmisplaced
  | challenge hs =>
    have hstage := h.stage
    unfold Stage at hstage
    rw [hs] at hstage
    exact h.of_still ⟨rfl, rfl, rfl⟩ hstage
  | acknowledge mode keys hs haccepts =>
    have hstage := h.stage
    unfold Stage at hstage
    rw [hs] at hstage
    rcases haccepts with ⟨csa, rest, hlog⟩ | ⟨⟨rest, hlog⟩, rfl, rfl⟩
    · -- a key grant took the place of the challenge response
      have hmisplaced := horder (.keyGrant o.state acceptInclusion keys csa) (by simp [hlog])
      rw [hs] at hmisplaced
      cases hmisplaced
    · refine h.of_still ⟨rfl, rfl, rfl⟩ ⟨hstage, o.state, ?_⟩
      change _ ∈ era o.log
      rw [hlog, era_cons (by simp)]
      exact List.mem_cons_self
  | echo src frame hs hecho =>
    have hstage := h.stage
    unfold Stage at hstage
    rw [hs] at hstage
    exact h.of_still ⟨rfl, rfl, rfl⟩ ⟨hstage.1.granted, hstage.2, hstage.1.echoed hecho⟩
  | release src frame key hs hrequested =>
    have hstage := h.stage
    unfold Stage at hstage
    rw [hs] at hstage
    have hjustified : Justified o.log key := justified_of_requested hstage hrequested
    exact ⟨h.justified, fun _ => hjustified, hstage⟩
  | load hs => exact ⟨h.justified, h.buffer, h.stage⟩
  | verify src frame hs hconfirmed =>
    have hstage := h.stage
    unfold Stage at hstage
    rw [hs] at hstage
    refine h.of_still ⟨rfl, rfl, rfl⟩ ?_
    unfold Stage
    dsimp only
    split_ifs <;> exact hstage

theorem moves (h : Guarded o) (hmoves : Moves o o') (horder : AnswersInOrder o'.log) : Guarded o' := by
  induction hmoves with
  | refl => exact h
  | tail _ hmove ih =>
    have hbefore := ih fun e he => horder e (hmove.log_suffix.subset he)
    exact hbefore.move hmove horder

theorem start (keystore : UInt8 → Option Bytes) : Guarded (Ctx.start keystore).progress where
  justified := trivial
  buffer hreport := by
    change (0 : UInt8) = networkKeyReport at hreport
    exact absurd hreport (by decide)
  stage := trivial

end Guarded

/-- While the user answers what is asked, no network key is given away without justification. -/
theorem keyRelease_justified (env : Env) (depth : Nat) (keystore : UInt8 → Option Bytes) (calls : List Call)
    (horder : AnswersInOrder (Ctx.run env depth (Ctx.start keystore) calls).log) :
    ReleasesJustified (Ctx.run env depth (Ctx.start keystore) calls).log :=
  ((Guarded.start keystore).moves (Ctx.moves_run env depth (Ctx.start keystore) calls) horder).justified

def joiner (classId : UInt8) : Connection :=
  { lNode := 1, rNode := 9, txOptions := 0, rxOptions := 0, mgrpGroupId := 0, classId := classId }

def accessInclusion (answer challengeAnswer : Call) : List Call :=
  [.includingStart (joiner 0), .postEvent (joiner nonSecure) [commandClassSecurity2, kexReport, 0, 2, 1, 4], answer,
   .postEvent (joiner nonSecure)
     ([commandClassSecurity2, publicKeyReport, joiningNode] ++ List.replicate publicKeySize 7),
   challengeAnswer,
   .postEvent (joiner tempKeySlot) [commandClassSecurity2, kexSet, echoOn, 2, 1, 4],
   .postEvent (joiner tempKeySlot) [commandClassSecurity2, networkKeyGet, 4]]

def accessKeystore : UInt8 → Option Bytes := fun keyClass =>
  if keyClass = keyClassAccess then some (List.replicate networkKeySize 5) else none

theorem keyRelease_access : AnswersInOrder (Ctx.run Env.passive 0 (Ctx.start accessKeystore)
        (accessInclusion (.keyGrant 1 4 0) (.challengeResponse 1 [7, 7]))).log ∧
      ReleasesJustified (Ctx.run Env.passive 0 (Ctx.start accessKeystore)
        (accessInclusion (.keyGrant 1 4 0) (.challengeResponse 1 [7, 7]))).log :=
  have horder : AnswersInOrder (Ctx.run Env.passive 0 (Ctx.start accessKeystore)
      (accessInclusion (.keyGrant 1 4 0) (.challengeResponse 1 [7, 7]))).log := by decide +kernel
  ⟨horder, keyRelease_justified Env.passive 0 accessKeystore _ horder⟩

/-- A challenge response in the place of the key grant: the access key is given away, and the user
never granted a key. -/
theorem keyRelease_not_granted : ¬ReleasesJustified (Ctx.run Env.passive 0 (Ctx.start accessKeystore)
      (accessInclusion (.challengeResponse 1 [7, 7]) (.challengeResponse 1 [7, 7]))).log := by
  have hgrants : ∀ x ∈ (Ctx.run Env.passive 0 (Ctx.start accessKeystore)
      (accessInclusion (.challengeResponse 1 [7, 7]) (.challengeResponse 1 [7, 7]))).log,
      x.isGrant = false := by decide
  have hreport : ((Ctx.run Env.passive 0 (Ctx.start accessKeystore)
      (accessInclusion (.challengeResponse 1 [7, 7]) (.challengeResponse 1 [7, 7]))).log.head?.any
        fun e => decide (e.Transmits keyClassAccess)) = true := by decide +kernel
  intro hjustified
  generalize (Ctx.run Env.passive 0 (Ctx.start accessKeystore)
      (accessInclusion (.challengeResponse 1 [7, 7]) (.challengeResponse 1 [7, 7]))).log = log at *
  cases log with
  | nil => cases hreport
  | cons e before =>
    have htransmits : e.Transmits keyClassAccess := of_decide_eq_true hreport
    obtain ⟨found, keys, csa, hmem, -⟩ := (hjustified.1 keyClassAccess htransmits).granted
    have hgrant := hgrants _ (List.mem_cons_of_mem e (List.takeWhile_subset _ hmem))
    cases hgrant

end ZipGateway.Inclusion

import ZipGateway.Directory.Effects

/-!
# The command classes of a node

The directory keeps one string of bytes: the node information frame, two classes of the gateway's own, and
the secure reports, each behind a mark. `rd_ep_class_support` finds the sections in it again.
-/

set_option maxRecDepth 8000

namespace ZipGateway.Directory

def mark : UInt16 := 0xEF

def securityMark : UInt16 := 0xF100

def entries : Bytes → List UInt16
  | b :: b' :: rest =>
    if b &&& 0xF0 = 0xF0 then (b.toUInt16 * 256 + b'.toUInt16) :: entries rest
    else b.toUInt16 :: entries (b' :: rest)
  | [b] => [b.toUInt16]
  | [] => []

def Whole : Bytes → Prop
  | b :: b' :: rest => if b &&& 0xF0 = 0xF0 then Whole rest else Whole (b' :: rest)
  | [b] => b &&& 0xF0 ≠ 0xF0
  | [] => True

instance decidableWhole : ∀ bytes, Decidable (Whole bytes)
  | b :: b' :: rest =>
    have := decidableWhole rest
    have := decidableWhole (b' :: rest)
    inferInstanceAs (Decidable (if b &&& 0xF0 = 0xF0 then Whole rest else Whole (b' :: rest)))
  | [b] => inferInstanceAs (Decidable (b &&& 0xF0 ≠ 0xF0))
  | [] => isTrue trivial

def sect (controlled : Bool) (classes : List UInt16) : List UInt16 :=
  if controlled then (classes.dropWhile (· ≠ mark)).filter (· ≠ mark) else classes.takeWhile (· ≠ mark)

def openPart (classes : List UInt16) : List UInt16 :=
  classes.takeWhile (· ≠ securityMark)

def SecurePart (controlled : Bool) (cls : UInt16) (classes : List UInt16) : Prop :=
  ∃ l, (securityMark :: l) <:+ classes ∧ cls ∈ sect controlled (openPart l)

def SaidSecurely (controlled : Bool) (cls : UInt16) (report : Bytes) : Prop :=
  cls ∈ sect controlled (openPart (entries report)) ∨ SecurePart controlled cls (entries report)

/-- The answers of `rd_ep_class_support` are what the node has said; the gateway's own classes stand behind
those of the frame. -/
structure Knows (own nif : Bytes) (reports : List Bytes) (support : UInt16 → UInt8) : Prop where
  clear : ∀ cls controlled, support cls &&& State.supportBit false controlled ≠ 0 ↔
    cls ∈ sect controlled (openPart (entries (nif.drop 3 ++ own)))
  secure : ∀ cls controlled, support cls &&& State.supportBit true controlled ≠ 0 ↔
    SecurePart controlled cls (entries (nif.drop 3 ++ own)) ∨ ∃ report ∈ reports, SaidSecurely controlled cls report

/-- `COMMAND_CLASS_ZIP_NAMING` and `COMMAND_CLASS_ZIP`. -/
def ownClasses : Bytes :=
  [0x68, 0x23]

def marked (report : Bytes) : Bytes :=
  if report = [] then [] else [0xF1, 0x00] ++ report

def infoOf (nif : Bytes) (reports : List Bytes) : Bytes :=
  nif.drop 1 ++ ownClasses ++ reports.flatMap marked

/-- The frame has its three device classes, no list ends in the middle of an extended class, and the
string is at most 255 bytes long. -/
structure WellSaid (nif : Bytes) (reports : List Bytes) : Prop where
  header : 3 ≤ nif.length
  frame : Whole (nif.drop 3)
  whole : ∀ report ∈ reports, Whole report
  room : (infoOf nif reports).length ≤ 255

namespace State

def info? (d : State) (e : Addr) : Option Blob :=
  (d.ep? e).map fun x => x.2.info

def headerLen (p : Endpoint) : Nat :=
  if p.state = .probeSec0Info then 3 else 2

end State

/-- A node information frame and the secure reports after it; whatever else happens leaves the list alone. -/
inductive Interviewed (e : Addr) : State → Bytes → List Bytes → Prop where
  | nif {d : State} {env : Env} {n : Node} {p : Endpoint} {nif : Bytes}
      (hrequest : d.nifRequestEp = some e) (hep : d.ep? e = some (n, p)) (hstate : p.state = .probeInfo)
      (henv : env.allocates = true) : Interviewed e (d.nifRequestNotify env true n.nodeid nif) nif []
  | report {d : State} {env : Env} {n : Node} {p : Endpoint} {nif : Bytes} {reports : List Bytes} {cmd : Bytes}
      (hbefore : Interviewed e d nif reports) (hep : d.ep? e = some (n, p)) (henv : env.allocates = true) :
      Interviewed e (d.secureCommandsCallback env n p (some cmd)) nif (reports ++ [cmd.drop (State.headerLen p)])
  | other {d d' : State} {nif : Bytes} {reports : List Bytes}
      (hbefore : Interviewed e d nif reports) (hinfo : d'.info? e = d.info? e) : Interviewed e d' nif reports

variable {f : Endpoint → Endpoint}

section Entries

variable {bytes more : Bytes}

theorem whole_append (h : Whole bytes) :
    (Whole more → Whole (bytes ++ more)) ∧ entries (bytes ++ more) = entries bytes ++ entries more := by
  induction bytes using Whole.induct with
  | case1 b b' rest hf ih =>
    rw [Whole, if_pos hf] at h
    rw [List.cons_append, List.cons_append, entries, if_pos hf, Whole, if_pos hf, entries, if_pos hf, (ih h).2]
    exact ⟨(ih h).1, rfl⟩
  | case2 b b' rest hf ih =>
    rw [Whole, if_neg hf] at h
    have hrest := ih h
    rw [List.cons_append] at hrest
    rw [List.cons_append, List.cons_append, entries, if_neg hf, Whole, if_neg hf, entries, if_neg hf, hrest.2]
    exact ⟨hrest.1, rfl⟩
  | case3 b =>
    cases more with
    | nil => exact ⟨fun _ => h, rfl⟩
    | cons b' rest =>
      rw [List.singleton_append, Whole, if_neg h, entries, if_neg h]
      exact ⟨id, rfl⟩
  | case4 => exact ⟨id, rfl⟩

end Entries

section Support

variable {cls x : UInt16} {secure controlled s k : Bool} {l : List UInt16}

def supportOf (cls : UInt16) (secure controlled : Bool) : List UInt16 → UInt8
  | [] => 0
  | x :: l =>
    if x = securityMark then supportOf cls true false l
    else if x = mark then supportOf cls secure true l
    else if x = cls then State.supportBit secure controlled ||| supportOf cls secure controlled l
    else supportOf cls secure controlled l

theorem extended_ne_mark {b b' : UInt8} (h : b &&& 0xF0 = 0xF0) : b.toUInt16 * 256 + b'.toUInt16 ≠ mark := by
  have hb : ∀ b : UInt8, b &&& 0xF0 = 0xF0 → 240 ≤ b.toNat := by decide
  have hle := hb b h
  have hlt := UInt8.toNat_lt b
  have hlt' := UInt8.toNat_lt b'
  intro heq
  have hnat := congrArg UInt16.toNat heq
  rw [UInt16.toNat_add, UInt16.toNat_mul, UInt8.toNat_toUInt16, UInt8.toNat_toUInt16] at hnat
  change (b.toNat * 256 % 65536 + b'.toNat) % 65536 = 239 at hnat
  omega

theorem toUInt16_ne_securityMark (b : UInt8) : b.toUInt16 ≠ securityMark := by
  intro heq
  have hlt := UInt8.toNat_lt b
  have hnat := congrArg UInt16.toNat heq
  rw [UInt8.toNat_toUInt16] at hnat
  change b.toNat = 61696 at hnat
  omega

theorem toUInt16_eq_mark_iff (b : UInt8) : b.toUInt16 = mark ↔ b = 0xEF := by
  rw [← UInt16.toNat_inj, ← UInt8.toNat_inj, UInt8.toNat_toUInt16]
  exact Iff.rfl

theorem classSupportFrom_eq (cls : UInt16) (secure controlled : Bool) (bytes : Bytes) :
    State.classSupportFrom cls secure controlled bytes = supportOf cls secure controlled (entries bytes) := by
  induction bytes using entries.induct generalizing secure controlled with
  | case1 b b' rest hf ih =>
    rw [State.classSupportFrom, if_pos hf, entries, if_pos hf, supportOf, if_neg (extended_ne_mark hf)]
    simp only [ih]
    rfl
  | case2 b b' rest hf ih =>
    rw [State.classSupportFrom, if_neg hf, entries, if_neg hf, supportOf, if_neg (toUInt16_ne_securityMark b)]
    simp only [ih, toUInt16_eq_mark_iff]
  | case3 b =>
    rw [State.classSupportFrom, entries, supportOf, if_neg (toUInt16_ne_securityMark b)]
    simp only [toUInt16_eq_mark_iff, supportOf, UInt8.or_zero]
    by_cases hmark : b = 0xEF
    · rw [if_pos hmark, if_neg fun h => h.2 hmark]
    · rw [if_neg hmark]
      simp [hmark]
  | case4 => rfl

theorem or_and_ne_zero (x y z : UInt8) : (x ||| y) &&& z ≠ 0 ↔ x &&& z ≠ 0 ∨ y &&& z ≠ 0 := by
  have hor : (x ||| y) &&& z = 0 ↔ x &&& z = 0 ∧ y &&& z = 0 := by
    rw [← UInt8.toBitVec_inj, ← UInt8.toBitVec_inj, ← UInt8.toBitVec_inj, UInt8.toBitVec_and,
      UInt8.toBitVec_or, BitVec.and_or_distrib_right]
    exact BitVec.or_eq_zero_iff
  rw [Ne, hor, not_and_or]

theorem supportBit_and_iff (secure controlled s k : Bool) :
    State.supportBit secure controlled &&& State.supportBit s k ≠ 0 ↔ s = secure ∧ k = controlled := by
  revert secure controlled s k
  decide

def sectFrom (passed controlled : Bool) (classes : List UInt16) : List UInt16 :=
  if passed then (if controlled then classes.filter (· ≠ mark) else []) else sect controlled classes

theorem mem_sectFrom_mark : cls ∈ sectFrom k controlled (mark :: l) ↔ cls ∈ sectFrom true controlled l := by
  cases k <;> cases controlled <;> simp [sectFrom, sect]

theorem mem_sectFrom_cons (hx : x ≠ mark) :
    cls ∈ sectFrom k controlled (x :: l) ↔ (cls = x ∧ controlled = k) ∨ cls ∈ sectFrom k controlled l := by
  cases k <;> cases controlled <;> simp [sectFrom, sect, hx]

theorem securePart_cons_securityMark : SecurePart controlled cls (securityMark :: l) ↔
    cls ∈ sect controlled (openPart l) ∨ SecurePart controlled cls l := by
  constructor
  · rintro ⟨rest, hsuffix, hmem⟩
    rcases List.suffix_cons_iff.mp hsuffix with heq | hsuffix
    · cases heq
      exact .inl hmem
    · exact .inr ⟨rest, hsuffix, hmem⟩
  · rintro (hmem | ⟨rest, hsuffix, hmem⟩)
    · exact ⟨l, List.suffix_rfl, hmem⟩
    · exact ⟨rest, hsuffix.trans (List.suffix_cons _ _), hmem⟩

theorem securePart_cons (hx : x ≠ securityMark) : SecurePart controlled cls (x :: l) ↔ SecurePart controlled cls l := by
  constructor
  · rintro ⟨rest, hsuffix, hmem⟩
    rcases List.suffix_cons_iff.mp hsuffix with heq | hsuffix
    · cases heq
      exact absurd rfl hx
    · exact ⟨rest, hsuffix, hmem⟩
  · rintro ⟨rest, hsuffix, hmem⟩
    exact ⟨rest, hsuffix.trans (List.suffix_cons _ _), hmem⟩

theorem supportOf_iff : supportOf cls secure k l &&& State.supportBit s controlled ≠ 0 ↔
    (s = secure ∧ cls ∈ sectFrom k controlled (openPart l)) ∨ (s = true ∧ SecurePart controlled cls l) := by
  induction l generalizing secure k with
  | nil =>
    have hnone : ¬ SecurePart controlled cls [] := by
      rintro ⟨rest, hsuffix, -⟩
      cases List.suffix_nil.mp hsuffix
    have hempty : cls ∉ sectFrom k controlled (openPart []) := by
      cases k <;> cases controlled <;> simp [sectFrom, sect, openPart]
    simp [supportOf, hnone, hempty]
  | cons x l ih =>
    rw [supportOf]
    by_cases hsecurity : x = securityMark
    · subst hsecurity
      have hempty : cls ∉ sectFrom k controlled (openPart (securityMark :: l)) := by
        cases k <;> cases controlled <;> simp [sectFrom, sect, openPart]
      rw [if_pos rfl, ih, securePart_cons_securityMark]
      have hfirst : sectFrom false controlled (openPart l) = sect controlled (openPart l) := rfl
      rw [hfirst]
      tauto
    have hopen : openPart (x :: l) = x :: openPart l := List.takeWhile_cons_of_pos (by simp [hsecurity])
    rw [if_neg hsecurity, hopen, securePart_cons hsecurity]
    by_cases hmark : x = mark
    · subst hmark
      rw [if_pos rfl, ih, mem_sectFrom_mark]
    rw [if_neg hmark, mem_sectFrom_cons hmark]
    by_cases heq : x = cls
    · subst heq
      rw [if_pos rfl, or_and_ne_zero, supportBit_and_iff, ih]
      tauto
    · rw [if_neg heq, ih]
      have hne : cls ≠ x := fun h => heq h.symm
      tauto

end Support

section Parts

variable {cls : UInt16} {controlled : Bool} {classes more : List UInt16} {reports : List Bytes} {nif : Bytes}

def Behind (more : List UInt16) : Prop :=
  ∀ x ∈ more.head?, x = securityMark

theorem openPart_append (h : Behind more) : openPart (classes ++ more) = openPart classes := by
  induction classes with
  | nil =>
    cases more with
    | nil => rfl
    | cons x more =>
      have hx : x = securityMark := h x rfl
      exact List.takeWhile_cons_of_neg (by simp [hx])
  | cons x classes ih =>
    by_cases hx : x = securityMark
    · have hstop : ∀ l, openPart (x :: l) = [] := fun l => List.takeWhile_cons_of_neg (by simp [hx])
      rw [List.cons_append, hstop, hstop]
    · have hgo : ∀ l, openPart (x :: l) = x :: openPart l := fun l => List.takeWhile_cons_of_pos (by simp [hx])
      rw [List.cons_append, hgo, hgo, ih]

theorem securePart_append (h : Behind more) : SecurePart controlled cls (classes ++ more) ↔
    SecurePart controlled cls classes ∨ SecurePart controlled cls more := by
  induction classes with
  | nil =>
    have hnone : ¬ SecurePart controlled cls [] := by
      rintro ⟨rest, hsuffix, -⟩
      cases List.suffix_nil.mp hsuffix
    rw [List.nil_append]
    exact ⟨.inr, fun hor => hor.resolve_left hnone⟩
  | cons x classes ih =>
    rw [List.cons_append]
    by_cases hx : x = securityMark
    · rw [hx, securePart_cons_securityMark, securePart_cons_securityMark, openPart_append h, ih, or_assoc]
    · rw [securePart_cons hx, securePart_cons hx, ih]

def listed (reports : List Bytes) : List UInt16 :=
  reports.flatMap fun report => if report = [] then [] else securityMark :: entries report

theorem behind_listed (reports : List Bytes) : Behind (listed reports) := by
  induction reports with
  | nil => exact fun x hx => (by cases hx)
  | cons report reports ih =>
    by_cases hempty : report = []
    · subst hempty
      exact ih
    · have hcons : listed (report :: reports) = securityMark :: (entries report ++ listed reports) := by
        rw [listed, List.flatMap_cons, if_neg hempty]
        rfl
      rw [hcons]
      intro x hx
      exact (Option.some.inj hx).symm

theorem entries_marked (h : ∀ report ∈ reports, Whole report) : entries (reports.flatMap marked) = listed reports := by
  induction reports with
  | nil => rfl
  | cons report reports ih =>
    have hrest := ih fun r hr => h r (List.mem_cons_of_mem _ hr)
    rw [listed, List.flatMap_cons, List.flatMap_cons, marked]
    by_cases hempty : report = []
    · rw [if_pos hempty, if_pos hempty]
      exact hrest
    · have hwhole : Whole ([0xF1, 0x00] ++ report) := h report List.mem_cons_self
      rw [if_neg hempty, if_neg hempty, (whole_append hwhole).2, hrest]
      rfl

theorem securePart_listed : SecurePart controlled cls (listed reports) ↔
    ∃ report ∈ reports, SaidSecurely controlled cls report := by
  induction reports with
  | nil =>
    constructor
    · rintro ⟨rest, hsuffix, -⟩
      cases List.suffix_nil.mp hsuffix
    · rintro ⟨report, hmem, -⟩
      cases hmem
  | cons report reports ih =>
    rw [List.exists_mem_cons_iff, ← ih]
    by_cases hempty : report = []
    · subst hempty
      have hnone : ¬ SaidSecurely controlled cls [] := by
        rintro (hmem | ⟨rest, hsuffix, -⟩)
        · cases controlled <;> simp [openPart, sect, entries] at hmem
        · cases List.suffix_nil.mp hsuffix
      exact ⟨.inr, fun hor => hor.resolve_left hnone⟩
    · have hcons : listed (report :: reports) = (securityMark :: entries report) ++ listed reports := by
        rw [listed, List.flatMap_cons, if_neg hempty]
        rfl
      rw [hcons, securePart_append (behind_listed reports), securePart_cons_securityMark]
      exact Iff.rfl

theorem WellSaid.whole_own (h : WellSaid nif reports) : Whole (nif.drop 3 ++ ownClasses) :=
  (whole_append h.frame).1 (by decide)

theorem WellSaid.entries_eq (h : WellSaid nif reports) :
    entries ((infoOf nif reports).drop 2) = entries (nif.drop 3 ++ ownClasses) ++ listed reports := by
  have hheader := h.header
  have hdrop : (infoOf nif reports).drop 2 = nif.drop 3 ++ ownClasses ++ reports.flatMap marked := by
    rw [infoOf, List.append_assoc, List.drop_append_of_le_length (by rw [List.length_drop]; omega),
      List.drop_drop, List.append_assoc]
  rw [hdrop, (whole_append h.whole_own).2, entries_marked h.whole]

theorem WellSaid.knows (h : WellSaid nif reports) {n : NodeHeader} {p : EpEntry} (hdeleted : n.mode &&& modeFlagsDeleted = 0)
    (hinfo : p.info.val = infoOf nif reports) :
    Knows ownClasses nif reports (State.epClassSupport n p) := by
  have hsupport : ∀ cls, State.epClassSupport n p cls =
      supportOf cls false false (entries (nif.drop 3 ++ ownClasses) ++ listed reports) := by
    intro cls
    rw [State.epClassSupport, if_neg (not_not.mpr hdeleted), classSupportFrom_eq, hinfo, h.entries_eq]
  have hbehind := behind_listed reports
  constructor
  · intro cls controlled
    rw [hsupport, supportOf_iff, openPart_append hbehind]
    constructor
    · exact fun hor => (hor.resolve_right fun hfalse => (by cases hfalse.1)).2
    · exact fun hmem => .inl ⟨rfl, hmem⟩
  · intro cls controlled
    rw [hsupport, supportOf_iff, securePart_append hbehind, securePart_listed]
    constructor
    · exact fun hor => (hor.resolve_left fun hfalse => (by cases hfalse.1)).2
    · exact fun hsecure => .inr ⟨rfl, hsecure⟩

end Parts

section Info

variable {d d' : State} {env : Env} {e a : Addr} {n : Node} {p : Endpoint}

theorem info?_eq (d : State) (e : Addr) : d.info? e =
    d.heap.findSome? fun n => (n.endpoints.find? fun p => p.addr = e).map fun p => p.info := by
  rw [State.info?, State.ep?, List.map_findSome?]
  apply congrArg (List.findSome? · d.heap)
  funext n
  rw [Function.comp_apply, Option.map_map]
  rfl

theorem info?_congr (h : d'.heap = d.heap) : d'.info? e = d.info? e := by
  rw [info?_eq, info?_eq, h]

theorem info?_modifyNode {f : Node → Node} (h : ∀ n, (f n).endpoints = n.endpoints) :
    (d.modifyNode a f).info? e = d.info? e := by
  rw [info?_eq, info?_eq, State.modifyNode, List.findSome?_map]
  apply congrArg (List.findSome? · d.heap)
  funext n
  rw [Function.comp_apply]
  split
  · rw [h]
  · rfl

theorem find?_map_addr (haddr : ∀ p, (f p).addr = p.addr) (l : List Endpoint) :
    (l.map fun p => if p.addr = a then f p else p).find? (fun p => p.addr = e) =
      (l.find? fun p => p.addr = e).map fun p => if p.addr = a then f p else p := by
  rw [List.find?_map]
  apply congrArg (Option.map _)
  apply congrArg (List.find? · l)
  funext p
  rw [Function.comp_apply]
  split
  · rw [haddr]
  · rfl

theorem info?_modifyEp (haddr : ∀ p, (f p).addr = p.addr) (hinfo : ∀ p, (f p).info = p.info) :
    (d.modifyEp a f).info? e = d.info? e := by
  rw [info?_eq, info?_eq, State.modifyEp, List.findSome?_map]
  apply congrArg (List.findSome? · d.heap)
  funext n
  rw [Function.comp_apply, find?_map_addr haddr, Option.map_map]
  apply congrArg (Option.map · _)
  funext p
  rw [Function.comp_apply]
  split
  · exact hinfo p
  · rfl

theorem info?_modifyEp_self {g : Blob → Blob} (haddr : ∀ p, (f p).addr = p.addr)
    (hinfo : ∀ p, (f p).info = g p.info) : (d.modifyEp e f).info? e = (d.info? e).map g := by
  rw [info?_eq, info?_eq, State.modifyEp, List.findSome?_map, List.map_findSome?]
  apply congrArg (List.findSome? · d.heap)
  funext n
  rw [Function.comp_apply, Function.comp_apply, find?_map_addr haddr, Option.map_map, Option.map_map]
  cases hfind : n.endpoints.find? fun p => p.addr = e with
  | none => rfl
  | some p =>
    have hp : p.addr = e := by simpa using List.find?_some hfind
    rw [Option.map_some, Option.map_some, Function.comp_apply, if_pos hp, hinfo]
    rfl

theorem info?_epGoto {s : EpState} : (d.epGoto a s).info? e = d.info? e :=
  info?_modifyEp (d := d) (fun _ => rfl) fun _ => rfl

theorem info?_nifRequestNotify {nif : Bytes} (hrequest : d.nifRequestEp = some e)
    (hep : d.ep? e = some (n, p)) (hstate : p.state = .probeInfo) (henv : env.allocates = true) :
    (d.nifRequestNotify env true n.nodeid nif).info? e = some (.ofBytes (nif.drop 1 ++ ownClasses)) := by
  have haddr := (ep?_spec hep).2.2
  have hinfo : d.info? e = some p.info := by rw [State.info?, hep, Option.map_some]
  have hsame : State.info? { d with nifRequestEp := none, nifRequestTimer := none } e = d.info? e :=
    info?_congr rfl
  unfold State.nifRequestNotify
  rw [hrequest, Option.bind_some, hep]
  dsimp only
  rw [if_neg (not_not.mpr hstate), if_pos ⟨rfl, rfl⟩, if_pos henv, info?_epGoto, haddr]
  rw [info?_modifyNode, info?_modifyNode, info?_modifyEp_self (g := fun _ => .ofBytes (nif.drop 1 ++ ownClasses)),
    info?_modifyNode, hsame, hinfo, Option.map_some]
  · exact fun n => rfl
  · exact fun p => rfl
  · exact fun p => rfl
  · intro n
    split <;> rfl
  · intro n
    split <;> rfl

theorem info?_secureCommandsCallback {cmd : Bytes} (hep : d.ep? e = some (n, p)) (henv : env.allocates = true) :
    (d.secureCommandsCallback env n p (some cmd)).info? e = some (if cmd.drop (State.headerLen p) = [] then p.info
        else .ofBytes (p.info.val ++ [0xF1, 0x00] ++ cmd.drop (State.headerLen p))) := by
  have haddr := (ep?_spec hep).2.2
  have hinfo : d.info? e = some p.info := by rw [State.info?, hep, Option.map_some]
  have hflags : ∀ (c : Prop) [Decidable c] (d₁ : State) (f : Node → Node), (∀ n, (f n).endpoints = n.endpoints) →
      (if c then d₁.modifyNode n.addr f else d₁).info? e = d₁.info? e := by
    intro c _ d₁ f hf
    split
    · exact info?_modifyNode hf
    · rfl
  unfold State.secureCommandsCallback
  dsimp only
  rw [apply_ite (State.info? · e), info?_epGoto, info?_epGoto, ite_self, hflags]
  · change State.info? (if State.headerLen p < cmd.length ∧ env.allocates = true then _ else _) e = _
    by_cases hempty : cmd.drop (State.headerLen p) = []
    · have hlen := List.drop_eq_nil_iff.mp hempty
      rw [if_neg fun h => Nat.not_lt_of_le hlen h.1, hflags, hinfo, if_pos hempty]
      exact fun n => rfl
    · have hlen := Nat.lt_of_not_le fun hle => hempty (List.drop_eq_nil_iff.mpr hle)
      rw [if_pos ⟨hlen, henv⟩, haddr,
        info?_modifyEp_self (g := fun b => .ofBytes (b.val ++ [0xF1, 0x00] ++ cmd.drop (State.headerLen p))),
        hflags, hinfo, if_neg hempty, Option.map_some]
      · exact fun n => rfl
      · exact fun q => rfl
      · exact fun q => rfl
  · exact fun n => rfl

theorem ofBytes_val_of_le {bytes : Bytes} (h : bytes.length ≤ 255) : (Blob.ofBytes bytes).val = bytes := by
  change bytes.take (bytes.length % 256) = bytes
  rw [Nat.mod_eq_of_lt (Nat.lt_succ_of_le h), List.take_length]

theorem infoOf_append (nif : Bytes) (reports : List Bytes) (report : Bytes) :
    infoOf nif (reports ++ [report]) = infoOf nif reports ++ marked report := by
  rw [infoOf, List.flatMap_append, ← List.append_assoc, List.flatMap_singleton]
  rfl

theorem WellSaid.init {nif report : Bytes} {reports : List Bytes} (h : WellSaid nif (reports ++ [report])) :
    WellSaid nif reports := by
  have hroom := h.room
  rw [infoOf_append, List.length_append] at hroom
  exact ⟨h.header, h.frame, fun r hr => h.whole r (List.mem_append_left _ hr), by omega⟩

theorem Interviewed.info {nif : Bytes} {reports : List Bytes} (h : Interviewed e d nif reports)
    (hproper : WellSaid nif reports) : ∃ b : Blob, d.info? e = some b ∧ b.val = infoOf nif reports := by
  induction h with
  | @nif d env n p nif hrequest hep hstate henv =>
    refine ⟨_, info?_nifRequestNotify hrequest hep hstate henv, ?_⟩
    have hroom := hproper.room
    rw [infoOf, List.flatMap_nil, List.append_nil] at hroom ⊢
    exact ofBytes_val_of_le hroom
  | @report d env n p nif reports cmd _ hep henv ih =>
    obtain ⟨b, hb, hval⟩ := ih hproper.init
    have hinfo : p.info = b := by
      rw [State.info?, hep, Option.map_some] at hb
      exact Option.some.inj hb
    refine ⟨_, info?_secureCommandsCallback hep henv, ?_⟩
    have hroom := hproper.room
    rw [infoOf_append, ← hval, ← hinfo, marked] at hroom ⊢
    by_cases hempty : cmd.drop (State.headerLen p) = []
    · rw [if_pos hempty, if_pos hempty, List.append_nil]
    · rw [if_neg hempty] at hroom ⊢
      rw [if_neg hempty, ofBytes_val_of_le (by rwa [List.append_assoc]), List.append_assoc]
  | other _ hinfo ih =>
    obtain ⟨b, hb, hval⟩ := ih hproper
    exact ⟨b, hinfo.trans hb, hval⟩

end Info

section Interview

variable {d : State} {e : Addr} {n : Node} {p : Endpoint}

/-- After an interview `rd_ep_class_support` knows the classes that the node has said, and those that the
gateway adds. -/
theorem knows_of_interviewed {nif : Bytes} {reports : List Bytes} (h : Interviewed e d nif reports)
    (hproper : WellSaid nif reports) (hep : d.ep? e = some (n, p)) :
    (n.mode &&& modeFlagsDeleted = 0 → Knows ownClasses nif reports (State.epClassSupport n.toNodeHeader p.toEpEntry)) ∧
      (n.mode &&& modeFlagsDeleted ≠ 0 → ∀ cls, State.epClassSupport n.toNodeHeader p.toEpEntry cls = 0) := by
  obtain ⟨b, hb, hval⟩ := h.info hproper
  rw [State.info?, hep, Option.map_some] at hb
  cases hb
  exact ⟨fun hdeleted => hproper.knows hdeleted hval, fun hdeleted cls => if_pos hdeleted⟩

def switchNif : Bytes :=
  [4, 0x10, 0x01, 0x25]

def asked : State :=
  run (State.empty Database.empty) (settled (.registerNewNode 5 0))

theorem asked_facts : asked.nifRequestEp = some 1 ∧
    (asked.ep? 1).any (fun x => decide (x.2.state = .probeInfo) && decide (x.1.nodeid = 5)) = true ∧
    ((asked.nifRequestNotify smallHome true 5 switchNif).ep? 1).any (fun x =>
      decide (x.1.mode &&& modeFlagsDeleted = 0) &&
        decide (State.epClassSupport x.1.toNodeHeader x.2.toEpEntry 0x23 &&& 1 ≠ 0)) = true := by
  decide

theorem asked_interviewed : Interviewed 1 (asked.nifRequestNotify smallHome true 5 switchNif) switchNif [] := by
  obtain ⟨hrequest, hasked, -⟩ := asked_facts
  obtain ⟨⟨n, p⟩, hep, hfacts⟩ := (Option.any_eq_true _ _).mp hasked
  rw [Bool.and_eq_true, decide_eq_true_eq, decide_eq_true_eq] at hfacts
  obtain ⟨hstate, hnode⟩ := hfacts
  have hinterviewed := @Interviewed.nif 1 asked smallHome n p switchNif hrequest hep hstate rfl
  rwa [hnode] at hinterviewed

def heard (d : State) (cmd : Bytes) : State :=
  match d.ep? 1 with
  | some (n, p) => d.secureCommandsCallback smallHome n p (some cmd)
  | none => d

theorem Interviewed.heard {nif : Bytes} {reports : List Bytes} (h : Interviewed 1 d nif reports) (cmd : Bytes)
    (hstate : (d.ep? 1).any (fun x => decide (x.2.state ≠ .probeSec0Info)) = true) :
    Interviewed 1 (heard d cmd) nif (reports ++ [cmd.drop 2]) := by
  obtain ⟨⟨n, p⟩, hep, hfacts⟩ := (Option.any_eq_true _ _).mp hstate
  have hreport := @Interviewed.report 1 d smallHome n p nif reports cmd h hep rfl
  rw [State.headerLen, if_neg (of_decide_eq_true hfacts)] at hreport
  rwa [Directory.heard, hep]

/-- A node information frame and two secure reports, the second with an extended class. -/
theorem switch_knows : ∃ d n p, Interviewed 1 d switchNif [[0x25, 0x86], [0xF2, 0x05, 0x71]] ∧ d.ep? 1 = some (n, p) ∧
    Knows ownClasses switchNif [[0x25, 0x86], [0xF2, 0x05, 0x71]]
      (State.epClassSupport n.toNodeHeader p.toEpEntry) := by
  have hinterviewed := (asked_interviewed.heard [0x9F, 0x0E, 0x25, 0x86] (by decide)).heard
    [0x9F, 0x0E, 0xF2, 0x05, 0x71] (by decide)
  have hanswered : ((heard (heard (asked.nifRequestNotify smallHome true 5 switchNif) [0x9F, 0x0E, 0x25, 0x86])
      [0x9F, 0x0E, 0xF2, 0x05, 0x71]).ep? 1).any (fun x => decide (x.1.mode &&& modeFlagsDeleted = 0)) = true := by
    decide
  obtain ⟨⟨n, p⟩, hep, hkept⟩ := (Option.any_eq_true _ _).mp hanswered
  have hproper : WellSaid switchNif [[0x25, 0x86], [0xF2, 0x05, 0x71]] :=
    ⟨by decide, by decide, by decide, by decide⟩
  exact ⟨_, n, p, hinterviewed, hep, (knows_of_interviewed hinterviewed hproper hep).1 (of_decide_eq_true hkept)⟩

theorem switch_not_knows : ¬ ∀ d n p, Interviewed 1 d switchNif [] → d.ep? 1 = some (n, p) →
    Knows [] switchNif [] (State.epClassSupport n.toNodeHeader p.toEpEntry) := by
  intro h
  obtain ⟨-, -, hanswered⟩ := asked_facts
  obtain ⟨⟨n, p⟩, hep, hfacts⟩ := (Option.any_eq_true _ _).mp hanswered
  rw [Bool.and_eq_true, decide_eq_true_eq, decide_eq_true_eq] at hfacts
  have hmem := ((h _ n p asked_interviewed hep).clear 0x23 false).mp hfacts.2
  exact absurd hmem (by decide)

end Interview

end ZipGateway.Directory

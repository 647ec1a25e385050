import Mathlib.Data.List.Chain
import ZipGateway.Udp.Dispatcher

/-!
# Commands inside of commands

`MultiCommandHandler` goes through the commands of a frame with an offset of one byte; a frame may be longer
than that. `SupervisionCommandHandler` takes the length of its command from the frame, and remembers the last
session, which the commands inside of the command may replace before it is done.
-/

namespace ZipGateway.Udp

namespace Frame

variable (f : Frame)

def rangesFrom : Nat → UInt8 → List (Nat × Nat)
  | 0, _ => []
  | n + 1, off =>
    let cmdLen := f.mem off.toNat
    if f.len ≤ off.toNat ∨ f.len < off.toNat + 1 + cmdLen.toNat then []
    else (off.toNat + 1, cmdLen.toNat) :: rangesFrom n (off + cmdLen + 1)

def ranges : List (Nat × Nat) :=
  if f.len < 5 then [] else f.rangesFrom (f.mem 2).toNat 3

def Fits (off : Nat) : Prop :=
  off + 1 + (f.mem off).toNat ≤ f.len

instance (off : Nat) : Decidable (f.Fits off) :=
  inferInstanceAs (Decidable (_ ≤ _))

def prefixedFrom : Nat → Nat → List (Nat × Nat)
  | 0, _ => []
  | n + 1, off =>
    if f.Fits off then (off + 1, (f.mem off).toNat) :: prefixedFrom n (off + 1 + (f.mem off).toNat) else []

def prefixed : List (Nat × Nat) :=
  if f.len < 3 then [] else f.prefixedFrom (f.mem 2).toNat 3

/-- None of the next `n` commands begins past the offsets of one byte, or nothing fits there, nor at the offset
that is taken for it. -/
def Reaches : Nat → Nat → Prop
  | 0, _ => True
  | n + 1, off =>
    if off < 256 then f.Fits off → Reaches n (off + 1 + (f.mem off).toNat)
    else ¬f.Fits off ∧ ¬f.Fits (off % 256)

variable {f}

theorem commands_eq : f.commands = f.ranges.map fun r => f.inner r.1 r.2 := by
  have hfrom : ∀ n off, f.commandsFrom n off = (f.rangesFrom n off).map fun r => f.inner r.1 r.2 := by
    intro n
    induction n with
    | zero => exact fun _ => rfl
    | succ n ih =>
      intro off
      rw [commandsFrom, rangesFrom]
      split
      · rfl
      · rw [List.map_cons, ih]
  unfold commands ranges
  split
  · rfl
  · exact hfrom ..

theorem not_fits_iff {off : Nat} : ¬f.Fits off ↔ f.len ≤ off ∨ f.len < off + 1 + (f.mem off).toNat := by
  unfold Fits
  omega

theorem rangesFrom_eq_iff {n off : Nat} : f.rangesFrom n (UInt8.ofNat off) = f.prefixedFrom n off ↔ f.Reaches n off := by
  induction n generalizing off with
  | zero => exact ⟨fun _ => trivial, fun _ => rfl⟩
  | succ n ih =>
    have hoff : (UInt8.ofNat off).toNat = off % 256 := UInt8.toNat_ofNat'
    rw [rangesFrom, prefixedFrom, Reaches, hoff]
    simp only [← not_fits_iff, ite_not]
    by_cases hbyte : off < 256
    · rw [if_pos hbyte, Nat.mod_eq_of_lt hbyte]
      by_cases hfits : f.Fits off
      · have hnext : UInt8.ofNat off + f.mem off + 1 = UInt8.ofNat (off + 1 + (f.mem off).toNat) := by
          apply UInt8.toNat_inj.mp
          simp only [UInt8.toNat_add, UInt8.toNat_ofNat', hoff]
          change ((off % 256 + (f.mem off).toNat) % 256 + 1) % 256 = _
          omega
        rw [if_pos hfits, if_pos hfits, hnext, List.cons_inj_right, ih]
        exact ⟨fun h _ => h, fun h => h hfits⟩
      · rw [if_neg hfits, if_neg hfits]
        exact ⟨fun _ h => absurd h hfits, fun _ => rfl⟩
    · rw [if_neg hbyte]
      by_cases hthere : f.Fits off <;> by_cases htaken : f.Fits (off % 256) <;> simp only [hthere, htaken, if_true, if_false]
      · simp [hbyte]
      all_goals simp

/-- The commands of the frame are taken as they are there, and the result says whether all of them fit. -/
def Unpacked (f : Frame) (code : Code) : Prop :=
  f.ranges = f.prefixed ∧ code = if 3 ≤ f.len ∧ f.prefixed.length = (f.mem 2).toNat then .handled else .parseError

theorem prefixed_length_le : f.prefixed.length ≤ (f.mem 2).toNat := by
  have hfrom : ∀ n off, (f.prefixedFrom n off).length ≤ n := by
    intro n
    induction n with
    | zero => exact fun _ => Nat.le_refl 0
    | succ n ih =>
      intro off
      rw [prefixedFrom]
      split
      · exact Nat.succ_le_succ (ih _)
      · exact Nat.zero_le _
  unfold prefixed
  split
  · exact Nat.zero_le _
  · exact hfrom ..

end Frame

theorem unpacked_iff {nested : Nested} {s : State} {c : Connection} {f : Frame} (h : f.cmd = multiCmdEncap) :
    f.Unpacked (nested.multiCommandHandler s c f).1 ↔
      if f.len < 5 then 3 ≤ f.len → (f.mem 2).toNat ≠ 0 ∧ ¬f.Fits 3 else f.Reaches (f.mem 2).toNat 3 := by
  have hlength : f.commands.length = f.ranges.length := by rw [Frame.commands_eq, List.length_map]
  have hcode : (nested.multiCommandHandler s c f).1 =
      if f.len < 5 ∨ f.ranges.length < (f.mem 2).toNat then .parseError else .handled := by
    rw [Nested.multiCommandHandler, if_neg (not_not.mpr h), hlength]
  rw [Frame.Unpacked, hcode]
  by_cases hshort : f.len < 5
  · rw [if_pos hshort, if_pos (.inl hshort), Frame.ranges, if_pos hshort]
    by_cases hcount : f.len < 3
    · rw [Frame.prefixed, if_pos hcount, if_neg (by omega)]
      exact ⟨fun _ h => absurd hcount (by omega), fun _ => ⟨rfl, rfl⟩⟩
    · rw [Frame.prefixed, if_neg hcount]
      rcases hn : (f.mem 2).toNat with _ | n
      · simp only [Frame.prefixedFrom, List.length_nil]
        rw [if_pos ⟨by omega, trivial⟩]
        exact ⟨fun h => absurd h.2 (by decide), fun h => absurd rfl (h (by omega)).1⟩
      · rw [Frame.prefixedFrom]
        by_cases hfits : f.Fits 3
        · rw [if_pos hfits]
          exact ⟨fun h => absurd h.1.symm (List.cons_ne_nil _ _), fun h => absurd hfits (h (by omega)).2⟩
        · rw [if_neg hfits, if_neg (by simp)]
          exact ⟨fun _ _ => ⟨Nat.succ_ne_zero n, hfits⟩, fun _ => ⟨rfl, rfl⟩⟩
  · have hranges : f.ranges = f.prefixed ↔ f.Reaches (f.mem 2).toNat 3 := by
      rw [Frame.ranges, if_neg hshort, Frame.prefixed, if_neg (by omega), ← Frame.rangesFrom_eq_iff]
      rfl
    rw [if_neg hshort, ← hranges]
    constructor
    · exact And.left
    · intro heq
      refine ⟨heq, ?_⟩
      have hle := f.prefixed_length_le
      rw [heq]
      by_cases hall : f.prefixed.length = (f.mem 2).toNat
      · rw [if_neg (by omega), if_pos ⟨by omega, hall⟩]
      · rw [if_pos (by omega), if_neg fun h => hall h.2]

/-! ### The sessions of Supervision -/

structure Session where
  single : Bool
  source : IpAddr
  id : UInt8

def Session.Same (x y : Session) : Prop :=
  x.source = y.source ∧ x.id = y.id

def Out.session : Out → Option Session
  | .supervised c session _ => some ⟨c.rxFlags &&& receiveStatusTypeMask = 0, c.ripaddr, session⟩
  | _ => none

def State.sessions (s : State) : List Session :=
  s.log.filterMap Out.session

structure State.Intervened (s : State) : Prop where
  last : ∀ x ∈ s.sessions.head?, x.source = s.lastSrcIp ∧ x.id = s.lastSessionid
  chain : s.sessions.IsChain fun newer older => newer.single = true → ¬newer.Same older

theorem State.Intervened.put {s : State} (h : s.Intervened) {o : Out} (ho : o.session = none) : (s.put o).Intervened := by
  have hsessions : (s.put o).sessions = s.sessions := List.filterMap_cons_none ho
  refine ⟨?_, ?_⟩
  · rw [hsessions]
    exact h.last
  · rw [hsessions]
    exact h.chain

theorem State.Intervened.supervised {s : State} (h : s.Intervened) {c : Connection} {session : UInt8} {f : Frame}
    (hnew : ¬(session = s.lastSessionid ∧ c.rxFlags &&& receiveStatusTypeMask = 0 ∧ s.lastSrcIp = c.ripaddr)) :
    ({ s with lastSrcIp := c.ripaddr, lastSessionid := session }.put (.supervised c session f)).Intervened := by
  refine ⟨fun x hx => ?_, List.isChain_cons.mpr ⟨fun older holder hsingle hsame => hnew ?_, h.chain⟩⟩
  · cases hx
    exact ⟨rfl, rfl⟩
  · obtain ⟨hsource, hid⟩ := h.last older holder
    exact ⟨hsame.2.trans hid, of_decide_eq_true hsingle, hsource.symm.trans hsame.1.symm⟩

namespace Nested

structure Keeps (nested : Nested) : Prop where
  application : ∀ s c f, s.Intervened → (nested.application s c f).1.Intervened
  run : ∀ s c f unwrapped, s.Intervened → (nested.run s c f unwrapped).2.1.Intervened

variable {nested : Nested} {env : Env} {s : State} {c : Connection} {f : Frame}

namespace Keeps

theorem multiCommandHandler (h : nested.Keeps) (hs : s.Intervened) : (nested.multiCommandHandler s c f).2.1.Intervened := by
  have hfold : ∀ (l : List Frame) (sc : State × Connection), sc.1.Intervened →
      (l.foldl (fun sc g => nested.application sc.1 sc.2 g) sc).1.Intervened := by
    intro l
    induction l with
    | nil => exact fun _ h => h
    | cons g l ih => exact fun sc hsc => ih _ (h.application sc.1 sc.2 g hsc)
  unfold Nested.multiCommandHandler
  split
  · exact hs
  · exact hfold _ _ hs

theorem supervisionCommandHandler (h : nested.Keeps) (hs : s.Intervened) :
    (nested.supervisionCommandHandler env s c f).2.1.Intervened := by
  unfold Nested.supervisionCommandHandler
  dsimp only
  split_ifs with hcmd hduplicate
  · exact hs
  · exact hs
  all_goals have hrun := h.run _ c f.supervised true (hs.supervised (f := f.supervised) hduplicate)
  · exact hrun
  · exact hrun
  · exact hrun.put rfl

theorem commandHandlerRun (h : nested.Keeps) (hs : s.Intervened) (unwrapped : Bool) :
    (nested.commandHandlerRun env s c f unwrapped).2.1.Intervened := by
  unfold Nested.commandHandlerRun
  split
  · exact hs.put rfl
  · split
    · exact hs
    · exact hs
    · rename_i fn _
      split
      · exact hs
      · unfold Nested.execute
        have hexecuted : (s.put (.executed c fn f)).Intervened := hs.put rfl
        dsimp only
        split
        · exact h.multiCommandHandler hexecuted
        · split
          · exact h.supervisionCommandHandler hexecuted
          · exact hexecuted

theorem applicationIpCommandHandler (h : nested.Keeps) (hs : s.Intervened) :
    (nested.applicationIpCommandHandler env s c f).1.Intervened := by
  have hhanded : (s.put (.handed c f)).Intervened := hs.put rfl
  unfold Nested.applicationIpCommandHandler
  dsimp only
  generalize (if f.isCachedGet = true then { c with scheme := .schemeUdp } else c) = c'
  split_ifs
  · exact hhanded
  · exact hhanded
  · have hrun : (nested.commandHandlerRun env (s.put (.handed c f)) c' f false).2.1.Intervened :=
      h.commandHandlerRun hhanded false
    generalize nested.commandHandlerRun env (s.put (.handed c f)) c' f false = result at hrun ⊢
    obtain ⟨code, t, d⟩ := result
    cases code with
    | busy => exact hrun.put rfl
    | handled | parseError | notSupported | classNotSupported | postponed | disabled => exact hrun

end Keeps
end Nested

theorem keeps_nested (env : Env) (depth : Nat) : (nested env depth).Keeps := by
  induction depth with
  | zero => exact ⟨fun _ _ _ hs => hs, fun _ _ _ _ hs => hs⟩
  | succ depth ih =>
    exact ⟨fun _ _ _ hs => ih.applicationIpCommandHandler hs, fun _ _ _ unwrapped hs =>
      ih.commandHandlerRun hs unwrapped⟩

/-- Calls of `ApplicationIpCommandHandler`, one after the other. -/
def applications (env : Env) (depth : Nat) (s : State) (calls : List (Connection × Frame)) : State :=
  calls.foldl (fun s call => ((nested env depth).application s call.1 call.2).1) s

theorem intervened_applications {env : Env} {depth : Nat} {calls : List (Connection × Frame)} {s : State}
    (h : s.Intervened) : (applications env depth s calls).Intervened := by
  induction calls generalizing s with
  | nil => exact h
  | cons call calls ih => exact ih ((keeps_nested env depth).application _ _ _ h)

/-- Between two commands of a session, of which the newer is singlecast, there is one of another session. -/
def AtMostOnce (sessions : List Session) : Prop :=
  ∀ (i j : Nat) (newer older : Session), i < j → sessions[i]? = some newer → sessions[j]? = some older → newer.single = true →
    newer.Same older → ∃ k x, i < k ∧ k < j ∧ sessions[k]? = some x ∧ ¬newer.Same x

theorem State.Intervened.atMostOnce {s : State} (h : s.Intervened) : AtMostOnce s.sessions := by
  intro i j newer older hij hnewer holder hsingle hsame
  obtain ⟨hj, rfl⟩ := List.getElem?_eq_some_iff.mp holder
  obtain ⟨hi, rfl⟩ := List.getElem?_eq_some_iff.mp hnewer
  have hnext := List.isChain_iff_getElem.mp h.chain i (by omega) hsingle
  have hne : i + 1 ≠ j := by
    rintro rfl
    exact hnext hsame
  exact ⟨i + 1, _, by omega, by omega, List.getElem?_eq_getElem (by omega), hnext⟩

/-- The frame has `len` bytes of the other from `off` on, which are all there. -/
def Frame.Within (g f : Frame) (off len : Nat) : Prop :=
  g.len = len ∧ ∀ i < len, off + i < f.len ∧ g.mem i = f.mem (off + i)

theorem supervised_within_iff {f : Frame} :
    f.supervised.Within f 4 (f.mem 3).toNat ↔ f.mem 3 = 0 ∨ 4 + (f.mem 3).toNat ≤ f.len := by
  constructor
  · rintro ⟨-, hbytes⟩
    by_cases hzero : (f.mem 3).toNat = 0
    · exact .inl (UInt8.toNat_inj.mp hzero)
    · have hlast := (hbytes ((f.mem 3).toNat - 1) (by omega)).1
      exact .inr (by omega)
  · intro h
    refine ⟨rfl, fun i hi => ⟨?_, rfl⟩⟩
    rcases h with hzero | hle
    · rw [hzero] at hi
      exact absurd hi (Nat.not_lt_zero i)
    · omega

/-- The commands of a Multi Command are taken as they are in the frame exactly if it has five bytes, or there is
no command in its three or four, and no command begins past the offsets of one byte. The command of a Supervision
lies in the frame if its length does. At any depth, a singlecast session is executed again only after another. -/
theorem encapsulated_iff (nested : Nested) (s : State) (c : Connection) (f : Frame) : (f.cmd = multiCmdEncap →
      (f.Unpacked (nested.multiCommandHandler s c f).1 ↔
        if f.len < 5 then 3 ≤ f.len → (f.mem 2).toNat ≠ 0 ∧ ¬f.Fits 3 else f.Reaches (f.mem 2).toNat 3)) ∧
    (f.supervised.Within f 4 (f.mem 3).toNat ↔ f.mem 3 = 0 ∨ 4 + (f.mem 3).toNat ≤ f.len) ∧
    ∀ env depth calls, AtMostOnce (applications env depth .init calls).sessions := by
  refine ⟨fun h => unpacked_iff h, supervised_within_iff, fun env depth calls => ?_⟩
  have hinit : State.init.Intervened := ⟨fun x hx => (by cases hx), List.isChain_nil⟩
  exact (intervened_applications hinit).atMostOnce

def sampleFrame : Frame where
  mem i := if i = 1 then multiCmdEncap else if i = 2 then 2 else if i = 3 then 252 else 1
  len := 258

theorem encapsulated_not : ¬ ∀ (nested : Nested) (s : State) (c : Connection) (f : Frame), f.cmd = multiCmdEncap →
    f.Unpacked (nested.multiCommandHandler s c f).1 := by
  intro hall
  have hranges := (hall (nested sampleEnv 0) .init ⟨.noScheme, 0, false, 0, false, 0, 0, 0⟩ sampleFrame rfl).1
  exact absurd hranges (by decide)

end ZipGateway.Udp

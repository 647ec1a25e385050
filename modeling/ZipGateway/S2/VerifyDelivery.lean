import ZipGateway.S2.Handler
import ZipGateway.Udp.Commands

/-!
# When the delivery is verified

`sec2_send_data` looks for a GET in the frame it sends, and the class it sends it with comes from the
scheme that `S2_msg_received_event` gave to the frame it answers.
-/

namespace ZipGateway.S2

open Udp (Scheme)

def commandClassMultiChannelV4 : UInt8 := 0x60
def multiChannelCmdEncapV2 : UInt8 := 0x0D
def commandClassMultiCmd : UInt8 := 0x8F
def multiCmdEncap : UInt8 := 0x01

structure Decision where
  verify : Bool
  reads : List Nat

section Frames

variable (isGet : UInt8 → UInt8 → Bool)

def isGetInMultiCmd (data : Mem) : Nat → Nat → Decision
  | 0, _ => ⟨false, []⟩
  | n + 1, p =>
    if isGet (data (p + 1)) (data (p + 2)) then ⟨true, [p, p + 1, p + 2]⟩
    else
      let rest := isGetInMultiCmd data n (p + 1 + (data p).toNat)
      ⟨rest.verify, p :: (p + 1) :: (p + 2) :: rest.reads⟩

def isMultiChannelEncap (data : Mem) : Prop :=
  data 0 = commandClassMultiChannelV4 ∧ data 1 = multiChannelCmdEncapV2

instance (data : Mem) : Decidable (isMultiChannelEncap data) :=
  inferInstanceAs (Decidable (_ ∧ _))

/-- The condition of `sec2_send_data`; what it reads depends on what it found before. -/
def verifyDelivery (force busy : Bool) (data : Mem) : Decision :=
  let multi := isGetInMultiCmd isGet data (data 2).toNat 3
  if force || busy then ⟨true, []⟩
  else if isGet (data 0) (data 1) then ⟨true, [0, 1]⟩
  else if isMultiChannelEncap data then
    if isGet (data 4) (data 5) then ⟨true, [0, 1, 4, 5]⟩
    else ⟨multi.verify, [0, 1, 4, 5, 2] ++ multi.reads⟩
  else ⟨multi.verify, [0, 1, 2] ++ multi.reads⟩

def IsGet : Bytes → Prop
  | cls :: cmd :: _ => isGet cls cmd
  | _ => False

def IsMultiChannelGet : Bytes → Prop
  | cls :: cmd :: _ :: _ :: rest =>
    cls = commandClassMultiChannelV4 ∧ cmd = multiChannelCmdEncapV2 ∧ IsGet isGet rest
  | _ => False

def commandsOf : Nat → Bytes → List Bytes
  | 0, _ => []
  | _ + 1, [] => []
  | n + 1, len :: rest => rest.take len.toNat :: commandsOf n (rest.drop len.toNat)

def IsMultiCommandGet : Bytes → Prop
  | cls :: cmd :: n :: rest => cls = commandClassMultiCmd ∧ cmd = multiCmdEncap ∧
    ∃ command ∈ commandsOf n.toNat rest, IsGet isGet command
  | _ => False

/-- Delivery is verified for the frames that are to be verified, and only the frame decides. -/
def VerifiedRight (force busy : Bool) (data : Mem) (len : Nat) : Prop :=
  ((verifyDelivery isGet force busy data).verify ↔
    force ∨ busy ∨ IsGet isGet (data.slice 0 len) ∨ IsMultiChannelGet isGet (data.slice 0 len) ∨
      IsMultiCommandGet isGet (data.slice 0 len)) ∧
  ∀ i ∈ (verifyDelivery isGet force busy data).reads, i < len

/-- Up to the first GET, each of the `n` lengths is followed by two more bytes of the frame. -/
def Linked : Nat → Bytes → Prop
  | 0, _ => True
  | n + 1, len :: cls :: cmd :: rest =>
    isGet cls cmd ∨ Linked n ((cls :: cmd :: rest).drop len.toNat)
  | _ + 1, _ => False

def Seems : Nat → Bytes → Prop
  | 0, _ => False
  | n + 1, len :: cls :: cmd :: rest =>
    isGet cls cmd ∨ Seems n ((cls :: cmd :: rest).drop len.toNat)
  | _ + 1, _ => False

/-- Read as a list of commands from its third byte on, the frame does not end inside the list and
seems to have a GET there only if it is a multi-command encapsulation with one. -/
def Telling : Bytes → Prop
  | cls :: cmd :: n :: rest =>
    (cls = commandClassMultiChannelV4 → cmd = multiChannelCmdEncapV2 → 3 ≤ rest.length) ∧
    Linked isGet n.toNat rest ∧
    (Seems isGet n.toNat rest → IsMultiCommandGet isGet (cls :: cmd :: n :: rest))
  | _ => False

variable {isGet} {data : Mem} {len : Nat}

theorem slice_three {p : Nat} (h : p + 2 < len) : data.slice p (len - p) =
    data p :: data (p + 1) :: data (p + 2) :: data.slice (p + 3) (len - (p + 3)) := by
  rw [Mem.slice_cons data (by omega), Mem.slice_cons data (by omega), Mem.slice_cons data h]

theorem linked_short {n : Nat} {l : Bytes} (h : l.length ≤ 2) : ¬ Linked isGet (n + 1) l ∧ ¬ Seems isGet (n + 1) l := by
  rcases l with - | ⟨a, - | ⟨b, - | ⟨c, l⟩⟩⟩
  · exact ⟨id, id⟩
  · exact ⟨id, id⟩
  · exact ⟨id, id⟩
  · simp only [List.length_cons] at h
    omega

theorem drop_rest {p : Nat} (h : p + 2 < len) (k : Nat) :
    (data (p + 1) :: data (p + 2) :: data.slice (p + 3) (len - (p + 3))).drop k =
      data.slice (p + 1 + k) (len - (p + 1 + k)) := by
  rw [← Mem.slice_cons data h, ← Mem.slice_cons data (s := p + 1) (by omega)]
  rcases Nat.le_total k (len - (p + 1)) with hle | hle
  · have hsplit : len - (p + 1) = k + (len - (p + 1 + k)) := by omega
    rw [hsplit, Mem.drop_slice]
  · rw [show len - (p + 1 + k) = 0 by omega, Mem.slice_zero, List.drop_eq_nil_iff, Mem.length_slice]
    exact hle

theorem isGetInMultiCmd_reads (n p : Nat) : (∀ i ∈ (isGetInMultiCmd isGet data n p).reads, i < len) ↔
      Linked isGet n (data.slice p (len - p)) := by
  induction n generalizing p with
  | zero => simp [isGetInMultiCmd, Linked]
  | succ n ih =>
    by_cases h : p + 2 < len
    · rw [slice_three h, Linked, drop_rest h, ← ih, isGetInMultiCmd]
      by_cases hget : isGet (data (p + 1)) (data (p + 2)) = true
      · rw [if_pos hget]
        simp only [hget, true_or, iff_true, List.forall_mem_cons]
        exact ⟨by omega, by omega, h, by simp⟩
      · rw [if_neg hget]
        simp only [hget, Bool.false_eq_true, false_or, List.forall_mem_cons]
        exact ⟨fun hall => hall.2.2.2, fun hall => ⟨by omega, by omega, h, hall⟩⟩
    · refine iff_of_false (fun hall => h (hall (p + 2) ?_)) (linked_short (by rw [Mem.length_slice]; omega)).1
      rw [isGetInMultiCmd]
      split <;> simp

theorem isGetInMultiCmd_verify {n p : Nat} (h : Linked isGet n (data.slice p (len - p))) :
    (isGetInMultiCmd isGet data n p).verify ↔ Seems isGet n (data.slice p (len - p)) := by
  induction n generalizing p with
  | zero => simp [isGetInMultiCmd, Seems]
  | succ n ih =>
    by_cases hlen : p + 2 < len
    · rw [slice_three hlen, Linked, drop_rest hlen] at h
      rw [slice_three hlen, Seems, drop_rest hlen, isGetInMultiCmd]
      by_cases hget : isGet (data (p + 1)) (data (p + 2)) = true
      · simp [hget]
      · simp only [hget, Bool.false_eq_true, false_or] at h ⊢
        exact ih h
    · exact absurd h (linked_short (by rw [Mem.length_slice]; omega)).1

theorem seems_of_get {n : Nat} {l : Bytes} (h : ∃ command ∈ commandsOf n l, IsGet isGet command) : Seems isGet n l := by
  induction n generalizing l with
  | zero => simp [commandsOf] at h
  | succ n ih =>
    rcases l with - | ⟨len, rest⟩
    · simp [commandsOf] at h
    obtain ⟨command, hmem, hget⟩ := h
    rcases List.mem_cons.mp hmem with rfl | hmem
    · rcases rest with - | ⟨cls, - | ⟨cmd, rest⟩⟩
      · simp [IsGet] at hget
      · cases hlen : len.toNat <;> simp [hlen, IsGet] at hget
      · match hlen : len.toNat with
        | 0 => simp [hlen, IsGet] at hget
        | 1 => simp [hlen, IsGet] at hget
        | k + 2 => exact .inl (by simpa [hlen, IsGet] using hget)
    · have hseems := ih ⟨command, hmem, hget⟩
      rcases rest with - | ⟨cls, - | ⟨cmd, rest⟩⟩
      · cases n <;> simp [commandsOf] at hmem
      · have hshort : ((cls :: []).drop len.toNat).length ≤ 2 := by
          rw [List.length_drop]
          simp only [List.length_cons, List.length_nil]
          omega
        cases n with
        | zero => simp [commandsOf] at hmem
        | succ n => exact absurd hseems (linked_short hshort).2
      · exact .inr hseems

theorem forall_mem_append_lt {l r : List Nat} (h : ∀ i ∈ l, i < len) : (∀ i ∈ l ++ r, i < len) ↔ ∀ i ∈ r, i < len := by
  rw [List.forall_mem_append]
  exact and_iff_right h

theorem multi_right_iff (hlen : 3 ≤ len) : ((isGetInMultiCmd isGet data (data 2).toNat 3).verify ↔
        IsMultiCommandGet isGet (data.slice 0 len)) ∧
      (∀ i ∈ (isGetInMultiCmd isGet data (data 2).toNat 3).reads, i < len) ↔
    Linked isGet (data 2).toNat (data.slice 3 (len - 3)) ∧ (Seems isGet (data 2).toNat (data.slice 3 (len - 3)) →
        IsMultiCommandGet isGet (data.slice 0 len)) := by
  rw [isGetInMultiCmd_reads, and_comm]
  refine and_congr_right fun hlinked => ?_
  rw [isGetInMultiCmd_verify hlinked]
  refine ⟨fun h => h.mp, fun h => ⟨h, fun hget => ?_⟩⟩
  rw [← Nat.sub_zero len, slice_three (p := 0) (by omega)] at hget
  exact seems_of_get hget.2.2

theorem verifiedRight_iff (force busy : Bool) (data : Mem) (len : Nat) : VerifiedRight isGet force busy data len ↔
      force ∨ busy ∨ IsGet isGet (data.slice 0 len) ∨ IsMultiChannelGet isGet (data.slice 0 len) ∨
        Telling isGet (data.slice 0 len) := by
  unfold VerifiedRight verifyDelivery
  by_cases hforced : (force || busy) = true
  · have hforced' : force = true ∨ busy = true := by simpa using hforced
    rw [if_pos hforced]
    rcases hforced' with h | h <;> simp [h]
  have hnot : force = false ∧ busy = false := by simpa using hforced
  rw [if_neg hforced]
  simp only [hnot.1, hnot.2, Bool.false_eq_true, false_or]
  by_cases hlen : len < 2
  · have hshort : data.slice 0 len = [] ∨ data.slice 0 len = [data 0] := by
      rcases Nat.lt_or_ge len 1 with h | h
      · exact .inl (by rw [show len = 0 by omega, Mem.slice_zero])
      · exact .inr (by rw [show len = 1 by omega]; rfl)
    refine iff_of_false (fun h => ?_) ?_
    · have := h.2 1 (by split_ifs <;> simp)
      omega
    · rcases hshort with h | h <;> simp [h, IsGet, IsMultiChannelGet, Telling]
  by_cases hget : isGet (data 0) (data 1) = true
  · have hframe : IsGet isGet (data.slice 0 len) := by
      rw [← Nat.sub_zero len, Mem.slice_cons data (by omega), Mem.slice_cons data (by omega)]
      exact hget
    simp [hget, hframe]
    omega
  rw [if_neg hget]
  rcases Nat.lt_or_ge len 3 with hlt | hge
  · have htwo : data.slice 0 len = [data 0, data 1] := by
      rw [show len = 2 by omega]
      rfl
    refine iff_of_false (fun h => ?_) (by simp [htwo, IsGet, IsMultiChannelGet, Telling, hget])
    have hread : ∀ i, i = 2 ∨ i = 5 → i < len → False := fun i hi hlt => by omega
    split_ifs at h
    · exact hread 5 (.inr rfl) (h.2 5 (by simp))
    · exact hread 2 (.inl rfl) (h.2 2 (by simp))
    · exact hread 2 (.inl rfl) (h.2 2 (by simp))
  have hslice := @slice_three data len 0 (by omega)
  rw [Nat.sub_zero] at hslice
  have hframe : ¬ IsGet isGet (data.slice 0 len) := by
    rw [hslice]
    exact hget
  have htelling : Telling isGet (data.slice 0 len) ↔ (isMultiChannelEncap data → 6 ≤ len) ∧
      Linked isGet (data 2).toNat (data.slice 3 (len - 3)) ∧
      (Seems isGet (data 2).toNat (data.slice 3 (len - 3)) → IsMultiCommandGet isGet (data.slice 0 len)) := by
    rw [hslice, Telling, Mem.length_slice, isMultiChannelEncap, and_imp]
    simp only [Nat.zero_add]
    rw [show 3 ≤ len - 3 ↔ 6 ≤ len by omega]
  rw [htelling, ← multi_right_iff hge]
  simp only [hframe, false_or]
  by_cases hencap : isMultiChannelEncap data
  · have hchannel : IsMultiChannelGet isGet (data.slice 0 len) ↔ 6 ≤ len ∧ isGet (data 4) (data 5) = true := by
      rcases Nat.lt_or_ge len 6 with hlt | hge6
      · refine iff_of_false ?_ (by omega)
        have hrest : (data.slice (0 + 3) (len - (0 + 3))).length ≤ 2 := by
          rw [Mem.length_slice]
          omega
        rw [hslice]
        rcases hl : data.slice (0 + 3) (len - (0 + 3)) with - | ⟨a, - | ⟨b, - | ⟨c, l⟩⟩⟩
        · exact id
        · exact fun h => h.2.2
        · exact fun h => h.2.2
        · rw [hl] at hrest
          simp only [List.length_cons] at hrest
          omega
      · rw [hslice, slice_three (p := 0 + 3) (by omega)]
        exact ⟨fun h => ⟨hge6, h.2.2⟩, fun h => ⟨hencap.1, hencap.2, h.2⟩⟩
    simp only [hencap, if_true, true_imp_iff]
    by_cases hsix : 6 ≤ len
    · by_cases hfour : isGet (data 4) (data 5) = true
      · simp [hchannel, hsix, hfour]
        omega
      · have hreads : ∀ i ∈ [0, 1, 4, 5, 2], i < len := by
          simp only [List.forall_mem_cons]
          exact ⟨by omega, by omega, by omega, by omega, hge, by simp⟩
        simp only [hchannel, hsix, hfour, Bool.false_eq_true, and_false, false_or, true_and, if_false,
          forall_mem_append_lt hreads]
    · refine iff_of_false (fun h => ?_) (by simp [hchannel, hsix])
      have := h.2 5 (by split_ifs <;> simp)
      omega
  · have hchannel : ¬ IsMultiChannelGet isGet (data.slice 0 len) := by
      rw [hslice]
      intro h
      rcases hl : data.slice (0 + 3) (len - (0 + 3)) with - | ⟨a, l⟩
      · rw [hl] at h
        exact h
      · rw [hl] at h
        exact hencap ⟨h.1, h.2.1⟩
    have hreads : ∀ i ∈ [0, 1, 2], i < len := by
      simp only [List.forall_mem_cons]
      exact ⟨by omega, by omega, hge, by simp⟩
    simp only [hencap, hchannel, false_or, false_imp_iff, true_and, if_false, forall_mem_append_lt hreads]

end Frames

section Classes

def Scheme.value : Scheme → UInt8
  | .noScheme => 0xFF
  | .autoScheme => 0xFE
  | .netScheme => 0xFC
  | .useCrc16 => 0xFD
  | .scheme0 => 7
  | .scheme2Unauthenticated => 1
  | .scheme2Authenticated => 2
  | .scheme2Access => 3
  | .schemeUdp => 4

def schemeMap (classId : UInt8) : Option Scheme :=
  [.scheme2Unauthenticated, .scheme2Authenticated, .scheme2Access][classId.toNat]?

def selectedClass (scheme : Scheme) : UInt8 :=
  Scheme.value scheme - Scheme.value .scheme2Unauthenticated

def reported (con : Connection) : UInt8 :=
  (if isLrNode con.rNode then convertLrToNormalKeyclass con else con).classId

/-- An answer with the scheme of the frame is sent with the class of the frame. -/
def SelectedAgain (con : Connection) : Prop :=
  (schemeMap (reported con)).map selectedClass = some (reported con)

instance (con : Connection) : Decidable (SelectedAgain con) :=
  inferInstanceAs (Decidable (_ = _))

theorem selectedAgain_iff_reported (con : Connection) : SelectedAgain con ↔ (reported con).toNat < 3 := by
  unfold SelectedAgain schemeMap
  constructor
  · intro h
    by_contra hge
    rw [List.getElem?_eq_none (by simpa using hge)] at h
    cases h
  · intro h
    have hclass : reported con = 0 ∨ reported con = 1 ∨ reported con = 2 := by
      simp only [← UInt8.toNat_inj, UInt8.reduceToNat]
      omega
    rcases hclass with hclass | hclass | hclass <;> rw [hclass] <;> rfl

theorem selectedAgain_iff (con : Connection) :
    SelectedAgain con ↔ con.classId.toNat < 3 ∨ isLrNode con.rNode ∧ con.classId.toNat < 5 := by
  rw [selectedAgain_iff_reported, reported, convertLrToNormalKeyclass]
  have htoNat (c : UInt8) : con.classId = c ↔ con.classId.toNat = c.toNat := UInt8.toNat_inj.symm
  simp only [htoNat, UInt8.reduceToNat]
  split_ifs with hlr hfour hthree
  · simp [hlr, hfour]
  · simp [hlr, hthree]
  · simp only [hlr, true_and]
    omega
  · simp [hlr]

end Classes

theorem delivery_verified_iff (isGet : UInt8 → UInt8 → Bool) :
    (∀ force busy data len, VerifiedRight isGet force busy data len ↔
      force ∨ busy ∨ IsGet isGet (data.slice 0 len) ∨ IsMultiChannelGet isGet (data.slice 0 len) ∨
        Telling isGet (data.slice 0 len)) ∧
    ∀ con : Connection, con.classId.toNat < nSecClass →
      (SelectedAgain con ↔ con.classId.toNat < 3 ∨ isLrNode con.rNode ∧ con.classId.toNat < 5) :=
  ⟨verifiedRight_iff, fun con _ => selectedAgain_iff con⟩

/-- A Configuration Set whose two bytes of value are those of a Basic Get. -/
theorem delivery_verified_not : ¬ VerifiedRight (fun cls cmd => cls == 0x20 && cmd == 0x02) false false
      (Mem.ofBytes [0x70, 0x04, 0x01, 0x02, 0x20, 0x02]) 6 := by
  intro h
  have hverify := h.1.mp (by decide)
  revert hverify
  simp [Mem.slice, Mem.ofBytes, List.range_succ, IsGet, IsMultiChannelGet, IsMultiCommandGet,
    commandClassMultiChannelV4, commandClassMultiCmd]

end ZipGateway.S2

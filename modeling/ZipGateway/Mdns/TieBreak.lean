import Mathlib.Data.Fin.VecNotation
import Mathlib.Order.PiLex
import ZipGateway.Dhcp.Client

/-!
# Who wins simultaneous probing

`are_we_lex_later_ip6` and `are_we_lex_later_ip4` of `mDNSService.c` compare the address in the probe of
another host with ours, byte by byte. Only a byte of theirs that is above ours ends the loop, so what they
find is the order of the addresses byte for byte, which is part of the lexicographic order.
-/

namespace ZipGateway.Mdns.TieBreak

/-- The bytes of an address, as they are sent. -/
abbrev Address (n : Nat) := Fin n → Fin 256

def lexLaterLoop {n : Nat} (u8 ours : Address n) : Nat :=
  if (List.finRange n).any fun i => decide (ours i < u8 i) then 0 else 1

def areWeLexLaterIp6 (u8 ours : Address 16) : Nat :=
  lexLaterLoop u8 ours

def ip4Bytes (a : Dhcp.Ip4) : Address 4 :=
  ![(a.hi >>> 8).toUInt8.toFin, a.hi.toUInt8.toFin, (a.lo >>> 8).toUInt8.toFin, a.lo.toUInt8.toFin]

def ourIp4 (d : Dhcp.State) (stack : Dhcp.Ip4) (nodeid : UInt8) : Address 4 :=
  ip4Bytes ((d.ipv4addrOfNode nodeid.toUInt16).getD stack)

/-- A probe denial has the address 0.0.0.0 and one of the two flags. -/
def Denies (u8 : Address 4) (flags1 : UInt8) : Prop :=
  (∀ i, u8 i = 0) ∧ flags1 &&& 0x84 ≠ 0

instance (u8 : Address 4) (flags1 : UInt8) : Decidable (Denies u8 flags1) :=
  inferInstanceAs (Decidable (_ ∧ _))

def areWeLexLaterIp4 (d : Dhcp.State) (stack : Dhcp.Ip4) (u8 : Address 4) (nodeid flags1 : UInt8) : Nat :=
  if Denies u8 flags1 then 0 else lexLaterLoop u8 (ourIp4 d stack nodeid)

section Order

variable {n : Nat} {u8 ours : Address n}

theorem lexLaterLoop_eq_one_iff : lexLaterLoop u8 ours = 1 ↔ u8 ≤ ours := by
  rw [lexLaterLoop, Pi.le_def]
  by_cases hle : ∀ i, u8 i ≤ ours i
  · have hnone : ((List.finRange n).any fun i => decide (ours i < u8 i)) = false := by
      apply List.any_eq_false.mpr
      intro i _
      rw [decide_eq_true_eq, not_lt]
      exact hle i
    rw [hnone]
    exact ⟨fun _ => hle, fun _ => rfl⟩
  · obtain ⟨i, hi⟩ := not_forall.mp hle
    have hsome : ((List.finRange n).any fun i => decide (ours i < u8 i)) = true := by
      apply List.any_eq_true.mpr
      exact ⟨i, List.mem_finRange i, decide_eq_true (not_le.mp hi)⟩
    rw [hsome]
    exact ⟨fun h => absurd h (by decide), fun h => absurd h hle⟩

/-- A test that holds on some of what is byte for byte not above ours finds the lexicographic order where
it holds, and where ours is the earlier. -/
theorem agrees_iff {p : Prop} (hp : p → u8 ≤ ours) : (p ↔ toLex u8 ≤ toLex ours) ↔ p ∨ toLex ours < toLex u8 := by
  have hlex : p → toLex u8 ≤ toLex ours := fun h => Pi.toLex_monotone (hp h)
  have hearlier : toLex ours < toLex u8 ↔ ¬toLex u8 ≤ toLex ours := lt_iff_not_ge
  constructor
  · intro h
    by_cases hholds : p
    · exact .inl hholds
    · exact .inr (hearlier.mpr fun hle => hholds (h.mpr hle))
  · rintro (hholds | hlt)
    · exact ⟨hlex, fun _ => hholds⟩
    · exact ⟨hlex, fun hle => absurd hle (hearlier.mp hlt)⟩

theorem one_wins_iff {p q : Prop} (hp : p → u8 ≤ ours) (hq : q → ours ≤ u8) (hne : u8 ≠ ours) : Xor p q ↔ p ∨ q := by
  have hboth : ¬(p ∧ q) := fun h => hne (le_antisymm (hp h.1) (hq h.2))
  rw [xor_iff_or_and_not_and]
  tauto

end Order

theorem areWeLexLaterIp4_eq_one_iff {d : Dhcp.State} {stack : Dhcp.Ip4} {u8 : Address 4} {nodeid flags1 : UInt8} :
    areWeLexLaterIp4 d stack u8 nodeid flags1 = 1 ↔ ¬Denies u8 flags1 ∧ u8 ≤ ourIp4 d stack nodeid := by
  rw [areWeLexLaterIp4]
  split
  · rename_i hdenies
    exact ⟨fun h => absurd h (by decide), fun h => absurd hdenies h.1⟩
  · rename_i hdenies
    rw [lexLaterLoop_eq_one_iff]
    exact ⟨fun h => ⟨hdenies, h⟩, fun h => h.2⟩

/-- Both functions find the lexicographic order where the addresses are in order byte for byte or ours is the
earlier, and one of two hosts wins where their addresses are in order byte for byte; a denial of a probe is
never beaten. -/
theorem areWeLexLater_iff (u8 ours : Address 16) :
    ((areWeLexLaterIp6 u8 ours = 1 ↔ toLex u8 ≤ toLex ours) ↔ u8 ≤ ours ∨ toLex ours < toLex u8) ∧
    (u8 ≠ ours → (Xor (areWeLexLaterIp6 u8 ours = 1) (areWeLexLaterIp6 ours u8 = 1) ↔ u8 ≤ ours ∨ ours ≤ u8)) ∧
    (∀ d stack u8 nodeid flags1, (areWeLexLaterIp4 d stack u8 nodeid flags1 = 1 ↔
        toLex u8 ≤ toLex (ourIp4 d stack nodeid)) ↔
      ¬Denies u8 flags1 ∧ u8 ≤ ourIp4 d stack nodeid ∨ toLex (ourIp4 d stack nodeid) < toLex u8) ∧
    ∀ d d' stack stack' nodeid nodeid' flags1 flags1', ourIp4 d' stack' nodeid' ≠ ourIp4 d stack nodeid →
      (Xor (areWeLexLaterIp4 d stack (ourIp4 d' stack' nodeid') nodeid flags1 = 1)
          (areWeLexLaterIp4 d' stack' (ourIp4 d stack nodeid) nodeid' flags1' = 1) ↔
        ¬Denies (ourIp4 d' stack' nodeid') flags1 ∧ ourIp4 d' stack' nodeid' ≤ ourIp4 d stack nodeid ∨
        ¬Denies (ourIp4 d stack nodeid) flags1' ∧ ourIp4 d stack nodeid ≤ ourIp4 d' stack' nodeid') := by
  refine ⟨?_, fun hne => ?_, fun d stack u8 nodeid flags1 => ?_,
    fun d d' stack stack' nodeid nodeid' flags1 flags1' hne => ?_⟩
  · rw [areWeLexLaterIp6, lexLaterLoop_eq_one_iff]
    exact agrees_iff id
  · rw [areWeLexLaterIp6, areWeLexLaterIp6, lexLaterLoop_eq_one_iff, lexLaterLoop_eq_one_iff]
    exact one_wins_iff id id hne
  · rw [areWeLexLaterIp4_eq_one_iff]
    exact agrees_iff And.right
  · rw [areWeLexLaterIp4_eq_one_iff, areWeLexLaterIp4_eq_one_iff]
    exact one_wins_iff And.right And.right hne

/-- Theirs is 0:100:: and ours is 100::, which is the later. -/
theorem areWeLexLater_not : ¬ ∀ u8 ours : Address 16, areWeLexLaterIp6 u8 ours = 1 ↔ toLex u8 ≤ toLex ours := by
  intro hall
  let u8 : Address 16 := fun i => if i = 2 then 1 else 0
  let ours : Address 16 := fun i => if i = 0 then 1 else 0
  have hlt : toLex u8 < toLex ours := ⟨0, fun j hj => absurd hj (Fin.not_lt_zero j), by decide⟩
  have hwins := (hall u8 ours).mpr hlt.le
  rw [areWeLexLaterIp6, lexLaterLoop_eq_one_iff] at hwins
  exact absurd (hwins 2) (by decide)

end ZipGateway.Mdns.TieBreak

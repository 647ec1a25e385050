import Mathlib.Data.Int.ModEq
import ZipGateway.Directory.Machine

/-!
# The wake-up interval of a node

The interval is chosen around 4200 seconds, rounded to a multiple of the step the node reports. Nodes
count the steps from their minimum.
-/

namespace ZipGateway.Directory

variable {cmd : Bytes} {old : UInt32}

namespace State

/-- The remainder by the step is taken only if the default lies between the limits. -/
def DividesByZero (cmd : Bytes) : Prop :=
  seconds cmd 2 < defaultWakeUpInterval ∧ defaultWakeUpInterval < seconds cmd 5 ∧ seconds cmd 11 = 0

/-- What a node accepts: an interval between the limits, whole steps above the minimum. -/
def AcceptedInterval (cmd : Bytes) (interval : Nat) : Prop :=
  (seconds cmd 2).toNat ≤ interval ∧ interval ≤ (seconds cmd 5).toNat ∧
    ∃ k, interval = (seconds cmd 2).toNat + k * (seconds cmd 11).toNat

/-- For which reports the interval is right. In the first case some multiple of the step lies between
the minimum and the default, in the second case none does. -/
structure IntervalAgrees (old : UInt32) (cmd : Bytes) : Prop where
  step : seconds cmd 2 < defaultWakeUpInterval → defaultWakeUpInterval < seconds cmd 5 → seconds cmd 11 ≠ 0
  multiple : seconds cmd 2 < defaultWakeUpInterval → defaultWakeUpInterval < seconds cmd 5 →
    (seconds cmd 2).toNat ≤ 4200 - 4200 % (seconds cmd 11).toNat →
    (seconds cmd 11).toNat ∣ (seconds cmd 2).toNat
  between : seconds cmd 2 < defaultWakeUpInterval → defaultWakeUpInterval < seconds cmd 5 →
    4200 - 4200 % (seconds cmd 11).toNat < (seconds cmd 2).toNat →
    4200 + 4200 % (seconds cmd 11).toNat ≤ (seconds cmd 5).toNat ∧
      (seconds cmd 2).toNat ≡ 2 * 4200 [MOD (seconds cmd 11).toNat]
  above : seconds cmd 5 < defaultWakeUpInterval → (seconds cmd 11).toNat ∣ (seconds cmd 5).toNat - (seconds cmd 2).toNat
  equal : seconds cmd 2 = defaultWakeUpInterval ∨ seconds cmd 5 = defaultWakeUpInterval → AcceptedInterval cmd old.toNat

section Steps

variable {min max step n : Nat}

theorem exists_steps_iff (h : min ≤ n) : (∃ k, n = min + k * step) ↔ step ∣ n - min := by
  constructor
  · rintro ⟨k, rfl⟩
    rw [Nat.add_sub_cancel_left]
    exact Nat.dvd_mul_left step k
  · rintro ⟨k, hk⟩
    exact ⟨k, by rw [Nat.mul_comm k step, ← hk, Nat.add_sub_cancel' h]⟩

theorem dvd_below_iff (h : min ≤ n - n % step) : step ∣ n - n % step - min ↔ step ∣ min := by
  have hbelow : step ∣ n - n % step := Nat.dvd_sub_mod n
  exact Nat.dvd_sub_iff_right h hbelow

theorem dvd_above_iff (h : min ≤ n) : step ∣ n + n % step - min ↔ min ≡ 2 * n [MOD step] := by
  have hrest : n % step ≡ n [MOD step] := Nat.mod_modEq n step
  have hsum : n + n % step ≡ 2 * n [MOD step] := by
    rw [Nat.two_mul]
    exact Nat.ModEq.add_left n hrest
  rw [← Nat.modEq_iff_dvd' (Nat.le_trans h (Nat.le_add_right _ _))]
  exact ⟨fun hmod => hmod.trans hsum, fun hmod => hmod.trans hsum.symm⟩

end Steps

section Numbers

variable {x : UInt32}

theorem lt_default_iff : x < defaultWakeUpInterval ↔ x.toNat < 4200 := by
  rw [UInt32.lt_iff_toNat_lt]
  exact Iff.rfl

theorem default_lt_iff : defaultWakeUpInterval < x ↔ 4200 < x.toNat := by
  rw [UInt32.lt_iff_toNat_lt]
  exact Iff.rfl

theorem eq_default_iff : x = defaultWakeUpInterval ↔ x.toNat = 4200 := by
  rw [← UInt32.toNat_inj]
  exact Iff.rfl

theorem default_mod (x : UInt32) : (defaultWakeUpInterval % x).toNat = 4200 % x.toNat :=
  UInt32.toNat_mod _ _

theorem default_sub_mod (x : UInt32) :
    (defaultWakeUpInterval - defaultWakeUpInterval % x).toNat = 4200 - 4200 % x.toNat := by
  have hle : defaultWakeUpInterval % x ≤ defaultWakeUpInterval := by
    rw [UInt32.le_iff_toNat_le, default_mod]
    exact Nat.mod_le _ _
  rw [UInt32.toNat_sub_of_le _ _ hle, default_mod]
  rfl

theorem default_add_mod (x : UInt32) :
    (defaultWakeUpInterval + defaultWakeUpInterval % x).toNat = 4200 + 4200 % x.toNat := by
  have hle := Nat.mod_le 4200 x.toNat
  rw [UInt32.toNat_add, default_mod]
  exact Nat.mod_eq_of_lt (Nat.lt_of_le_of_lt (Nat.add_le_add_left hle _) (by decide))

end Numbers

theorem chosenInterval_between (hmin : seconds cmd 2 < defaultWakeUpInterval)
    (hmax : defaultWakeUpInterval < seconds cmd 5) : (chosenInterval old cmd).toNat =
      if 4200 - 4200 % (seconds cmd 11).toNat < (seconds cmd 2).toNat
        then 4200 + 4200 % (seconds cmd 11).toNat else 4200 - 4200 % (seconds cmd 11).toNat := by
  have heq : chosenInterval old cmd =
      if defaultWakeUpInterval - defaultWakeUpInterval % seconds cmd 11 < seconds cmd 2
        then defaultWakeUpInterval + defaultWakeUpInterval % seconds cmd 11
        else defaultWakeUpInterval - defaultWakeUpInterval % seconds cmd 11 := if_pos ⟨hmin, hmax⟩
  rw [heq]
  split
  · rename_i hlt
    rw [UInt32.lt_iff_toNat_lt, default_sub_mod] at hlt
    rw [if_pos hlt, default_add_mod]
  · rename_i hlt
    rw [UInt32.lt_iff_toNat_lt, default_sub_mod] at hlt
    rw [if_neg hlt, default_sub_mod]

theorem chosenInterval_below (hmin : defaultWakeUpInterval < seconds cmd 2) :
    chosenInterval old cmd = seconds cmd 2 := by
  have hnot : ¬ seconds cmd 2 < defaultWakeUpInterval := by
    rw [lt_default_iff]
    rw [default_lt_iff] at hmin
    omega
  exact (if_neg fun h => hnot h.1).trans (if_pos hmin)

theorem chosenInterval_above (hle : seconds cmd 2 ≤ seconds cmd 5)
    (hmax : seconds cmd 5 < defaultWakeUpInterval) : chosenInterval old cmd = seconds cmd 5 := by
  have hnot : ¬ defaultWakeUpInterval < seconds cmd 5 := by
    rw [default_lt_iff]
    rw [lt_default_iff] at hmax
    omega
  have hnot' : ¬ defaultWakeUpInterval < seconds cmd 2 := by
    rw [default_lt_iff]
    rw [lt_default_iff] at hmax
    rw [UInt32.le_iff_toNat_le] at hle
    omega
  exact (if_neg fun h => hnot h.2).trans ((if_neg hnot').trans (if_pos hmax))

theorem chosenInterval_equal (hle : seconds cmd 2 ≤ seconds cmd 5)
    (heq : seconds cmd 2 = defaultWakeUpInterval ∨ seconds cmd 5 = defaultWakeUpInterval) :
    chosenInterval old cmd = old := by
  rw [eq_default_iff, eq_default_iff] at heq
  rw [UInt32.le_iff_toNat_le] at hle
  have hbetween : ¬ (seconds cmd 2 < defaultWakeUpInterval ∧ defaultWakeUpInterval < seconds cmd 5) := by
    rw [lt_default_iff, default_lt_iff]
    omega
  have hlow : ¬ defaultWakeUpInterval < seconds cmd 2 := by
    rw [default_lt_iff]
    omega
  have hhigh : ¬ seconds cmd 5 < defaultWakeUpInterval := by
    rw [lt_default_iff]
    omega
  exact (if_neg hbetween).trans ((if_neg hlow).trans (if_neg hhigh))

/-- For a report with a minimum that is not above the maximum, `rd_cap_wake_up_callback` does not divide
by zero and chooses an interval the node accepts in just these cases. -/
theorem chosenInterval_accepted_iff (old : UInt32) (cmd : Bytes) (h : seconds cmd 2 ≤ seconds cmd 5) :
    ¬ DividesByZero cmd ∧ AcceptedInterval cmd (chosenInterval old cmd).toNat ↔ IntervalAgrees old cmd := by
  have hle : (seconds cmd 2).toNat ≤ (seconds cmd 5).toNat := UInt32.le_iff_toNat_le.mp h
  by_cases hbetween : seconds cmd 2 < defaultWakeUpInterval ∧ defaultWakeUpInterval < seconds cmd 5
  · obtain ⟨hmin, hmax⟩ := hbetween
    have hmin' := lt_default_iff.mp hmin
    have hmax' := default_lt_iff.mp hmax
    have hnotAbove : ¬ seconds cmd 5 < defaultWakeUpInterval := by
      rw [lt_default_iff]
      omega
    have hnotEqual : ¬ (seconds cmd 2 = defaultWakeUpInterval ∨ seconds cmd 5 = defaultWakeUpInterval) := by
      rw [eq_default_iff, eq_default_iff]
      omega
    rw [AcceptedInterval, chosenInterval_between hmin hmax]
    by_cases hlow : 4200 - 4200 % (seconds cmd 11).toNat < (seconds cmd 2).toNat
    · have hup : (seconds cmd 2).toNat ≤ 4200 + 4200 % (seconds cmd 11).toNat := by omega
      rw [if_pos hlow, exists_steps_iff hup, dvd_above_iff (Nat.le_of_lt hmin')]
      constructor
      · rintro ⟨hzero, -, hroom, hmod⟩
        exact ⟨fun _ _ hstep => hzero ⟨hmin, hmax, hstep⟩, fun _ _ hfits => absurd hlow (by omega),
          fun _ _ _ => ⟨hroom, hmod⟩, fun hcase => absurd hcase hnotAbove,
          fun hcase => absurd hcase hnotEqual⟩
      · intro hagrees
        obtain ⟨hroom, hmod⟩ := hagrees.between hmin hmax hlow
        exact ⟨fun hzero => hagrees.step hmin hmax hzero.2.2, hup, hroom, hmod⟩
    · have hfits : (seconds cmd 2).toNat ≤ 4200 - 4200 % (seconds cmd 11).toNat := by omega
      rw [if_neg hlow, exists_steps_iff hfits, dvd_below_iff hfits]
      constructor
      · rintro ⟨hzero, -, -, hdvd⟩
        exact ⟨fun _ _ hstep => hzero ⟨hmin, hmax, hstep⟩, fun _ _ _ => hdvd,
          fun _ _ hcase => absurd hcase hlow, fun hcase => absurd hcase hnotAbove,
          fun hcase => absurd hcase hnotEqual⟩
      · intro hagrees
        refine ⟨fun hzero => hagrees.step hmin hmax hzero.2.2, hfits, by omega, ?_⟩
        exact hagrees.multiple hmin hmax hfits
  · have hzero : ¬ DividesByZero cmd := fun hzero => hbetween ⟨hzero.1, hzero.2.1⟩
    have hvoid : ∀ {P : Prop}, seconds cmd 2 < defaultWakeUpInterval →
        defaultWakeUpInterval < seconds cmd 5 → P := fun hmin hmax => absurd ⟨hmin, hmax⟩ hbetween
    by_cases hlow : defaultWakeUpInterval < seconds cmd 2
    · -- The minimum is always accepted.
      have hlow' := default_lt_iff.mp hlow
      rw [chosenInterval_below hlow]
      refine ⟨fun _ => ⟨hvoid, hvoid, hvoid, fun hcase => ?_, fun hcase => ?_⟩,
        fun _ => ⟨hzero, Nat.le_refl _, hle, 0, ?_⟩⟩
      · rw [lt_default_iff] at hcase
        omega
      · rw [eq_default_iff, eq_default_iff] at hcase
        omega
      · rw [Nat.zero_mul, Nat.add_zero]
    · rw [default_lt_iff] at hlow
      by_cases hhigh : seconds cmd 5 < defaultWakeUpInterval
      · have hhigh' := lt_default_iff.mp hhigh
        rw [chosenInterval_above h hhigh, AcceptedInterval, exists_steps_iff hle]
        refine ⟨fun haccepts => ⟨hvoid, hvoid, hvoid, fun _ => haccepts.2.2.2, fun hcase => ?_⟩,
          fun hagrees => ⟨hzero, hle, Nat.le_refl _, hagrees.above hhigh⟩⟩
        rw [eq_default_iff, eq_default_iff] at hcase
        omega
      · have hequal : seconds cmd 2 = defaultWakeUpInterval ∨ seconds cmd 5 = defaultWakeUpInterval := by
          rw [lt_default_iff] at hhigh
          rw [lt_default_iff, default_lt_iff] at hbetween
          rw [eq_default_iff, eq_default_iff]
          omega
        rw [chosenInterval_equal h hequal]
        exact ⟨fun haccepts => ⟨hvoid, hvoid, hvoid, fun hcase => absurd hcase hhigh,
          fun _ => haccepts.2⟩, fun hagrees => ⟨hzero, hagrees.equal hequal⟩⟩

def minutesReport : Bytes :=
  [0x84, 0x0A, 0, 0, 60, 1, 81, 128, 0, 14, 16, 0, 0, 60]

theorem minutesReport_accepted : seconds minutesReport 2 ≤ seconds minutesReport 5 ∧
    IntervalAgrees defaultWakeUpInterval minutesReport := by
  have hle : seconds minutesReport 2 ≤ seconds minutesReport 5 := by decide
  refine ⟨hle, (chosenInterval_accepted_iff defaultWakeUpInterval minutesReport hle).mp ⟨?_, ?_⟩⟩
  · rintro ⟨-, -, hzero⟩
    exact absurd hzero (by decide)
  · exact ⟨by decide, by decide, 69, by decide⟩

def hoursReport : Bytes :=
  [0x84, 0x0A, 0, 14, 76, 1, 81, 128, 0, 14, 16, 0, 14, 16]

theorem hoursReport_not_accepted : ¬ ∀ (old : UInt32) (cmd : Bytes), seconds cmd 2 ≤ seconds cmd 5 →
    ¬ DividesByZero cmd ∧ AcceptedInterval cmd (chosenInterval old cmd).toNat := by
  intro h
  obtain ⟨-, -, -, k, hk⟩ := h defaultWakeUpInterval hoursReport (by decide)
  have hchosen : (chosenInterval defaultWakeUpInterval hoursReport).toNat = 4800 := by decide
  have hmin : (seconds hoursReport 2).toNat = 3660 := by decide
  have hstep : (seconds hoursReport 11).toNat = 3600 := by decide
  rw [hchosen, hmin, hstep] at hk
  omega

end State

end ZipGateway.Directory

import Mathlib.Algebra.Order.Ring.Nat

namespace Mac80211.MeshAirtime

def arithShift : Nat := 8
def testFrameLen : Nat := 8192
def maxMetric : Nat := 0xffffffff

-- 8 bits are behind the point.
def err (failAvg : Nat) : Nat := failAvg * 2 ^ arithShift / 100

-- rate: cfg80211_calculate_bitrate, in units of 100 kbit/s.
def txTime (rate : Nat) : Nat := 2 ^ arithShift + 10 * (testFrameLen * 2 ^ arithShift) / rate
def estimatedRetx (failAvg : Nat) : Nat := 2 ^ (2 * arithShift) / (2 ^ arithShift - err failAvg)

-- The product is one of two u32.
def airtimeLinkMetricGet (rate failAvg : Nat) : Nat :=
  if failAvg ≥ 100 then maxMetric
  else if rate = 0 then maxMetric
  else txTime rate * estimatedRetx failAvg % 2 ^ 32 / 2 ^ (2 * arithShift)

structure Faithful (rate failAvg : Nat) : Prop where
  whole : txTime rate * estimatedRetx failAvg < 2 ^ 32
  monotone : ∀ less ≤ failAvg, airtimeLinkMetricGet rate less ≤ airtimeLinkMetricGet rate failAvg

def slowest (failAvg : Nat) : Nat := 20971520 / ((2 ^ 32 - 1) / estimatedRetx failAvg - 255)

section metric

theorem err_lt (finite : failAvg < 100) : err failAvg < 2 ^ arithShift := by
  unfold err arithShift
  omega

theorem err_mono (fewer : less ≤ failAvg) : err less ≤ err failAvg := by
  exact Nat.div_le_div_right (Nat.mul_le_mul_right _ fewer)

theorem retx_mono (fewer : less ≤ failAvg) (finite : failAvg < 100) : estimatedRetx less ≤ estimatedRetx failAvg := by
  have more := err_mono fewer
  have below := err_lt finite
  exact Nat.div_le_div_left (by omega) (by omega)

theorem retx_range (finite : failAvg < 100) : 2 ^ 8 ≤ estimatedRetx failAvg ∧ estimatedRetx failAvg ≤ 21845 := by
  have first : estimatedRetx 0 ≤ estimatedRetx failAvg := retx_mono (Nat.zero_le _) finite
  have last : estimatedRetx failAvg ≤ estimatedRetx 99 := retx_mono (by omega) (by decide)
  exact ⟨first,last⟩

section
variable (finite : failAvg < 100) (known : 0 < rate)
include finite known

theorem metric_finite :
    airtimeLinkMetricGet rate failAvg = txTime rate * estimatedRetx failAvg % 2 ^ 32 / 2 ^ (2 * arithShift) := by
  unfold airtimeLinkMetricGet
  rw [if_neg (by omega),if_neg (by omega)]

theorem whole_iff : txTime rate * estimatedRetx failAvg < 2 ^ 32 ↔ slowest failAvg < rate := by
  obtain ⟨_,high⟩ := retx_range finite
  have positive : 0 < estimatedRetx failAvg := by omega
  have room : 255 < (2 ^ 32 - 1) / estimatedRetx failAvg := by
    have most : (2 ^ 32 - 1) / 21845 ≤ (2 ^ 32 - 1) / estimatedRetx failAvg := Nat.div_le_div_left high positive
    omega
  have fits : txTime rate * estimatedRetx failAvg < 2 ^ 32 ↔ txTime rate ≤ (2 ^ 32 - 1) / estimatedRetx failAvg := by
    rw [Nat.le_div_iff_mul_le positive]
    omega
  have time : txTime rate = 256 + 20971520 / rate := rfl
  have bound : 20971520 / rate < (2 ^ 32 - 1) / estimatedRetx failAvg - 255 ↔ slowest failAvg < rate := by
    unfold slowest
    rw [Nat.div_lt_iff_lt_mul known,Nat.div_lt_iff_lt_mul (by omega),Nat.mul_comm]
  omega

theorem metric_exact : Faithful rate failAvg ↔ slowest failAvg < rate := by
  refine ⟨fun faithful => (whole_iff finite known).mp faithful.whole,?_⟩
  intro fast
  have whole := (whole_iff finite known).mpr fast
  refine ⟨whole,?_⟩
  intro less fewer
  have product : txTime rate * estimatedRetx less ≤ txTime rate * estimatedRetx failAvg :=
    Nat.mul_le_mul_left _ (retx_mono fewer finite)
  rw [metric_finite (by omega) known,metric_finite finite known,Nat.mod_eq_of_lt whole,
    Nat.mod_eq_of_lt (Nat.lt_of_le_of_lt product whole)]
  exact Nat.div_le_div_right product

end

theorem metric_exact_sample : Faithful 10 87 ↔ slowest 87 < 10 := metric_exact (by decide) (by decide)

theorem slowest_mono (fewer : less ≤ failAvg) (finite : failAvg < 100) : slowest less ≤ slowest failAvg := by
  obtain ⟨_,-⟩ := retx_range (show less < 100 by omega)
  obtain ⟨-,high⟩ := retx_range finite
  have more := retx_mono fewer finite
  have room : 255 < (2 ^ 32 - 1) / estimatedRetx failAvg := by
    have most : (2 ^ 32 - 1) / 21845 ≤ (2 ^ 32 - 1) / estimatedRetx failAvg := Nat.div_le_div_left high (by omega)
    omega
  have shares : (2 ^ 32 - 1) / estimatedRetx failAvg ≤ (2 ^ 32 - 1) / estimatedRetx less := Nat.div_le_div_left more (by omega)
  exact Nat.div_le_div_left (by omega) (by omega)

theorem slow_attracts : ∀ rate < 107, 0 < rate →
    ∃ loss < 99, airtimeLinkMetricGet rate (loss + 1) < airtimeLinkMetricGet rate loss := by
  decide +kernel

theorem every_loss (known : 0 < rate) : ((∀ failAvg < 100, Faithful rate failAvg) ↔ 107 ≤ rate) ∧
    (rate < 107 → ∃ loss < 99, airtimeLinkMetricGet rate (loss + 1) < airtimeLinkMetricGet rate loss) := by
  have last : slowest 99 = 106 := by decide
  refine ⟨?_,fun slow => slow_attracts rate slow known⟩
  constructor
  · intro faithful
    have fast := (metric_exact (by decide) known).mp (faithful 99 (by decide))
    exact fast
  · intro _ failAvg finite
    have bound : slowest failAvg ≤ slowest 99 := slowest_mono (by omega) (by decide)
    exact (metric_exact finite known).mpr (by omega)

theorem every_loss_sample : ((∀ failAvg < 100, Faithful 60 failAvg) ↔ 107 ≤ 60) ∧
    (60 < 107 → ∃ loss < 99, airtimeLinkMetricGet 60 (loss + 1) < airtimeLinkMetricGet 60 loss) :=
  every_loss (by decide)

theorem high_loss_attracts : ¬ Faithful 10 95 ∧ airtimeLinkMetricGet 10 95 < airtimeLinkMetricGet 10 80 := by
  refine ⟨?_,by decide⟩
  intro faithful
  exact absurd (faithful.monotone 80 (by decide)) (by decide)

end metric

end Mac80211.MeshAirtime

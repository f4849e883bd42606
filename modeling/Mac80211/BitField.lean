import Mathlib.Algebra.Ring.Nat
import Mathlib.Tactic.Common

namespace BitField

-- The w bits of a number from bit s on, and the number with others in their place.
def mask (s w : Nat) : Nat := (2 ^ w - 1) * 2 ^ s
def get (s w v : Nat) : Nat := v / 2 ^ s % 2 ^ w
def set (s w v x : Nat) : Nat := 2 ^ s * (2 ^ w * (v / 2 ^ (s + w)) + x % 2 ^ w) + v % 2 ^ s


theorem testBit_mask (s w i : Nat) : (mask s w).testBit i = decide (s ≤ i ∧ i < s + w) := by
  rw [mask,Nat.testBit_mul_two_pow,Nat.testBit_two_pow_sub_one,← Bool.decide_and]
  exact decide_eq_decide.mpr (by omega)

theorem testBit_set (s w v x i : Nat) : (set s w v x).testBit i = if s ≤ i ∧ i < s + w then x.testBit (i - s) else v.testBit i := by
  rw [set,Nat.testBit_two_pow_mul_add _ (Nat.mod_lt _ (Nat.two_pow_pos s))]
  by_cases low : i < s
  · rw [if_pos low,if_neg (by omega),Nat.testBit_mod_two_pow,decide_eq_true low,Bool.true_and]
  · rw [if_neg low,Nat.testBit_two_pow_mul_add _ (Nat.mod_lt _ (Nat.two_pow_pos w))]
    by_cases inside : i - s < w
    · rw [if_pos inside,if_pos (by omega),Nat.testBit_mod_two_pow,decide_eq_true inside,Bool.true_and]
    · have place : i - s - w + (s + w) = i := by omega
      rw [if_neg inside,if_neg (by omega),Nat.testBit_div_two_pow,place]

theorem testBit_get (s w v i : Nat) : (get s w v).testBit i = (decide (i < w) && v.testBit (i + s)) := by
  rw [get,Nat.testBit_mod_two_pow,Nat.testBit_div_two_pow]

theorem and_mask (s w v : Nat) : v &&& mask s w = get s w v * 2 ^ s := by
  apply Nat.eq_of_testBit_eq
  intro i
  rw [Nat.testBit_and,testBit_mask,Nat.testBit_mul_two_pow,testBit_get]
  by_cases low : s ≤ i
  · have place : i - s + s = i := by omega
    by_cases inside : i < s + w
    · simp [low,inside,place,show i - s < w by omega]
    · simp [inside,show ¬ i - s < w by omega]
  · simp [low]

theorem mask_lt (s w : Nat) : mask s w < 2 ^ (s + w) := by
  apply Nat.lt_pow_two_of_testBit
  intro i _
  rw [testBit_mask]
  exact decide_eq_false (by omega)

theorem merge (fits : s + w ≤ n) (small : v < 2 ^ n) : v &&& (2 ^ n - (mask s w + 1)) ||| u &&& mask s w = set s w v (get s w u) := by
  have below : mask s w < 2 ^ n := Nat.lt_of_lt_of_le (mask_lt s w) (Nat.pow_le_pow_right (by decide) fits)
  apply Nat.eq_of_testBit_eq
  intro i
  rw [Nat.testBit_or,Nat.testBit_and,Nat.testBit_and,Nat.testBit_two_pow_sub_succ below,testBit_mask,testBit_set,testBit_get]
  by_cases inside : s ≤ i ∧ i < s + w
  · have place : i - s + s = i := by omega
    simp [inside,place,show i - s < w by omega]
  · by_cases above : i < n
    · simp [inside,above]
    · have zero : v.testBit i = false := Nat.testBit_lt_two_pow (Nat.lt_of_lt_of_le small (Nat.pow_le_pow_right (by decide) (by omega)))
      simp [inside,zero]

theorem set_get (s w v : Nat) : set s w v (get s w v) = v := by
  apply Nat.eq_of_testBit_eq
  intro i
  rw [testBit_set,testBit_get]
  by_cases inside : s ≤ i ∧ i < s + w
  · have place : i - s + s = i := by omega
    simp [inside,place,show i - s < w by omega]
  · simp [inside]

theorem get_set (s w v x : Nat) : get s w (set s w v x) = x % 2 ^ w := by
  apply Nat.eq_of_testBit_eq
  intro i
  rw [testBit_get,testBit_set,Nat.testBit_mod_two_pow]
  by_cases inside : i < w
  · have place : s ≤ i + s ∧ i + s < s + w := by omega
    rw [if_pos place,Nat.add_sub_cancel]
  · simp [inside]

theorem set_mod (s w v x : Nat) : set s w v (x % 2 ^ w) = set s w v x := by rw [set,set,Nat.mod_mod]

theorem set_eq_iff (s w v x y : Nat) : set s w v x = set s w v y ↔ x % 2 ^ w = y % 2 ^ w := by
  constructor
  · intro same
    rw [← get_set s w v x,same,get_set]
  · intro same
    rw [← set_mod,same,set_mod]

theorem get_lt (s w v : Nat) : get s w v < 2 ^ w := Nat.mod_lt _ (Nat.two_pow_pos w)

theorem set_next_iff (v : Nat) (positive : 0 < d) (most : d ≤ 2 ^ w) : set s w v (get s w v + d) = v ↔ d = 2 ^ w := by
  have below := get_lt s w v
  nth_rewrite 3 [← set_get s w v]
  rw [set_eq_iff,Nat.mod_eq_of_lt below]
  constructor
  · intro same
    by_cases inside : get s w v + d < 2 ^ w
    · rw [Nat.mod_eq_of_lt inside] at same
      omega
    · rw [Nat.mod_eq_sub_mod (by omega),Nat.mod_eq_of_lt (by omega)] at same
      omega
  · intro whole
    rw [whole,Nat.add_mod_right,Nat.mod_eq_of_lt below]

theorem get_shift (s w x : Nat) : get s w (x * 2 ^ s) = x % 2 ^ w := by rw [get,Nat.mul_div_cancel _ (Nat.two_pow_pos s)]

theorem set_of_agree (agree : ∀ i, ¬(s ≤ i ∧ i < s + w) → u.testBit i = v.testBit i) : u = set s w v (get s w u) := by
  apply Nat.eq_of_testBit_eq
  intro i
  rw [testBit_set,testBit_get]
  by_cases inside : s ≤ i ∧ i < s + w
  · have place : i - s + s = i := by omega
    simp [inside,place,show i - s < w by omega]
  · simp [inside,agree i inside]

end BitField

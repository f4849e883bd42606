import Mathlib.Algebra.Field.Basic

namespace Mac80211.Gf

-- gf.c: arithmetic on unsigned char through logarithm tables with the generator 0xe5.
def gadd (a b : UInt8) : UInt8 := a ^^^ b
def gsub (a b : UInt8) : UInt8 := a ^^^ b

def ltable : List UInt8 :=
  [0x00, 0xff, 0xc8, 0x08, 0x91, 0x10, 0xd0, 0x36, 0x5a, 0x3e, 0xd8, 0x43, 0x99, 0x77, 0xfe, 0x18,
   0x23, 0x20, 0x07, 0x70, 0xa1, 0x6c, 0x0c, 0x7f, 0x62, 0x8b, 0x40, 0x46, 0xc7, 0x4b, 0xe0, 0x0e,
   0xeb, 0x16, 0xe8, 0xad, 0xcf, 0xcd, 0x39, 0x53, 0x6a, 0x27, 0x35, 0x93, 0xd4, 0x4e, 0x48, 0xc3,
   0x2b, 0x79, 0x54, 0x28, 0x09, 0x78, 0x0f, 0x21, 0x90, 0x87, 0x14, 0x2a, 0xa9, 0x9c, 0xd6, 0x74,
   0xb4, 0x7c, 0xde, 0xed, 0xb1, 0x86, 0x76, 0xa4, 0x98, 0xe2, 0x96, 0x8f, 0x02, 0x32, 0x1c, 0xc1,
   0x33, 0xee, 0xef, 0x81, 0xfd, 0x30, 0x5c, 0x13, 0x9d, 0x29, 0x17, 0xc4, 0x11, 0x44, 0x8c, 0x80,
   0xf3, 0x73, 0x42, 0x1e, 0x1d, 0xb5, 0xf0, 0x12, 0xd1, 0x5b, 0x41, 0xa2, 0xd7, 0x2c, 0xe9, 0xd5,
   0x59, 0xcb, 0x50, 0xa8, 0xdc, 0xfc, 0xf2, 0x56, 0x72, 0xa6, 0x65, 0x2f, 0x9f, 0x9b, 0x3d, 0xba,
   0x7d, 0xc2, 0x45, 0x82, 0xa7, 0x57, 0xb6, 0xa3, 0x7a, 0x75, 0x4f, 0xae, 0x3f, 0x37, 0x6d, 0x47,
   0x61, 0xbe, 0xab, 0xd3, 0x5f, 0xb0, 0x58, 0xaf, 0xca, 0x5e, 0xfa, 0x85, 0xe4, 0x4d, 0x8a, 0x05,
   0xfb, 0x60, 0xb7, 0x7b, 0xb8, 0x26, 0x4a, 0x67, 0xc6, 0x1a, 0xf8, 0x69, 0x25, 0xb3, 0xdb, 0xbd,
   0x66, 0xdd, 0xf1, 0xd2, 0xdf, 0x03, 0x8d, 0x34, 0xd9, 0x92, 0x0d, 0x63, 0x55, 0xaa, 0x49, 0xec,
   0xbc, 0x95, 0x3c, 0x84, 0x0b, 0xf5, 0xe6, 0xe7, 0xe5, 0xac, 0x7e, 0x6e, 0xb9, 0xf9, 0xda, 0x8e,
   0x9a, 0xc9, 0x24, 0xe1, 0x0a, 0x15, 0x6b, 0x3a, 0xa0, 0x51, 0xf4, 0xea, 0xb2, 0x97, 0x9e, 0x5d,
   0x22, 0x88, 0x94, 0xce, 0x19, 0x01, 0x71, 0x4c, 0xa5, 0xe3, 0xc5, 0x31, 0xbb, 0xcc, 0x1f, 0x2d,
   0x3b, 0x52, 0x6f, 0xf6, 0x2e, 0x89, 0xf7, 0xc0, 0x68, 0x1b, 0x64, 0x04, 0x06, 0xbf, 0x83, 0x38]

def atable : List UInt8 :=
  [0x01, 0xe5, 0x4c, 0xb5, 0xfb, 0x9f, 0xfc, 0x12, 0x03, 0x34, 0xd4, 0xc4, 0x16, 0xba, 0x1f, 0x36,
   0x05, 0x5c, 0x67, 0x57, 0x3a, 0xd5, 0x21, 0x5a, 0x0f, 0xe4, 0xa9, 0xf9, 0x4e, 0x64, 0x63, 0xee,
   0x11, 0x37, 0xe0, 0x10, 0xd2, 0xac, 0xa5, 0x29, 0x33, 0x59, 0x3b, 0x30, 0x6d, 0xef, 0xf4, 0x7b,
   0x55, 0xeb, 0x4d, 0x50, 0xb7, 0x2a, 0x07, 0x8d, 0xff, 0x26, 0xd7, 0xf0, 0xc2, 0x7e, 0x09, 0x8c,
   0x1a, 0x6a, 0x62, 0x0b, 0x5d, 0x82, 0x1b, 0x8f, 0x2e, 0xbe, 0xa6, 0x1d, 0xe7, 0x9d, 0x2d, 0x8a,
   0x72, 0xd9, 0xf1, 0x27, 0x32, 0xbc, 0x77, 0x85, 0x96, 0x70, 0x08, 0x69, 0x56, 0xdf, 0x99, 0x94,
   0xa1, 0x90, 0x18, 0xbb, 0xfa, 0x7a, 0xb0, 0xa7, 0xf8, 0xab, 0x28, 0xd6, 0x15, 0x8e, 0xcb, 0xf2,
   0x13, 0xe6, 0x78, 0x61, 0x3f, 0x89, 0x46, 0x0d, 0x35, 0x31, 0x88, 0xa3, 0x41, 0x80, 0xca, 0x17,
   0x5f, 0x53, 0x83, 0xfe, 0xc3, 0x9b, 0x45, 0x39, 0xe1, 0xf5, 0x9e, 0x19, 0x5e, 0xb6, 0xcf, 0x4b,
   0x38, 0x04, 0xb9, 0x2b, 0xe2, 0xc1, 0x4a, 0xdd, 0x48, 0x0c, 0xd0, 0x7d, 0x3d, 0x58, 0xde, 0x7c,
   0xd8, 0x14, 0x6b, 0x87, 0x47, 0xe8, 0x79, 0x84, 0x73, 0x3c, 0xbd, 0x92, 0xc9, 0x23, 0x8b, 0x97,
   0x95, 0x44, 0xdc, 0xad, 0x40, 0x65, 0x86, 0xa2, 0xa4, 0xcc, 0x7f, 0xec, 0xc0, 0xaf, 0x91, 0xfd,
   0xf7, 0x4f, 0x81, 0x2f, 0x5b, 0xea, 0xa8, 0x1c, 0x02, 0xd1, 0x98, 0x71, 0xed, 0x25, 0xe3, 0x24,
   0x06, 0x68, 0xb3, 0x93, 0x2c, 0x6f, 0x3e, 0x6c, 0x0a, 0xb8, 0xce, 0xae, 0x74, 0xb1, 0x42, 0xb4,
   0x1e, 0xd3, 0x49, 0xe9, 0x9c, 0xc8, 0xc6, 0xc7, 0x22, 0x6e, 0xdb, 0x20, 0xbf, 0x43, 0x51, 0x52,
   0x66, 0xb2, 0x76, 0x60, 0xda, 0xc5, 0xf3, 0xf6, 0xaa, 0xcd, 0x9a, 0xa0, 0x75, 0x54, 0x0e, 0x01]

def logOf (a : UInt8) : Nat := (ltable.getD a.toNat 0).toNat
def expOf (n : Nat) : UInt8 := atable.getD n 0

def gmul (a b : UInt8) : UInt8 :=
  let q := expOf ((logOf a + logOf b) % 255)
  let s := if a = 0 then 0 else q
  if b = 0 then 0 else s

def gmulInverse (a : UInt8) : UInt8 :=
  if a = 0 then 0 else expOf (255 - logOf a)

def gdiv (a b : UInt8) : UInt8 :=
  if b = 0 then 0 else gmul a (gmulInverse b)

-- Doubling is a shift reduced by x^8 + x^4 + x^3 + x + 1, taken for each set bit of 0xe5.
def double (a : UInt8) : UInt8 := (a <<< 1) ^^^ (if a &&& 0x80 = 0 then 0 else 0x1b)

def step (a : UInt8) : UInt8 :=
  a ^^^ double^[2] a ^^^ double^[5] a ^^^ double^[6] a ^^^ double^[7] a

theorem and_mask (a b m : UInt8) : (a ^^^ b) &&& m = (a &&& m) ^^^ (b &&& m) := by
  apply UInt8.toBitVec_inj.mp
  ext i hi
  simp [Bool.and_xor_distrib_right]

theorem xor_cancel (a b c : UInt8) : (a ^^^ c) ^^^ (b ^^^ c) = a ^^^ b := by
  have paired : (a ^^^ c) ^^^ (b ^^^ c) = (a ^^^ b) ^^^ (c ^^^ c) := by ac_rfl
  simp [paired]

theorem top_bit (a : UInt8) : a &&& 0x80 = 0 ∨ a &&& 0x80 = 0x80 := by
  have checked : ∀ i : Fin 256, UInt8.ofNat i &&& 0x80 = 0 ∨ UInt8.ofNat i &&& 0x80 = 0x80 := by
    decide +kernel
  simpa using checked ⟨a.toNat,a.toNat_lt⟩

theorem double_xor (a b : UInt8) : double (a ^^^ b) = double a ^^^ double b := by
  unfold double
  rw [UInt8.shiftLeft_xor,and_mask]
  rcases top_bit a with ha | ha <;> rcases top_bit b with hb | hb <;> rw [ha,hb]
  · simp
  · simp; ac_rfl
  · simp; ac_rfl
  · simpa using (xor_cancel _ _ 0x1b).symm

theorem iterate_xor (f : UInt8 → UInt8) (linear : ∀ a b, f (a ^^^ b) = f a ^^^ f b) (n : Nat) (a b : UInt8) :
    f^[n] (a ^^^ b) = f^[n] a ^^^ f^[n] b := by
  induction n generalizing a b with
  | zero => rfl
  | succ n ih => simp only [Function.iterate_succ_apply,linear,ih]

theorem step_xor (a b : UInt8) : step (a ^^^ b) = step a ^^^ step b := by
  simp only [step,iterate_xor double double_xor]
  ac_rfl

theorem step_zero : step 0 = 0 := by decide

theorem exp_log_checked : ∀ i : Fin 256, UInt8.ofNat i ≠ 0 → expOf (logOf (UInt8.ofNat i) % 255) = UInt8.ofNat i := by
  decide +kernel
theorem log_exp_checked : ∀ n : Fin 255, logOf (expOf n) % 255 = n ∧ expOf n ≠ 0 := by decide +kernel
theorem exp_step_checked : ∀ n : Fin 255, expOf ((n + 1) % 255) = step (expOf n) := by decide +kernel

theorem exp_log (nonzero : a ≠ 0) : expOf (logOf a % 255) = a := by
  have checked := exp_log_checked ⟨a.toNat,a.toNat_lt⟩
  simp only [UInt8.ofNat_toNat] at checked
  exact checked nonzero

theorem log_exp (small : n < 255) : logOf (expOf n) % 255 = n := (log_exp_checked ⟨n,small⟩).1
theorem exp_nonzero (small : n < 255) : expOf n ≠ 0 := (log_exp_checked ⟨n,small⟩).2
theorem exp_step (small : n < 255) : expOf ((n + 1) % 255) = step (expOf n) := exp_step_checked ⟨n,small⟩

theorem log_pos (nonzero : a ≠ 0) : 0 < logOf a := by
  by_contra not_positive
  have zero : logOf a = 0 := by omega
  have one := exp_log nonzero
  rw [zero] at one
  have log_one : logOf 1 = 255 := by decide
  have same : a = 1 := one.symm
  rw [same,log_one] at zero
  omega

theorem gmul_zero (a : UInt8) : gmul a 0 = 0 := by simp [gmul]
theorem zero_gmul (a : UInt8) : gmul 0 a = 0 := by simp [gmul]

theorem gmul_nonzero (ha : a ≠ 0) (hb : b ≠ 0) : gmul a b = expOf ((logOf a + logOf b) % 255) := by
  simp [gmul,ha,hb]

theorem log_gmul (ha : a ≠ 0) (hb : b ≠ 0) : logOf (gmul a b) % 255 = (logOf a + logOf b) % 255 := by
  rw [gmul_nonzero ha hb,log_exp (Nat.mod_lt _ (by decide))]

theorem gmul_ne_zero (ha : a ≠ 0) (hb : b ≠ 0) : gmul a b ≠ 0 := by
  rw [gmul_nonzero ha hb]
  exact exp_nonzero (Nat.mod_lt _ (by decide))

theorem gmul_comm (a b : UInt8) : gmul a b = gmul b a := by
  by_cases ha : a = 0
  · simp [ha,gmul_zero,zero_gmul]
  by_cases hb : b = 0
  · simp [hb,gmul_zero,zero_gmul]
  rw [gmul_nonzero ha hb,gmul_nonzero hb ha,Nat.add_comm]

theorem gmul_assoc (a b c : UInt8) : gmul (gmul a b) c = gmul a (gmul b c) := by
  by_cases ha : a = 0
  · simp [ha,zero_gmul]
  by_cases hb : b = 0
  · simp [hb,gmul_zero,zero_gmul]
  by_cases hc : c = 0
  · simp [hc,gmul_zero]
  rw [gmul_nonzero (gmul_ne_zero ha hb) hc,gmul_nonzero ha (gmul_ne_zero hb hc)]
  have left := log_gmul ha hb
  have right := log_gmul hb hc
  congr 1
  omega

theorem one_gmul (a : UInt8) : gmul 1 a = a := by
  by_cases ha : a = 0
  · simp [ha,gmul_zero]
  have unit : logOf 1 = 255 := by decide
  rw [gmul_nonzero (by decide) ha,unit,Nat.add_mod_left,exp_log ha]

theorem gmul_inverse (nonzero : a ≠ 0) : gmul a (gmulInverse a) = 1 := by
  have positive := log_pos nonzero
  have bound : logOf a < 256 := UInt8.toNat_lt _
  have small : 255 - logOf a < 255 := by omega
  have inverse : gmulInverse a = expOf (255 - logOf a) := by simp [gmulInverse,nonzero]
  rw [inverse,gmul_nonzero nonzero (exp_nonzero small)]
  have log := log_exp small
  have cancelled : (logOf a + logOf (expOf (255 - logOf a))) % 255 = 0 := by omega
  rw [cancelled]
  decide

theorem step_iterate (n m : Nat) : step^[n] (expOf (m % 255)) = expOf ((n + m) % 255) := by
  induction n generalizing m with
  | zero => simp
  | succ n ih =>
    have small : m % 255 < 255 := Nat.mod_lt _ (by decide)
    have next : (m % 255 + 1) % 255 = (m + 1) % 255 := by omega
    rw [Function.iterate_succ_apply,← exp_step small,next,ih]
    congr 2
    omega

theorem gmul_iterate (ha : a ≠ 0) (b : UInt8) : gmul a b = step^[logOf a] b := by
  by_cases hb : b = 0
  · subst b
    rw [gmul_zero,Function.iterate_fixed step_zero]
  rw [gmul_nonzero ha hb,← step_iterate,exp_log hb]

theorem gmul_xor (a b c : UInt8) : gmul a (b ^^^ c) = gmul a b ^^^ gmul a c := by
  by_cases ha : a = 0
  · simp [ha,zero_gmul]
  simp only [gmul_iterate ha,iterate_xor step step_xor]

structure GF where
  byte : UInt8
deriving DecidableEq

namespace GF

instance : Zero GF := ⟨⟨0⟩⟩
instance : One GF := ⟨⟨1⟩⟩
instance : Add GF := ⟨fun a b => ⟨gadd a.byte b.byte⟩⟩
instance : Sub GF := ⟨fun a b => ⟨gsub a.byte b.byte⟩⟩
instance : Neg GF := ⟨id⟩
instance : Mul GF := ⟨fun a b => ⟨gmul a.byte b.byte⟩⟩
instance : Inv GF := ⟨fun a => ⟨gmulInverse a.byte⟩⟩
instance : Div GF := ⟨fun a b => ⟨gdiv a.byte b.byte⟩⟩

theorem ext {b : GF} (same : a.byte = b.byte) : a = b := by
  cases a; cases b; cases same; rfl

@[simp] theorem mk_zero : (⟨0⟩ : GF) = 0 := rfl
@[simp] theorem mk_one : (⟨1⟩ : GF) = 1 := rfl
@[simp] theorem mk_gadd (a b : UInt8) : (⟨gadd a b⟩ : GF) = ⟨a⟩ + ⟨b⟩ := rfl
@[simp] theorem mk_gsub (a b : UInt8) : (⟨gsub a b⟩ : GF) = ⟨a⟩ - ⟨b⟩ := rfl
@[simp] theorem mk_gmul (a b : UInt8) : (⟨gmul a b⟩ : GF) = ⟨a⟩ * ⟨b⟩ := rfl
@[simp] theorem mk_gdiv (a b : UInt8) : (⟨gdiv a b⟩ : GF) = ⟨a⟩ / ⟨b⟩ := rfl

instance : Field GF where
  add_assoc a b c := ext (UInt8.xor_assoc a.byte b.byte c.byte)
  zero_add _ := ext UInt8.zero_xor
  add_zero _ := ext UInt8.xor_zero
  add_comm a b := ext (UInt8.xor_comm _ _)
  neg_add_cancel _ := ext UInt8.xor_self
  sub_eq_add_neg a b := rfl
  nsmul := nsmulRec
  zsmul := zsmulRec
  left_distrib a b c := ext (gmul_xor _ _ _)
  right_distrib a b c := ext (by
    show gmul (a.byte ^^^ b.byte) c.byte = gmul a.byte c.byte ^^^ gmul b.byte c.byte
    rw [gmul_comm,gmul_xor,gmul_comm c.byte,gmul_comm c.byte])
  zero_mul a := ext (zero_gmul a.byte)
  mul_zero a := ext (gmul_zero a.byte)
  mul_assoc a b c := ext (gmul_assoc _ _ _)
  one_mul a := ext (one_gmul _)
  mul_one a := ext ((gmul_comm _ _).trans (one_gmul _))
  mul_comm a b := ext (gmul_comm _ _)
  div_eq_mul_inv a b := ext (by
    show gdiv a.byte b.byte = gmul a.byte (gmulInverse b.byte)
    by_cases hb : b.byte = 0
    · simp [gdiv,gmulInverse,hb,gmul_zero]
    · simp [gdiv,hb])
  exists_pair_ne := ⟨0,1,by decide⟩
  mul_inv_cancel a nonzero := ext (gmul_inverse fun zero => nonzero (ext zero))
  inv_zero := rfl
  nnqsmul := _
  qsmul := _

end GF
end Mac80211.Gf

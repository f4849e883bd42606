import Mathlib.LinearAlgebra.Matrix.Block
import Mathlib.LinearAlgebra.Matrix.ToLinearEquiv

namespace LinearSystems
open Finset

-- Of the arrays the first n rows and columns count.
variable [Field K]

def square (n : Nat) (A : Nat → Nat → K) : Matrix (Fin n) (Fin n) K := Matrix.of fun i j => A i j

def Solves (n : Nat) (A : Nat → Nat → K) (x b : Nat → K) : Prop :=
  ∀ i < n, ∑ j ∈ range n, A i j * x j = b i

structure Permutes (n : Nat) (pivot : Nat → Nat) : Prop where
  below : ∀ i < n, pivot i < n
  injective : ∀ i < n, ∀ j < n, pivot i = pivot j → i = j

structure Factors (n : Nat) (A L U : Nat → Nat → K) (pivot : Nat → Nat) : Prop where
  permutes : Permutes n pivot
  unit : ∀ i < n, L i i = 1
  lower : ∀ i < n, ∀ j < n, i < j → L i j = 0
  upper : ∀ i < n, ∀ j < n, j < i → U i j = 0
  product : ∀ i < n, ∀ j < n, ∑ l ∈ range n, L i l * U l j = A (pivot i) j

theorem sum_rows (f : Nat → K) (k p : Nat) : ∑ c ∈ range (k * p), f c = ∑ l ∈ range k, ∑ j ∈ range p, f (l * p + j) := by
  induction k with
  | zero => simp
  | succ k ih => rw [Nat.succ_mul,sum_range_add,ih,sum_range_succ]

theorem square_mulVec (A : Nat → Nat → K) (x : Nat → K) (i : Fin n) :
    (square n A).mulVec (fun j => x j) i = ∑ j ∈ range n, A i j * x j := by
  simp [square,Matrix.mulVec,dotProduct,Finset.sum_range]

theorem solves_mulVec {A : Nat → Nat → K} : Solves n A x b ↔ (square n A).mulVec (fun j => x j) = fun i : Fin n => b i := by
  constructor
  · intro solves
    funext i
    rw [square_mulVec]
    exact solves i i.isLt
  · intro equal i small
    have row := congrFun equal ⟨i,small⟩
    rwa [square_mulVec] at row

theorem solution_unique {A : Nat → Nat → K} (regular : (square n A).det ≠ 0) (one : Solves n A x b)
    (two : Solves n A y b) : ∀ i < n, x i = y i := by
  intro i small
  have images := (solves_mulVec.mp one).trans (solves_mulVec.mp two).symm
  exact congrFun (Matrix.mulVec_injective_of_det_ne_zero regular images) ⟨i,small⟩

theorem regular_rows {B : Nat → Nat → K} (rows : ∀ i < n, ∃ j < n, ∀ c < n, B i c = A j c)
    (regular : (square n B).det ≠ 0) : (square n A).det ≠ 0 := by
  intro singular
  obtain ⟨v,nonzero,zero⟩ := Matrix.exists_mulVec_eq_zero_iff.mpr singular
  refine regular (Matrix.exists_mulVec_eq_zero_iff.mp ⟨v,nonzero,?_⟩)
  funext i
  obtain ⟨j,small,row⟩ := rows i i.isLt
  have image := congrFun zero ⟨j,small⟩
  simp only [square,Matrix.mulVec,dotProduct,Matrix.of_apply,Pi.zero_apply] at image ⊢
  rw [← image]
  exact Finset.sum_congr rfl fun c _ => by rw [row c c.isLt]

namespace Permutes

theorem refl (n : Nat) : Permutes n id := ⟨fun _ small => small,fun _ _ _ _ same => same⟩

theorem bijective (permutes : Permutes n pivot) :
    Function.Bijective (fun i : Fin n => (⟨pivot i,permutes.below i i.isLt⟩ : Fin n)) := by
  rw [← Finite.injective_iff_bijective]
  intro i j same
  exact Fin.ext (permutes.injective i i.isLt j j.isLt (Fin.mk.inj same))

theorem swap (permutes : Permutes n pivot) (hi : i < n) (hj : j < n) :
    Permutes n (fun r => if r = i then pivot j else if r = j then pivot i else pivot r) := by
  have image : ∀ r, (if r = i then pivot j else if r = j then pivot i else pivot r) = pivot (Equiv.swap i j r) := by
    intro r
    rw [Equiv.swap_apply_def]
    split_ifs <;> rfl
  have below : ∀ r < n, Equiv.swap i j r < n := by
    intro r small
    rw [Equiv.swap_apply_def]
    split_ifs <;> assumption
  simp only [image]
  refine ⟨fun r small => permutes.below _ (below r small),?_⟩
  intro r hr s hs same
  exact (Equiv.swap i j).injective (permutes.injective _ (below r hr) _ (below s hs) same)

theorem det_rows (permutes : Permutes n pivot) (A : Nat → Nat → K) :
    (square n fun i j => A (pivot i) j).det ≠ 0 ↔ (square n A).det ≠ 0 := by
  let e : Equiv.Perm (Fin n) := Equiv.ofBijective _ permutes.bijective
  have rows : (square n fun i j => A (pivot i) j) = (square n A).submatrix e id := rfl
  rcases Int.units_eq_one_or (Equiv.Perm.sign e) with sign | sign <;> simp [rows,Matrix.det_permute,sign]

end Permutes

namespace Factors
variable {U : Nat → Nat → K}

section
variable (factors : Factors n A L U pivot)
include factors

theorem mul : square n L * square n U = square n fun i j => A (pivot i) j := by
  ext i j
  simp only [square,Matrix.mul_apply,Matrix.of_apply,← factors.product i i.isLt j j.isLt,Finset.sum_range]

theorem det_lower : (square n L).det = 1 := by
  have triangular : (square n L).IsLowerTriangular := fun i j later =>
    factors.lower i i.isLt j j.isLt (by simpa using later)
  rw [Matrix.det_of_isLowerTriangular _ triangular]
  exact Finset.prod_eq_one fun i _ => factors.unit i i.isLt

theorem det_upper : (square n U).det = ∏ i : Fin n, U i i := by
  have triangular : (square n U).IsUpperTriangular := fun i j earlier =>
    factors.upper i i.isLt j j.isLt (by simpa using earlier)
  rw [Matrix.det_of_isUpperTriangular triangular]
  rfl

theorem regular : (square n A).det ≠ 0 ↔ ∀ i < n, U i i ≠ 0 := by
  rw [← factors.permutes.det_rows,← factors.mul,Matrix.det_mul,factors.det_lower,factors.det_upper,one_mul,
    Finset.prod_ne_zero_iff]
  exact ⟨fun diagonal i small => diagonal ⟨i,small⟩ (mem_univ _),fun diagonal i _ => diagonal i i.isLt⟩

theorem solves (first : Solves n L y fun i => b (pivot i)) (second : Solves n U x y) : Solves n A x b := by
  have exchanged : Solves n (fun i j => A (pivot i) j) x fun i => b (pivot i) := by
    rw [solves_mulVec] at first second ⊢
    rw [← factors.mul,← Matrix.mulVec_mulVec,second,first]
  intro i small
  obtain ⟨r,image⟩ := factors.permutes.bijective.2 ⟨i,small⟩
  have row : ∑ j ∈ range n, A (pivot r) j * x j = b (pivot r) := exchanged r r.isLt
  rwa [show pivot r = i from Fin.mk.inj image] at row

end

end Factors

theorem forward (unit : ∀ i < n, L i i = 1) (lower : ∀ i < n, ∀ j < n, i < j → L i j = 0)
    (step : ∀ j < n, y j = b j - ∑ l ∈ range j, L j l * y l) : Solves n (K := K) L y b := by
  intro j small
  have right : ∑ l ∈ Ico (j + 1) n, L j l * y l = 0 := by
    refine sum_eq_zero fun l member => ?_
    obtain ⟨_,before⟩ := mem_Ico.mp member
    rw [lower j small l before (by omega),zero_mul]
  rw [← sum_range_add_sum_Ico _ small,right,sum_range_succ,unit j small,step j small]
  ring

theorem backward (upper : ∀ i < n, ∀ j < n, j < i → U i j = 0) (diagonal : ∀ i < n, U i i ≠ 0)
    (step : ∀ j < n, x j = (y j - ∑ l ∈ Ico (j + 1) n, U j l * x l) / U j j) : Solves n (K := K) U x y := by
  intro j small
  have left : ∑ l ∈ range j, U j l * x l = 0 := by
    refine sum_eq_zero fun l member => ?_
    have before := mem_range.mp member
    rw [upper j small l (by omega) before,zero_mul]
  rw [← sum_range_add_sum_Ico _ small,sum_range_succ,left,step j small]
  field_simp [diagonal j small]
  ring

end LinearSystems

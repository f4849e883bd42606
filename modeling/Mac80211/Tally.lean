import Mathlib.Algebra.BigOperators.Group.List.Basic
import Mathlib.Algebra.Order.Group.Int
import Mathlib.Algebra.Ring.Nat
import Mathlib.Algebra.Ring.Int.Defs

namespace Tally

-- A counter kept beside a list is the total of what its entries stand for.
def total (f : α → Int) (entries : List α) : Int := (entries.map f).sum

variable {entries : List α}

@[simp] theorem total_nil (f : α → Int) : total f [] = 0 := rfl

@[simp] theorem total_cons (f : α → Int) (a : α) (entries : List α) : total f (a :: entries) = f a + total f entries :=
  List.sum_cons

@[simp] theorem total_append (f : α → Int) (xs ys : List α) : total f (xs ++ ys) = total f xs + total f ys := by
  simp [total]

theorem total_set (found : entries[i]? = some a) (b : α) : total f (entries.set i b) = total f entries - f a + f b := by
  induction entries generalizing i with
  | nil => cases found
  | cons c rest ih =>
    cases i with
    | zero =>
      cases Option.some.inj found
      rw [List.set_cons_zero,total_cons,total_cons]
      omega
    | succ =>
      rw [List.set_cons_succ,total_cons,total_cons,ih found]
      omega

theorem total_countP (p : α → Bool) (entries : List α) :
    total (fun a => if p a then 1 else 0) entries = (entries.countP p : Int) := by
  induction entries with
  | nil => rfl
  | cons a rest ih =>
    rw [total_cons,ih,List.countP_cons]
    split <;> simp
    omega

theorem total_map (f : β → Int) (g : α → β) (entries : List α) : total f (entries.map g) = total (f ∘ g) entries := by
  simp [total]

theorem total_sub (f g : α → Int) (entries : List α) :
    total (fun a => f a - g a) entries = total f entries - total g entries := by
  induction entries with
  | nil => rfl
  | cons a rest ih =>
    rw [total_cons,total_cons,total_cons,ih]
    omega

theorem total_natCast (f : α → Nat) (entries : List α) :
    total (fun a => (f a : Int)) entries = ((entries.map f).sum : Nat) := by
  induction entries with
  | nil => rfl
  | cons a rest ih =>
    rw [total_cons,ih,List.map_cons,List.sum_cons]
    omega

theorem total_nonneg (each : ∀ a ∈ entries, 0 ≤ f a) : 0 ≤ total f entries := by
  induction entries with
  | nil => exact Int.le_refl 0
  | cons a rest ih =>
    have head := each a (by simp)
    have others := ih fun b member => each b (by simp [member])
    rw [total_cons]
    omega

theorem total_eq_zero (each : ∀ a ∈ entries, 0 ≤ f a) : total f entries = 0 ↔ ∀ a ∈ entries, f a = 0 := by
  induction entries with
  | nil => simp
  | cons a rest ih =>
    have head := each a (by simp)
    have least : ∀ b ∈ rest, 0 ≤ f b := fun b member => each b (by simp [member])
    have others := total_nonneg least
    rw [total_cons,List.forall_mem_cons,← ih least]
    omega

theorem total_congr (same : ∀ a ∈ entries, f a = g a) : total f entries = total g entries :=
  congrArg List.sum (List.map_congr_left same)

theorem total_perm (perm : entries.Perm other) : total f entries = total f other :=
  (perm.map f).sum_eq

theorem total_filter (f : α → Int) (p : α → Bool) (entries : List α) :
    total f (entries.filter p) = total (fun a => if p a then f a else 0) entries := by
  induction entries with
  | nil => rfl
  | cons a rest ih =>
    rw [total_cons,← ih,List.filter_cons]
    split
    · rw [total_cons]
    · exact (Int.zero_add _).symm

theorem total_add (f g : α → Int) (entries : List α) :
    total (fun a => f a + g a) entries = total f entries + total g entries := by
  induction entries with
  | nil => rfl
  | cons a rest ih =>
    rw [total_cons,total_cons,total_cons,ih]
    omega

theorem total_mul (f : α → Int) (n : Int) (entries : List α) : total (fun a => f a * n) entries = total f entries * n := by
  induction entries with
  | nil => exact (Int.zero_mul n).symm
  | cons a rest ih => rw [total_cons,total_cons,ih,Int.add_mul]

theorem total_erase [DecidableEq α] (f : α → Int) (member : a ∈ entries) :
    total f (entries.erase a) = total f entries - f a := by
  rw [total_perm (List.perm_cons_erase member),total_cons]
  omega

theorem total_change (nodup : entries.Nodup) (member : a ∈ entries) (same : ∀ b ∈ entries, b ≠ a → g b = f b) :
    total g entries = total f entries - f a + g a := by
  induction entries with
  | nil => cases member
  | cons b rest ih =>
    obtain ⟨apart,nodup⟩ := List.nodup_cons.mp nodup
    rw [total_cons,total_cons]
    by_cases here : b = a
    · subst here
      have others : total g rest = total f rest := total_congr fun c inside => same c (by simp [inside]) fun again => apart (again ▸ inside)
      omega
    · have inside : a ∈ rest := by simpa [Ne.symm here] using member
      have others := ih nodup inside fun c later => same c (by simp [later])
      have head := same b (by simp) here
      omega

theorem update_pair {ι κ α : Type} [DecidableEq ι] [DecidableEq κ] (table : ι → κ → α) (i : ι) (j : κ) (x : α) (m : ι) (n : κ) :
    Function.update table i (Function.update (table i) j x) m n = if m = i ∧ n = j then x else table m n := by
  by_cases here : m = i
  · subst here
    rw [Function.update_self]
    by_cases same : n = j
    · subst same
      rw [Function.update_self,if_pos ⟨rfl,rfl⟩]
    · rw [Function.update_of_ne same,if_neg fun both => same both.2]
  · rw [Function.update_of_ne here,if_neg fun both => here both.1]

end Tally

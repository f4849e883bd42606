import Mathlib.Data.List.Nodup
import Mathlib.Data.List.Range
import Mathlib.Data.List.Perm.Basic

namespace Blocks

-- A block is known by its number, which is never given twice; freed remembers every call that gave one
-- back.
structure Memory (α : Type) where
  contents : List α
  freed : List Nat

variable {α : Type} {b : Memory α}

def Memory.next (b : Memory α) : Nat := b.contents.length

def Memory.alloc (a : α) (b : Memory α) : Memory α := {b with contents := b.contents ++ [a]}

def Memory.free (addr : Option Nat) (b : Memory α) : Memory α := {b with freed := addr.toList ++ b.freed}

def Memory.load (b : Memory α) (addr : Nat) : Option α := if addr ∈ b.freed then none else b.contents[addr]?

-- Each block was freed once or is held by exactly one owner.
def Accounted (held : List Nat) (b : Memory α) : Prop := (held ++ b.freed).Perm (List.range b.next)

@[simp] theorem alloc_next (a : α) (b : Memory α) : (b.alloc a).next = b.next + 1 := by
  simp [Memory.next,Memory.alloc]

@[simp] theorem free_none (b : Memory α) : b.free none = b := rfl

theorem empty_accounted : Accounted [] (⟨[],[]⟩ : Memory α) := List.Perm.refl []

theorem Accounted.alloc (accounted : Accounted held b) (a : α) : Accounted (b.next :: held) (b.alloc a) := by
  unfold Accounted
  rw [alloc_next,List.range_succ]
  have more : (b.next :: (held ++ b.freed)).Perm (b.next :: List.range b.next) := List.Perm.cons b.next accounted
  exact more.trans (List.perm_append_singleton b.next (List.range b.next)).symm

theorem Accounted.free (accounted : Accounted (addr :: held) b) : Accounted held (b.free (some addr)) :=
  List.perm_middle.trans accounted

section
variable (accounted : Accounted held b)
include accounted

theorem Accounted.swap (same : held.Perm held') : Accounted held' b :=
  (same.symm.append_right b.freed).trans accounted

theorem Accounted.fresh : b.next ∉ b.freed := by
  intro freed
  have old : b.next < b.next := List.mem_range.mp (accounted.mem_iff.mp (List.mem_append_right held freed))
  exact Nat.lt_irrefl _ old

theorem Accounted.once (given : addr < b.next) : held.count addr + b.freed.count addr = 1 := by
  rw [← List.count_append,accounted.count_eq]
  exact List.count_eq_one_of_mem List.nodup_range (List.mem_range.mpr given)

theorem Accounted.given (member : addr ∈ held) : addr < b.next :=
  List.mem_range.mp (accounted.mem_iff.mp (List.mem_append_left b.freed member))

theorem Accounted.live (member : addr ∈ held) : addr ∉ b.freed := by
  intro freed
  have total := accounted.once (accounted.given member)
  have owner := List.count_pos_iff.mpr member
  have call := List.count_pos_iff.mpr freed
  omega

theorem load_alloc (a : α) : (b.alloc a).load b.next = some a := by
  have kept : b.next ∉ (b.alloc a).freed := accounted.fresh
  unfold Memory.load
  rw [if_neg kept]
  simp [Memory.alloc,Memory.next]

end

end Blocks

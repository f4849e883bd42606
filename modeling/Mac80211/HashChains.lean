import Mathlib.Data.List.Perm.Basic
import Mathlib.Data.List.Nodup

namespace HashChains

-- An entry is to be found only in the chain of its index.
def chain (chains : List (List α)) (i : Nat) : List α := chains.getD i []
def addHead (chains : List (List α)) (i : Nat) (a : α) : List (List α) := chains.modify i (a :: ·)
def unlink [DecidableEq α] (chains : List (List α)) (a : α) : List (List α) := chains.map (List.filter (· ≠ a))
def find (p : α → Bool) (i : Nat) (chains : List (List α)) : Option α := (chain chains i).find? p

def Placed (index : α → Nat) (chains : List (List α)) : Prop := ∀ i a, a ∈ chain chains i → index a = i

def rehash (index : α → Nat) (chains : List (List α)) (entries : List α) : List (List α) :=
  entries.foldl (fun chains a => addHead chains (index a) a) chains

variable {α β : Type} {a : α} {p : α → Bool}

theorem mem_flatten : a ∈ chains.flatten ↔ ∃ i, a ∈ chain chains i := by
  rw [List.mem_flatten]
  constructor
  · rintro ⟨entries,member,inside⟩
    obtain ⟨i,found⟩ := List.mem_iff_getElem?.mp member
    refine ⟨i,?_⟩
    rw [chain,List.getD_eq_getElem?_getD,found]
    exact inside
  · rintro ⟨i,inside⟩
    rw [chain,List.getD_eq_getElem?_getD] at inside
    cases found : chains[i]? with
    | none =>
      rw [found] at inside
      cases inside
    | some entries =>
      rw [found] at inside
      exact ⟨entries,List.mem_of_getElem? found,inside⟩

theorem length_addHead (chains : List (List α)) (i : Nat) (a : α) : (addHead chains i a).length = chains.length :=
  List.length_modify ..

theorem chain_addHead (inside : i < chains.length) (j : Nat) :
    chain (addHead chains i a) j = if i = j then a :: chain chains j else chain chains j := by
  unfold chain addHead
  by_cases same : i = j
  · subst same
    simp [inside]
  · simp [same]

theorem addHead_perm (inside : i < chains.length) (a : α) : (addHead chains i a).flatten.Perm (a :: chains.flatten) := by
  induction chains generalizing i with
  | nil => cases inside
  | cons entries rest ih =>
    cases i with
    | zero => exact .refl _
    | succ =>
      exact ((ih (Nat.lt_of_succ_lt_succ inside)).append_left entries).trans List.perm_middle

theorem placed_addHead (placed : Placed index chains) (inside : i < chains.length) (right : index a = i) :
    Placed index (addHead chains i a) := by
  intro j b member
  rw [chain_addHead inside] at member
  split at member
  · rename_i same
    rcases List.mem_cons.mp member with rfl | old
    · exact right.trans same
    · exact placed j b old
  · exact placed j b member

section unlinks
variable [DecidableEq α]

section
variable (chains : List (List α)) (a : α)

theorem chain_unlink (j : Nat) : chain (unlink chains a) j = (chain chains j).filter (· ≠ a) := by
  unfold chain unlink
  rw [List.getD_eq_getElem?_getD,List.getD_eq_getElem?_getD,List.getElem?_map]
  cases chains[j]? <;> rfl

theorem unlink_flatten : (unlink chains a).flatten = chains.flatten.filter (· ≠ a) :=
  List.filter_flatten.symm

theorem length_unlink : (unlink chains a).length = chains.length := List.length_map _

end

theorem placed_unlink (placed : Placed index chains) (a : α) : Placed index (unlink chains a) := by
  intro j b member
  rw [chain_unlink] at member
  exact placed j b (List.mem_filter.mp member).1

theorem length_unlink_flatten (nodup : chains.flatten.Nodup) (member : a ∈ chains.flatten) :
    (unlink chains a).flatten.length + 1 = chains.flatten.length := by
  have erased : (unlink chains a).flatten = chains.flatten.erase a := by
    rw [unlink_flatten,nodup.erase_eq_filter]
    congr 1
    funext b
    by_cases same : b = a <;> simp [same]
  have some := List.length_pos_of_mem member
  rw [erased,List.length_erase_of_mem member]
  omega

end unlinks

theorem find_some (found : find p i chains = some a) : a ∈ chains.flatten ∧ p a = true :=
  ⟨mem_flatten.mpr ⟨i,List.mem_of_find?_eq_some found⟩,List.find?_some found⟩

theorem find_none (placed : Placed index chains) (right : ∀ b ∈ chains.flatten, p b = true → index b = i)
    (missing : find p i chains = none) : ∀ b ∈ chains.flatten, p b = false := by
  intro b member
  by_contra matches'
  rw [Bool.not_eq_false] at matches'
  obtain ⟨j,inside⟩ := mem_flatten.mp member
  have here : i = j := (right b member matches').symm.trans (placed j b inside)
  subst here
  exact List.find?_eq_none.mp missing b inside matches'

theorem placed_congr {other : α → Nat} (same : ∀ a ∈ chains.flatten, other a = index a) (placed : Placed index chains) :
    Placed other chains := by
  intro j b member
  rw [same b (mem_flatten.mpr ⟨j,member⟩)]
  exact placed j b member

theorem length_rehash (index : α → Nat) (chains : List (List α)) (entries : List α) :
    (rehash index chains entries).length = chains.length := by
  induction entries generalizing chains with
  | nil => rfl
  | cons a rest ih => exact (ih _).trans (length_addHead chains (index a) a)

theorem rehash_perm (chains : List (List α)) (entries : List α) (inside : ∀ a, index a < chains.length) :
    (rehash index chains entries).flatten.Perm (entries ++ chains.flatten) := by
  induction entries generalizing chains with
  | nil => exact .refl _
  | cons a rest ih =>
    have next := ih (addHead chains (index a) a) (by simpa [length_addHead] using inside)
    exact (next.trans ((addHead_perm (inside a) a).append_left rest)).trans List.perm_middle

theorem placed_rehash (placed : Placed index chains) (entries : List α) (inside : ∀ a, index a < chains.length) :
    Placed index (rehash index chains entries) := by
  induction entries generalizing chains with
  | nil => exact placed
  | cons a rest ih =>
    exact ih (placed_addHead placed (inside a) rfl) (by simpa [length_addHead] using inside)

theorem chain_map (f : α → β) (chains : List (List α)) (i : Nat) : chain (chains.map (List.map f)) i = (chain chains i).map f := by
  unfold chain
  rw [List.getD_eq_getElem?_getD,List.getD_eq_getElem?_getD,List.getElem?_map]
  cases chains[i]? <;> rfl

theorem find_map (f : α → β) (p : β → Bool) (i : Nat) (chains : List (List α)) :
    find p i (chains.map (List.map f)) = (find (fun a => p (f a)) i chains).map f := by
  unfold find
  rw [chain_map,List.find?_map]
  rfl

theorem map_addHead (f : α → β) (chains : List (List α)) (i : Nat) (a : α) :
    (addHead chains i a).map (List.map f) = addHead (chains.map (List.map f)) i (f a) := by
  unfold addHead
  apply List.ext_getElem?
  intro j
  rw [List.getElem?_map,List.getElem?_modify,List.getElem?_modify,List.getElem?_map]
  by_cases same : i = j
  · subst same
    cases chains[i]? <;> simp
  · cases chains[j]? <;> simp [same]

theorem chain_replicate (n j : Nat) : chain (List.replicate n ([] : List α)) j = [] := by
  unfold chain
  rw [List.getD_eq_getElem?_getD,List.getElem?_replicate]
  split <;> rfl

theorem placed_replicate (index : α → Nat) (n : Nat) : Placed index (List.replicate n []) := by
  intro j b member
  rw [chain_replicate] at member
  cases member

end HashChains

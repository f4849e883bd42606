import Mathlib.Tactic.Common

namespace ChangeFilter

-- Each input has a key, and one whose key is the cached one need not be handled again.
structure Component (σ β κ : Type) where
  heard : σ → β → Bool
  prepare : σ → β → σ
  cached : σ → Option κ
  key : β → κ
  handle : σ → β → σ

section known
variable {σ β κ : Type} (c : Component σ β κ)

-- What an input leaves behind is reflected until another one is handled.
structure Component.Reflecting (inputs : List β) (reflects : σ → β → Prop) (quiet : σ → β → Prop) : Prop where
  handled : ∀ s b, b ∈ inputs → c.heard s b = true → c.cached (c.handle (c.prepare s b) b) = some (c.key b) ∧ reflects (c.handle (c.prepare s b) b) b
  prepared : ∀ s b, c.cached (c.prepare s b) = none ∨ c.cached (c.prepare s b) = c.cached s
  kept : ∀ s b p, reflects s p → reflects (c.prepare s b) p
  exact : ∀ s b p, b ∈ inputs → p ∈ inputs → c.heard s b = true → c.key p = c.key b → c.cached (c.prepare s b) = some (c.key b) →
    reflects (c.prepare s b) p → (c.handle (c.prepare s b) b = c.prepare s b ↔ quiet (c.prepare s b) b)

def Component.Known (inputs : List β) (reflects : σ → β → Prop) (s : σ) : Prop :=
  ∀ k, c.cached s = some k → ∃ p ∈ inputs, c.key p = k ∧ reflects s p

variable {c}

theorem Component.Known.prepare (law : c.Reflecting inputs reflects quiet) (known : c.Known inputs reflects s) (b : β) :
    c.Known inputs reflects (c.prepare s b) := by
  intro k cached
  obtain none | same := law.prepared s b
  · cases none.symm.trans cached
  · obtain ⟨p,member,key,reflected⟩ := known k (same.symm.trans cached)
    exact ⟨p,member,key,law.kept s b p reflected⟩

end known

section runs
variable {σ β κ : Type} [DecidableEq κ] (c : Component σ β κ)

def Component.skips (s : σ) (b : β) : Bool := c.heard s b && decide (c.cached (c.prepare s b) = some (c.key b))

def Component.unfiltered (s : σ) (b : β) : σ := if c.heard s b then c.handle (c.prepare s b) b else s

def Component.filtered (s : σ) (b : β) : σ := if c.skips s b then c.prepare s b else c.unfiltered s b

def Component.Quiets (quiet : σ → β → Prop) : σ → List β → Prop
  | _,[] => True
  | s,b :: rest => (c.skips s b = true → quiet (c.prepare s b) b) ∧ Component.Quiets quiet (c.filtered s b) rest

variable {c} {inputs : List β}

theorem Component.step_exact (law : c.Reflecting inputs reflects quiet) (known : c.Known inputs reflects s) (member : b ∈ inputs) :
    (c.filtered s b = c.unfiltered s b ↔ (c.skips s b = true → quiet (c.prepare s b) b)) ∧ c.Known inputs reflects (c.filtered s b) := by
  unfold Component.filtered
  cases skips : c.skips s b with
  | false =>
    refine ⟨iff_of_true rfl nofun,?_⟩
    unfold Component.unfiltered
    cases heard : c.heard s b with
    | false =>
      exact known
    | true =>
      intro k cached
      obtain ⟨remembered,reflected⟩ := law.handled s b member heard
      exact ⟨b,member,Option.some.inj (remembered.symm.trans cached),reflected⟩
  | true =>
    have prepared := known.prepare law b
    unfold Component.skips at skips
    rw [Bool.and_eq_true,decide_eq_true_eq] at skips
    obtain ⟨heard,cached⟩ := skips
    obtain ⟨p,member',key,reflected⟩ := prepared _ cached
    have exact_ := law.exact s b p member member' heard key cached reflected
    rw [if_pos rfl]
    unfold Component.unfiltered
    rw [if_pos heard,eq_comm,exact_]
    exact ⟨⟨fun holds _ => holds,fun holds => holds rfl⟩,prepared⟩

theorem Component.transparent (law : c.Reflecting inputs reflects quiet) (known : c.Known inputs reflects s) (bs : List β)
    (members : ∀ b ∈ bs, b ∈ inputs) :
    (∀ n, (bs.take n).foldl c.filtered s = (bs.take n).foldl c.unfiltered s) ↔ c.Quiets quiet s bs := by
  induction bs generalizing s with
  | nil => exact iff_of_true (fun n => by rw [List.take_nil]; rfl) trivial
  | cons b rest ih =>
    obtain ⟨step,later⟩ := Component.step_exact law known (members b (List.mem_cons_self ..))
    have tail := ih later fun b member => members b (List.mem_cons_of_mem _ member)
    unfold Component.Quiets
    rw [← step,← tail]
    constructor
    · intro all
      have first : c.filtered s b = c.unfiltered s b := all 1
      refine ⟨first,fun n => ?_⟩
      have more := all (n + 1)
      rw [List.take_succ_cons,List.foldl_cons,List.foldl_cons,← first] at more
      exact more
    · intro ⟨first,all⟩ n
      cases n with
      | zero => rfl
      | succ n =>
        rw [List.take_succ_cons,List.foldl_cons,List.foldl_cons,← first]
        exact all n

end runs

end ChangeFilter

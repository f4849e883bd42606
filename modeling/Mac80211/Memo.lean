import Mathlib.Logic.Function.Basic

namespace Mac80211.Memo

structure Cell (κ ν : Type) where
  key : Option κ
  value : ν

variable {κ ν : Type} {c : Cell κ ν}

def Cell.Holds (f : κ → ν) (c : Cell κ ν) : Prop := ∀ k, c.key = some k → c.value = f k

def Cell.look (f : κ → ν) (hit : Bool) (k : κ) (c : Cell κ ν) : Cell κ ν := if hit then c else ⟨some k,f k⟩

theorem empty_holds (f : κ → ν) (value : ν) : (Cell.mk none value).Holds f := nofun

theorem look_holds (holds : c.Holds f) (hit : Bool) (k : κ) : (c.look f hit k).Holds f := by
  cases hit with
  | true => exact holds
  | false =>
    intro _ same
    cases same
    rfl

theorem look_value (holds : c.Holds f) (sound : hit = true → c.key = some k) : (c.look f hit k).value = f k := by
  cases hit with
  | true => exact holds k (sound rfl)
  | false => rfl

-- A wrong hit can go unseen only where two keys share a value.
theorem look_exact (holds : c.Holds f) (injective : Function.Injective f) (filled : c.key ≠ none) :
    (c.look f hit k).value = f k ↔ (hit = true → c.key = some k) := by
  constructor
  · rintro same rfl
    cases key : c.key with
    | none => exact absurd key filled
    | some k' =>
      have value : c.value = f k' := holds k' key
      rw [injective (value.symm.trans same)]
  · exact look_value holds

end Mac80211.Memo

import Mathlib.Data.Nat.Init
import Mathlib.Logic.Function.Basic

namespace Nearest

-- for(j = n; j >= 0; j--) and for(j = lo; j < lo + n; j++), up to the first j that p holds of.
def down (p : Nat → Bool) : Nat → Option Nat
  | 0 => if p 0 then some 0 else none
  | j + 1 => if p (j + 1) then some (j + 1) else down p j

def up (p : Nat → Bool) (lo : Nat) : Nat → Option Nat
  | 0 => none
  | n + 1 => if p lo then some lo else up p (lo + 1) n

def search (p : Nat → Bool) (sel n : Nat) : Option Nat := (down p sel).or (up p (sel + 1) (n - (sel + 1)))

-- The greatest place up to sel, or else the least one.
structure Best (p : Nat → Prop) (sel out : Nat) : Prop where
  holds : p out
  nearest : out ≤ sel ∧ (∀ k, p k → k ≤ sel → k ≤ out) ∨ sel < out ∧ ∀ k, p k → out ≤ k


theorem down_some (found : down p n = some j) : p j = true ∧ j ≤ n ∧ ∀ k, p k = true → k ≤ n → k ≤ j := by
  induction n with
  | zero =>
    obtain ⟨holds,same⟩ := Option.ite_none_right_eq_some.mp found
    cases same
    exact ⟨holds,Nat.le_refl _,fun _ _ small => small⟩
  | succ n ih =>
    unfold down at found
    split at found
    · next holds =>
      cases found
      exact ⟨holds,Nat.le_refl _,fun _ _ small => small⟩
    · next misses =>
      obtain ⟨holds,small,greatest⟩ := ih found
      refine ⟨holds,Nat.le_succ_of_le small,fun k there below => ?_⟩
      rcases Nat.le_succ_iff.mp below with below | rfl
      · exact greatest k there below
      · exact (misses there).elim

theorem down_none : down p n = none ↔ ∀ k, k ≤ n → p k = false := by
  induction n with
  | zero => simp [down]
  | succ n ih =>
    simp only [down,Nat.le_succ_iff,or_imp,forall_and,forall_eq]
    cases p (n + 1) <;> simp [ih]

theorem up_some (found : up p lo n = some j) : p j = true ∧ lo ≤ j ∧ j < lo + n ∧ ∀ k, p k = true → lo ≤ k → j ≤ k := by
  induction n generalizing lo with
  | zero => cases found
  | succ n ih =>
    unfold up at found
    split at found
    · next holds =>
      cases found
      exact ⟨holds,Nat.le_refl _,by omega,fun _ _ large => large⟩
    · next misses =>
      obtain ⟨holds,_,_,least⟩ := ih found
      refine ⟨holds,by omega,by omega,fun k there above => ?_⟩
      rcases Nat.eq_or_lt_of_le above with rfl | above
      · exact (misses there).elim
      · exact least k there above

theorem up_none : up p lo n = none ↔ ∀ k, lo ≤ k → k < lo + n → p k = false := by
  induction n generalizing lo with
  | zero => exact ⟨fun _ k large small => by omega,fun _ => rfl⟩
  | succ n ih =>
    cases here : p lo with
    | true =>
      have found : up p lo (n + 1) = some lo := by rw [up,here,if_pos rfl]
      simp only [found,reduceCtorEq,false_iff,not_forall]
      exact ⟨lo,Nat.le_refl _,by omega,by rw [here]; decide⟩
    | false =>
      have next : up p lo (n + 1) = up p (lo + 1) n := by rw [up,here,if_neg (by decide)]
      rw [next,ih]
      refine ⟨fun rest k large small => ?_,fun all k large small => all k (by omega) (by omega)⟩
      rcases Nat.eq_or_lt_of_le large with rfl | large
      · exact here
      · exact rest k large (by omega)

theorem down_congr (same : ∀ k, k ≤ n → p k = q k) : down p n = down q n := by
  induction n with
  | zero => rw [down,down,same 0 (Nat.le_refl _)]
  | succ n ih => rw [down,down,same _ (Nat.le_refl _),ih fun k small => same k (Nat.le_succ_of_le small)]

theorem up_congr (same : ∀ k, lo ≤ k → k < lo + n → p k = q k) : up p lo n = up q lo n := by
  induction n generalizing lo with
  | zero => rfl
  | succ n ih => rw [up,up,same lo (Nat.le_refl _) (by omega),ih fun k large small => same k (by omega) (by omega)]

theorem search_best (found : search p sel n = some j) (inside : j < n) : Best (fun k => k < n ∧ p k = true) sel j := by
  rcases Option.or_eq_some_iff.mp found with below | ⟨none_below,above⟩
  · obtain ⟨holds,small,greatest⟩ := down_some below
    exact ⟨⟨inside,holds⟩,.inl ⟨small,fun k there => greatest k there.2⟩⟩
  · obtain ⟨holds,large,_,least⟩ := up_some above
    refine ⟨⟨inside,holds⟩,.inr ⟨large,fun k there => ?_⟩⟩
    by_cases small : k ≤ sel
    · cases there.2.symm.trans (down_none.mp none_below k small)
    · exact least k there.2 (by omega)

theorem search_none : search p sel n = none ↔ ∀ k, k ≤ sel ∨ k < n → p k = false := by
  rw [search,Option.or_eq_none_iff,down_none,up_none]
  refine ⟨fun ⟨below,above⟩ k inside => ?_,fun all => ⟨fun k small => all k (.inl small),fun k _ small => all k (.inr (by omega))⟩⟩
  by_cases small : k ≤ sel
  · exact below k small
  · exact above k (by omega) (by omega)

theorem search_inside (found : search p sel n = some j) : p j = true ∧ (j ≤ sel ∨ j < n) := by
  rcases Option.or_eq_some_iff.mp found with below | ⟨_,above⟩
  · obtain ⟨holds,small,_⟩ := down_some below
    exact ⟨holds,.inl small⟩
  · obtain ⟨holds,_,_,_⟩ := up_some above
    exact ⟨holds,.inr (by omega)⟩

theorem search_above (found : search p sel n = some j) (there : p k = true) (below : k ≤ sel) : k ≤ j := by
  rcases Option.or_eq_some_iff.mp found with least | ⟨none,_⟩
  · exact (down_some least).2.2 k there below
  · cases there.symm.trans (down_none.mp none k below)

theorem down_split (p : Nat → Bool) (base b : Nat) :
    down p (base + 1 + b) = ((down (fun j => p (base + 1 + j)) b).map (base + 1 + ·)).or (down p base) := by
  induction b with
  | zero => cases here : p (base + 1) <;> simp [down,here]
  | succ b ih =>
    rw [← Nat.add_assoc,down,down,ih,Nat.add_assoc]
    cases p (base + 1 + (b + 1)) <;> simp

theorem up_split (p : Nat → Bool) (base lo n m : Nat) :
    up p (base + lo) (n + m) = ((up (fun j => p (base + j)) lo n).map (base + ·)).or (up p (base + lo + n) m) := by
  induction n generalizing lo with
  | zero => simp [up]
  | succ n ih =>
    rw [Nat.succ_add,up,up,Nat.add_assoc,ih,show base + (lo + 1) + n = base + lo + (n + 1) by omega]
    cases p (base + lo) <;> simp

-- for(i = lo; i < lo + n; i++) over an array, with a break.
def forBreak (body : Nat → (Nat → α) → (Nat → α) × Bool) : Nat → Nat → (Nat → α) → (Nat → α)
  | 0,_,a => a
  | n + 1,i,a =>
    let next := body i a
    if next.2 then next.1 else forBreak body n (i + 1) next.1

open Classical in
theorem forBreak_entries (f : Nat → α → α) (stops : Nat → α → Bool) (body : Nat → (Nat → α) → (Nat → α) × Bool)
    (steps : ∀ i a, body i a = (Function.update a i (f i (a i)),stops i (a i))) (n lo : Nat) (a : Nat → α) (i : Nat) :
    forBreak body n lo a i = if lo ≤ i ∧ i < lo + n ∧ ∀ k, lo ≤ k → k < i → stops k (a k) = false then f i (a i) else a i := by
  induction n generalizing lo a with
  | zero => rw [forBreak,if_neg (by omega)]
  | succ n ih =>
    rw [forBreak,steps]
    dsimp only
    have others : ∀ k, lo < k → Function.update a lo (f lo (a lo)) k = a k := fun k above =>
      Function.update_of_ne (by omega) ..
    cases ends : stops lo (a lo) with
    | true =>
      rw [if_pos rfl]
      rcases Nat.lt_trichotomy i lo with below | rfl | above
      · rw [if_neg (by omega)]
        exact Function.update_of_ne (by omega) ..
      · rw [if_pos ⟨Nat.le_refl _,by omega,fun k large small => by omega⟩]
        exact Function.update_self ..
      · rw [others i above,if_neg fun on => ?_]
        cases ends.symm.trans (on.2.2 lo (Nat.le_refl _) above)
    | false =>
      rw [if_neg (by decide),ih]
      rcases Nat.lt_trichotomy i lo with _ | rfl | above
      · rw [if_neg (by omega),if_neg (by omega)]
        exact Function.update_of_ne (by omega) ..
      · rw [if_neg (by omega),if_pos ⟨Nat.le_refl _,by omega,fun k large small => by omega⟩]
        exact Function.update_self ..
      · rw [others i above]
        congr 1
        refine propext ⟨fun ⟨_,small,rest⟩ => ⟨by omega,by omega,fun k large less => ?_⟩,
          fun ⟨_,small,rest⟩ => ⟨above,by omega,fun k large less => ?_⟩⟩
        · rcases Nat.eq_or_lt_of_le large with rfl | large
          · exact ends
          · exact others k large ▸ rest k large less
        · rw [others k large]
          exact rest k (by omega) less

end Nearest

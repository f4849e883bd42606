import Mac80211.LinearSystems
import Mac80211.Loops

namespace RowSelection
open LinearSystems Loops
open Submodule (span span_le span_mono subset_span)

variable [Field K] [AddCommGroup V] [Module K V] [AddCommGroup W] [Module K W]

-- The order of the rows, and the places whose rows have been taken.
structure Selection where
  place : Nat → Nat
  taken : Set Nat

def Fresh (view : V →ₗ[K] W) (rows : Nat → V) (s : Selection) (r : Nat) : Prop :=
  view (rows (s.place r)) ∉ span K ((fun t => view (rows (s.place t))) '' s.taken)

-- The first fresh row from place j on comes to place j and is taken; if there is none, the row there is
-- passed over.
open Classical in
noncomputable def pick (view : Nat → V →ₗ[K] W) (rows : Nat → V) (n j : Nat) (s : Selection) : Selection :=
  if found : ∃ r, j ≤ r ∧ r < n ∧ Fresh (view j) rows s r then
    ⟨fun r => s.place (Equiv.swap j (Nat.find found) r),insert j s.taken⟩
  else s

noncomputable def select (view : Nat → V →ₗ[K] W) (rows : Nat → V) (n : Nat) : Selection :=
  forRange 0 n (pick view rows n) ⟨id,∅⟩

section Rounds

variable {view : Nat → V →ₗ[K] W}

theorem pick_found (low : j ≤ r) (high : r < n) (fresh : Fresh (view j) rows s r)
    (first : ∀ q, j ≤ q → q < r → ¬Fresh (view j) rows s q) :
    pick view rows n j s = ⟨fun x => s.place (Equiv.swap j r x),insert j s.taken⟩ := by
  classical
  have found : ∃ r, j ≤ r ∧ r < n ∧ Fresh (view j) rows s r := ⟨r,low,high,fresh⟩
  have here : Nat.find found = r := by
    rw [Nat.find_eq_iff]
    exact ⟨⟨low,high,fresh⟩,fun q before known => first q known.1 before known.2.2⟩
  rw [pick,dif_pos found,here]

theorem pick_none (missing : ∀ r, j ≤ r → r < n → ¬Fresh (view j) rows s r) : pick view rows n j s = s := by
  classical
  rw [pick,dif_neg fun ⟨r,low,high,fresh⟩ => missing r low high fresh]

theorem pick_cases (view : Nat → V →ₗ[K] W) (rows : Nat → V) (n j : Nat) (s : Selection) :
    (∃ r, j ≤ r ∧ r < n ∧ Fresh (view j) rows s r ∧
      pick view rows n j s = ⟨fun x => s.place (Equiv.swap j r x),insert j s.taken⟩) ∨ pick view rows n j s = s := by
  classical
  by_cases found : ∃ r, j ≤ r ∧ r < n ∧ Fresh (view j) rows s r
  · obtain ⟨low,high,fresh⟩ := Nat.find_spec found
    refine .inl ⟨_,low,high,fresh,pick_found low high fresh ?_⟩
    exact fun q above before known => Nat.find_min found before ⟨above,by omega,known⟩
  · exact .inr (pick_none fun r low high fresh => found ⟨r,low,high,fresh⟩)

structure Sound (rows : Nat → V) (n j : Nat) (s : Selection) : Prop where
  permutes : Permutes n s.place
  early : ∀ t ∈ s.taken, t < j
  independent : LinearIndepOn K (fun t => rows (s.place t)) s.taken

theorem pick_sound (small : j < n) (sound : Sound (K := K) rows n j s) : Sound (K := K) rows n (j + 1) (pick view rows n j s) := by
  rcases pick_cases view rows n j s with ⟨r,_,high,fresh,picked⟩ | passed
  · have old : ∀ t ∈ s.taken, Equiv.swap j r t = t := fun t member => by
      have before := sound.early t member
      exact Equiv.swap_apply_of_ne_of_ne (by omega) (by omega)
    have swapped := sound.permutes.swap small high
    rw [picked]
    refine ⟨?_,?_,?_⟩
    · have image : (fun x => if x = j then s.place r else if x = r then s.place j else s.place x) =
          fun x => s.place (Equiv.swap j r x) := by
        funext x
        rw [Equiv.swap_apply_def]
        split_ifs <;> rfl
      rwa [image] at swapped
    · rintro t (rfl | member)
      · omega
      · have before := sound.early t member
        omega
    have same : Set.EqOn (fun t => rows (s.place (Equiv.swap j r t))) (fun t => rows (s.place t)) s.taken := by
      intro t member
      dsimp only
      rw [old t member]
    refine LinearIndepOn.insert ((linearIndepOn_congr same).mpr sound.independent) ?_
    rw [Set.image_congr same]
    intro inside
    dsimp only at inside
    rw [Equiv.swap_apply_left] at inside
    refine fresh ?_
    have image := Submodule.mem_map_of_mem (f := view j) inside
    rwa [Submodule.map_span,Set.image_image] at image
  · rw [passed]
    exact ⟨sound.permutes,fun t member => Nat.lt_succ_of_lt (sound.early t member),sound.independent⟩

theorem select_sound (view : Nat → V →ₗ[K] W) (rows : Nat → V) (n : Nat) : Sound (K := K) rows n n (select view rows n) :=
  forRange_rule (fun j s => Sound (K := K) rows n j s) (Nat.zero_le n)
    ⟨Permutes.refl n,fun _ member => member.elim,linearIndepOn_empty K _⟩ fun _ _ _ small sound => pick_sound small sound

end Rounds

theorem span_kept {v : Nat → V} (independent : LinearIndepOn K v taken) (some_taken : kept ⊆ taken)
    (inside : taken ⊆ whole) :
    span K (v '' kept) = span K (v '' whole) ↔
      kept = taken ∧ ∀ i ∈ whole, i ∉ taken → v i ∈ span K (v '' taken) := by
  constructor
  · intro same
    have generated : ∀ i ∈ whole, v i ∈ span K (v '' kept) := fun i member => by
      rw [same]
      exact subset_span ⟨i,member,rfl⟩
    refine ⟨Set.Subset.antisymm some_taken fun t member => ?_,fun i member _ => ?_⟩
    · by_contra dropped
      refine independent.notMem_span member (span_mono (Set.image_mono ?_) (generated t (inside member)))
      intro i known
      exact ⟨some_taken known,fun same => dropped (same ▸ known)⟩
    · exact span_mono (Set.image_mono some_taken) (generated i member)
  · rintro ⟨rfl,others⟩
    refine le_antisymm (span_mono (Set.image_mono inside)) (span_le.mpr ?_)
    rintro _ ⟨i,member,rfl⟩
    by_cases known : i ∈ kept
    · exact subset_span ⟨i,known,rfl⟩
    · exact others i member known

theorem span_triangular {g : Nat → V}
    (parts : ∀ t ∈ places, f t - g t ∈ span K (g '' {s | s ∈ places ∧ s < t})) :
    span K (f '' places) = span K (g '' places) := by
  apply le_antisymm
  · apply span_le.mpr
    rintro _ ⟨t,member,rfl⟩
    have earlier : span K (g '' {s | s ∈ places ∧ s < t}) ≤ span K (g '' places) :=
      span_mono (Set.image_mono fun s known => known.1)
    have own : g t ∈ span K (g '' places) := subset_span ⟨t,member,rfl⟩
    have sum := Submodule.add_mem _ (earlier (parts t member)) own
    rwa [sub_add_cancel] at sum
  apply span_le.mpr
  rintro _ ⟨t,member,rfl⟩
  induction t using Nat.strong_induction_on with
  | _ t ih =>
    have earlier : span K (g '' {s | s ∈ places ∧ s < t}) ≤ span K (f '' places) := by
      apply span_le.mpr
      rintro _ ⟨s,⟨known,before⟩,rfl⟩
      exact ih s before known
    have own : f t ∈ span K (f '' places) := subset_span ⟨t,member,rfl⟩
    have difference := Submodule.sub_mem _ own (earlier (parts t member))
    rwa [sub_sub_cancel] at difference

theorem echelon_zero {g : Nat → Fin n → K} {places : Finset Nat} (upper : ∀ t ∈ places, ∀ c : Fin n, (c : Nat) < t → g t c = 0)
    (pivot : ∀ t ∈ places, ∃ h : t < n, g t ⟨t,h⟩ ≠ 0) (combined : v ∈ span K (g '' places))
    (vanishes : ∀ t ∈ places, ∀ c : Fin n, (c : Nat) = t → v c = 0) : v = 0 := by
  obtain ⟨a,sum⟩ := (Submodule.mem_span_image_finset_iff_exists_fun' K).mp combined
  have zero : ∀ t, t ∈ places → a t = 0 := by
    intro t
    induction t using Nat.strong_induction_on with
    | _ t ih =>
      intro member
      obtain ⟨small,nonzero⟩ := pivot t member
      have column := congrFun sum ⟨t,small⟩
      rw [vanishes t member ⟨t,small⟩ rfl,Finset.sum_apply,Finset.sum_eq_single t] at column
      · exact (mul_eq_zero.mp column).resolve_right nonzero
      · intro s known _
        rw [Pi.smul_apply,smul_eq_mul]
        by_cases before : s < t
        · rw [ih s before known,zero_mul]
        · rw [upper s known ⟨t,small⟩ (show t < s by omega),mul_zero]
      · exact fun outside => absurd member outside
  rw [← sum]
  exact Finset.sum_eq_zero fun t member => by rw [zero t member,zero_smul]

def firstColumns (n j : Nat) : (Fin n → K) →ₗ[K] (Fin n → K) where
  toFun v := fun c => if c ≤ j then v c else 0
  map_add' v w := by
    funext c
    by_cases early : (c : Nat) ≤ j <;> simp [early]
  map_smul' a v := by
    funext c
    by_cases early : (c : Nat) ≤ j <;> simp [early]

end RowSelection

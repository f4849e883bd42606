import Mac80211.LuFac
import Mac80211.RowSelection

namespace Mac80211.LuFac
open Gf Loops LinearSystems RowSelection Finset

theorem findRow_first (low : j < q) (before : q < findRow U n j) : U q j = 0 := by
  unfold findRow at before
  cases search : (List.range' (j + 1) (n - (j + 1))).find? fun k => U k j ≠ 0 with
  | none =>
    rw [search,Option.getD_none] at before
    have all := List.find?_eq_none.mp search q (List.mem_range'_1.mpr (by omega))
    simpa using all
  | some =>
    rw [search,Option.getD_some] at before
    obtain ⟨_,i,_,here,earlier⟩ := List.find?_eq_some_iff_getElem.mp search
    rw [List.getElem_range'] at here
    have found := earlier (q - (j + 1)) (by omega)
    rw [List.getElem_range',show j + 1 + 1 * (q - (j + 1)) = q by omega] at found
    simpa using found

structure Exchanged (j r : Nat) (s t : State) : Prop where
  pivot : ∀ x, t.pivot x = s.pivot (Equiv.swap j r x)
  diagonal : t.u j j = s.u r j
  above : ∀ i < j, ∀ c, t.u i c = s.u i c
  left : ∀ x, ∀ i < j, t.l x i = s.l (Equiv.swap j r x) i

theorem exchanged_self (s : State) : Exchanged j j s s := by
  refine ⟨fun x => ?_,rfl,fun _ _ _ => rfl,fun x i _ => ?_⟩
  · rw [Equiv.swap_self]; rfl
  · rw [Equiv.swap_self]; rfl

theorem pivotRow_exchanged (zero : s.u j j = 0) (found : findRow s.u n j ≠ n) (small : j < n) (taken : pivotRow n j s = some t) :
    Exchanged j (findRow s.u n j) s t := by
  rw [pivotRow,if_pos zero] at taken
  rw [if_neg found] at taken
  cases taken
  obtain ⟨_,_,_⟩ := findRow_found small found
  generalize findRow s.u n j = change at *
  refine ⟨fun x => ?_,?_,fun i before c => ?_,fun x i before => ?_⟩
  · dsimp only
    rw [Equiv.swap_apply_def]
    split_ifs <;> rfl
  · dsimp only
    rw [exchange_apply s.u (Nat.le_of_lt small),if_pos ⟨Nat.le_refl j,small⟩,Equiv.swap_apply_left]
  · dsimp only
    rw [exchange_apply s.u (Nat.le_of_lt small),Equiv.swap_apply_of_ne_of_ne (by omega) (by omega),ite_self]
  · dsimp only
    rw [exchange_apply s.l (Nat.zero_le j),if_pos ⟨Nat.zero_le i,before⟩]

theorem eliminate_exchanged (exchanged : Exchanged j r s t) (low : j < i) (bound : j ≤ n) : Exchanged j r s (eliminate n j i t) := by
  have rows : ∀ x, x ≠ i → ∀ c, (eliminate n j i t).u x c = t.u x c := by
    intro x other c
    have same := eliminate_u t bound (show i ≠ j by omega) x c
    rw [if_neg fun here => other here.1] at same
    exact congrArg GF.byte same
  refine ⟨fun x => ?_,?_,fun x before c => ?_,fun x c before => ?_⟩
  · rw [eliminate_pivot,exchanged.pivot]
  · rw [rows j (by omega),exchanged.diagonal]
  · rw [rows x (by omega),exchanged.above x before]
  · rw [eliminate_l,set,if_neg (by omega),exchanged.left x c before]

theorem rowStep_exchanged (exchanged : Exchanged j r s t) (pivot : s.u r j ≠ 0) (low : j < i) (bound : j ≤ n) :
    Exchanged j r s (rowStep n j i t) := by
  have nonzero : t.u j j ≠ 0 := by rwa [exchanged.diagonal]
  rw [rowStep,pivotRow,if_neg nonzero]
  exact eliminate_exchanged exchanged low bound

theorem column_cases (small : j < n) (s : State) : (∃ r, j ≤ r ∧ r < n ∧ s.u r j ≠ 0 ∧ (∀ q, j ≤ q → q < r → s.u q j = 0) ∧
      Exchanged j r {s with l := set s.l j j 1} (column n j s)) ∨
    (∀ q, j ≤ q → q < n → s.u q j = 0) ∧ column n j s = {s with l := set s.l j j 1} := by
  by_cases zero : s.u j j = 0
  · by_cases found : findRow s.u n j = n
    · refine .inr ⟨fun q low high => ?_,?_⟩
      · by_cases here : q = j
        · rwa [here]
        · exact findRow_none found (by omega) high
      · refine forRange_keeps (fun t => t = {s with l := set s.l j j 1}) rfl ?_
        rintro i t _ _ rfl
        rw [rowStep,pivotRow,if_pos zero]
        rw [if_pos found]
    obtain ⟨after,below,nonzero⟩ := findRow_found small found
    refine .inl ⟨findRow s.u n j,by omega,below,nonzero,fun q low high => ?_,?_⟩
    · by_cases here : q = j
      · rwa [here]
      · exact findRow_first (by omega) high
    refine forRange_rule (fun i t => (i = j + 1 → t = {s with l := set s.l j j 1}) ∧
      (j + 1 < i → Exchanged j (findRow s.u n j) {s with l := set s.l j j 1} t)) (show j + 1 ≤ n by omega)
      ⟨fun _ => rfl,fun late => absurd late (Nat.lt_irrefl _)⟩ ?_ |>.2 (by omega)
    rintro i t low high ⟨start,later⟩
    refine ⟨fun late => by omega,fun _ => ?_⟩
    by_cases first : i = j + 1
    · rw [start first,rowStep]
      cases taken : pivotRow n j {s with l := set s.l j j 1} with
      | none =>
        have none_left := (pivot_none taken).2 _ below after
        exact absurd (field_zero.mp none_left) nonzero
      | some =>
        exact eliminate_exchanged (pivotRow_exchanged (s := {s with l := set s.l j j 1}) zero found small taken) (by omega) (Nat.le_of_lt small)
    · exact rowStep_exchanged (later (by omega)) nonzero (by omega) (Nat.le_of_lt small)
  · refine .inl ⟨j,Nat.le_refl j,small,zero,fun q low high => by omega,?_⟩
    exact forRange_keeps (fun t => Exchanged j j {s with l := set s.l j j 1} t) (exchanged_self _)
      fun i t low _ exchanged => rowStep_exchanged exchanged zero (by omega) (Nat.le_of_lt small)

def upperRow (n : Nat) (s : State) (x : Nat) : Fin n → GF := fun c => field s.u x c

-- pivot is the order of a selection of the rows, and those taken have a pivot on the diagonal.
structure Follows (A : Nat → Nat → UInt8) (n j : Nat) (s : State) (c : Selection) : Prop where
  done : Done A n j s
  place : s.pivot = c.place
  taken : ∀ t, t ∈ c.taken ↔ t < j ∧ s.u t t ≠ 0
  passed : ∀ t < j, s.u t t = 0 → ∀ x, t < x → x < n → s.l x t = 0

section Follow

variable {rows : Nat → Fin n → GF}

def takenBefore (j : Nat) (s : State) : Finset Nat := (range j).filter fun t => s.u t t ≠ 0

section
variable (follows : Follows A n j s c)
include follows

theorem taken_places : c.taken = takenBefore j s := by
  ext t
  simp [follows.taken,takenBefore]

section
variable (same : ∀ r < n, rows r = fun c : Fin n => field A r c)
include same

theorem row_parts (small : j ≤ n) (inside : x < n) :
    rows (s.pivot x) = ∑ t ∈ takenBefore (min x j) s, field s.l x t • upperRow n s t + upperRow n s x := by
  rw [same _ (follows.done.permutes.below x inside)]
  funext c
  have product := follows.done.product x inside c c.isLt
  have parts : ∑ t ∈ range (min x j), field s.l x t * field s.u t c =
      ∑ t ∈ takenBefore (min x j) s, field s.l x t * field s.u t c := by
    rw [takenBefore,sum_filter]
    refine sum_congr rfl fun t member => ?_
    have bound := mem_range.mp member
    split
    · rfl
    · rename_i zero
      have passed : field s.l x t = 0 := GF.ext (follows.passed t (by omega) (not_not.mp zero) x (by omega) inside)
      rw [passed,zero_mul]
  simp only [Pi.add_apply,Finset.sum_apply,Pi.smul_apply,smul_eq_mul,upperRow]
  rw [← parts,← product]
  by_cases late : j ≤ x
  · rw [if_pos late,Nat.min_eq_right late]
  -- Row x of L ends with its unit.
  have split : range j = range (x + 1) ∪ Ico (x + 1) j := by
    ext t; simp; omega
  have apart : Disjoint (range (x + 1)) (Ico (x + 1) j) := by
    rw [disjoint_left]; intro t; simp; omega
  have right : ∑ t ∈ Ico (x + 1) j, field s.l x t * field s.u t c = 0 := by
    refine sum_eq_zero fun t member => ?_
    obtain ⟨_,_⟩ := mem_Ico.mp member
    rw [follows.done.lower x inside t (by omega) (by omega),zero_mul]
  rw [if_neg late,Nat.min_eq_left (by omega),split,sum_union apart,right,sum_range_succ,
    follows.done.unit x inside (by omega),one_mul,add_zero,add_zero]

theorem taken_span (small : j ≤ n) (view : (Fin n → GF) →ₗ[GF] (Fin n → GF)) :
    Submodule.span GF ((fun t => view (rows (c.place t))) '' c.taken) =
      Submodule.span GF ((fun t => view (upperRow n s t)) '' c.taken) := by
  apply span_triangular
  intro t member
  have before := ((follows.taken t).mp member).1
  have difference : view (rows (c.place t)) - view (upperRow n s t) =
      ∑ x ∈ takenBefore t s, field s.l t x • view (upperRow n s x) := by
    rw [← follows.place,row_parts follows same small (show t < n by omega),Nat.min_eq_left (by omega),map_add,add_sub_cancel_right,
      map_sum]
    exact sum_congr rfl fun x _ => map_smul view _ _
  rw [difference]
  refine Submodule.sum_mem _ fun x known => Submodule.smul_mem _ _ (Submodule.subset_span ⟨x,⟨?_,?_⟩,rfl⟩)
  · obtain ⟨earlier,nonzero⟩ := mem_filter.mp known
    exact (follows.taken x).mpr ⟨by have := mem_range.mp earlier; omega,nonzero⟩
  · exact mem_range.mp (mem_filter.mp known).1

theorem fresh_iff (low : j ≤ x) (high : x < n) : Fresh (firstColumns n j) rows c x ↔ s.u x j ≠ 0 := by
  have left : ∀ i : Fin n, firstColumns n j (upperRow n s x) i = if (i : Nat) = j then field s.u x j else 0 := by
    intro i
    simp only [firstColumns,LinearMap.coe_mk,AddHom.coe_mk,upperRow]
    by_cases here : (i : Nat) = j
    · rw [if_pos (Nat.le_of_eq here),if_pos here,here]
    · rw [if_neg here]
      split
      · exact follows.done.upper x high i i.isLt (by omega) (by omega)
      · rfl
  have parts : firstColumns n j (rows (c.place x)) = ∑ t ∈ takenBefore j s, field s.l x t • firstColumns n j (upperRow n s t) +
      firstColumns n j (upperRow n s x) := by
    rw [← follows.place,row_parts follows same (by omega) high,Nat.min_eq_right low,map_add,map_sum]
    congr 1
    exact sum_congr rfl fun t _ => map_smul (firstColumns n j) _ _
  have taken : ∑ t ∈ takenBefore j s, field s.l x t • firstColumns n j (upperRow n s t) ∈
      Submodule.span GF ((fun t => firstColumns n j (upperRow n s t)) '' c.taken) := by
    refine Submodule.sum_mem _ fun t member => Submodule.smul_mem _ _ (Submodule.subset_span ⟨t,?_,rfl⟩)
    rw [taken_places follows]
    exact member
  rw [Fresh,taken_span follows same (by omega),parts,Submodule.add_mem_iff_right _ taken]
  apply not_congr
  constructor
  · intro inside
    rw [taken_places follows] at inside
    have early : ∀ t ∈ takenBefore j s, t < j ∧ s.u t t ≠ 0 := fun t member => by
      obtain ⟨before,nonzero⟩ := mem_filter.mp member
      exact ⟨mem_range.mp before,nonzero⟩
    have upper : ∀ t ∈ takenBefore j s, ∀ i : Fin n, (i : Nat) < t → firstColumns n j (upperRow n s t) i = 0 := by
      intro t member i before
      have bound := (early t member).1
      simp only [firstColumns,LinearMap.coe_mk,AddHom.coe_mk,upperRow]
      rw [if_pos (by omega)]
      exact follows.done.upper t (by omega) i i.isLt (by omega) before
    have pivots : ∀ t ∈ takenBefore j s, ∃ h : t < n, firstColumns n j (upperRow n s t) ⟨t,h⟩ ≠ 0 := by
      intro t member
      obtain ⟨bound,nonzero⟩ := early t member
      refine ⟨by omega,?_⟩
      simp only [firstColumns,LinearMap.coe_mk,AddHom.coe_mk,upperRow]
      rw [if_pos (by omega)]
      exact fun zero => nonzero (field_zero.mp zero)
    have vanishes : ∀ t ∈ takenBefore j s, ∀ i : Fin n, (i : Nat) = t → firstColumns n j (upperRow n s x) i = 0 := by
      intro t member i _
      have bound := (early t member).1
      rw [left,if_neg (by omega)]
    have zero := congrFun (echelon_zero upper pivots inside vanishes) ⟨j,by omega⟩
    rw [left,if_pos rfl] at zero
    exact field_zero.mp zero
  · intro zero
    have nothing : firstColumns n j (upperRow n s x) = 0 := by
      funext i
      rw [left,field_zero.mpr zero,ite_self]
      rfl
    rw [nothing]
    exact Submodule.zero_mem _

end

theorem column_follows (same : ∀ r < n, rows r = fun i : Fin n => field A r i) (small : j < n) :
    Follows A n (j + 1) (column n j s) (pick (firstColumns n) rows n j c) := by
  have fresh := fun x low high => fresh_iff (x := x) follows same low high
  have late : ∀ r, j ≤ r → ∀ x t, t < j → t < x → t < Equiv.swap j r x := by
    intro r low x t before after
    rw [Equiv.swap_apply_def]
    split_ifs <;> omega
  rcases column_cases small s with ⟨r,low,high,nonzero,first,exchanged⟩ | ⟨missing,kept⟩
  · rw [pick_found low high ((fresh r low high).mpr nonzero) fun q above before =>
      fun known => (fresh q above (by omega)).mp known (first q above before)]
    refine ⟨column_done follows.done small,?_,?_,?_⟩
    · funext x
      rw [exchanged.pivot,← follows.place]
    · intro t
      rw [Set.mem_insert_iff,follows.taken]
      constructor
      · rintro (rfl | ⟨before,known⟩)
        · refine ⟨by omega,?_⟩
          rw [exchanged.diagonal]
          exact nonzero
        · refine ⟨by omega,?_⟩
          rw [exchanged.above t before]
          exact known
      · rintro ⟨_,known⟩
        by_cases here : t = j
        · exact .inl here
        · rw [exchanged.above t (by omega)] at known
          exact .inr ⟨by omega,known⟩
    intro t _ zero x after inside
    have before : t < j := by
      by_contra other
      rw [show t = j by omega,exchanged.diagonal] at zero
      exact nonzero zero
    rw [exchanged.above t before] at zero
    have source := swap_range inside small high
    rw [exchanged.left x t before]
    dsimp only
    rw [set,if_neg (by omega)]
    exact follows.passed t before zero _ (late r low x t before after) source
  rw [pick_none fun x low high known => (fresh x low high).mp known (missing x low high)]
  have done := column_done follows.done small
  rw [kept] at done ⊢
  refine ⟨done,follows.place,?_,?_⟩
  · intro t
    rw [follows.taken]
    refine ⟨fun known => ⟨by omega,known.2⟩,fun known => ⟨?_,known.2⟩⟩
    by_contra other
    have here : t = j := by omega
    exact known.2 (by rw [here]; exact missing j (Nat.le_refl j) small)
  · intro t _ zero x after inside
    dsimp only
    rw [set,if_neg (by omega)]
    by_cases here : t = j
    · subst t
      exact field_zero.mp (follows.done.later x inside j small (Nat.le_refl j))
    · exact follows.passed t (by omega) zero x after inside

end

end Follow

theorem luFac_follows (s : State) (identity : s.pivot = id) (rows : Nat → Fin n → GF)
    (same : ∀ r < n, rows r = fun i : Fin n => field s.arr r i) :
    Follows s.arr n n (luFac n n s) (select (firstColumns n) rows n) := by
  have run := @forRange_rule State 0 n (fill n n s) (column n)
    (fun j t => Follows s.arr n j t (forRange 0 j (pick (firstColumns n) rows n) ⟨id,∅⟩)) (Nat.zero_le n) (by
      exact ⟨fill_done s identity,identity,fun t => ⟨fun known => known.elim,fun known => absurd known.1 (Nat.not_lt_zero t)⟩,
        fun t bound => absurd bound (Nat.not_lt_zero t)⟩) (by
      intro j t _ small follows
      rw [forRange_next (Nat.zero_le j)]
      exact column_follows follows same small)
  rw [luFac,if_neg (Nat.lt_irrefl n)]
  exact run

end Mac80211.LuFac

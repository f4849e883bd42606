import Mac80211.Gf
import Mac80211.Loops
import Mac80211.LinearSystems

namespace Mac80211.LuFac
open Gf Loops

-- The caller supplies all four arrays, U and L uninitialized.
structure State where
  arr : Nat → Nat → UInt8
  u : Nat → Nat → UInt8
  l : Nat → Nat → UInt8
  pivot : Nat → Nat

def set (M : Nat → Nat → UInt8) (i j : Nat) (v : UInt8) : Nat → Nat → UInt8 :=
  fun r c => if r = i ∧ c = j then v else M r c

def exchange (M : Nat → Nat → UInt8) (a b lo hi : Nat) : Nat → Nat → UInt8 :=
  forRange lo hi (fun k M => set (set M a k (M b k)) b k (M a k)) M

-- The value of k after the loop.
def findRow (U : Nat → Nat → UInt8) (n j : Nat) : Nat :=
  ((List.range' (j + 1) (n - (j + 1))).find? fun k => U k j ≠ 0).getD n

-- No value is the continue of a column in which no row can be exchanged.
def pivotRow (n j : Nat) (s : State) : Option State :=
  if s.u j j = 0 then
    let change := findRow s.u n j
    if change = n then none
    else some {
      arr := exchange s.arr j change 0 n
      u := exchange s.u j change j n
      l := exchange s.l j change 0 j
      pivot := fun r => if r = j then s.pivot change else if r = change then s.pivot j else s.pivot r }
  else some s

def eliminate (n j i : Nat) (s : State) : State :=
  let l := set s.l i j (gdiv (s.u i j) (s.u j j))
  if l i j = 0 then {s with l := l}
  else {s with l := l,u := forRange j n (fun k U => set U i k (gsub (U i k) (gmul (U j k) (l i j)))) s.u}

def rowStep (n j i : Nat) (s : State) : State :=
  match pivotRow n j s with
  | none => s
  | some s => eliminate n j i s

def column (n j : Nat) (s : State) : State :=
  forRange (j + 1) n (rowStep n j) {s with l := set s.l j j 1}

def fill (m n : Nat) (s : State) : State :=
  {s with
    u := fun i j => if i < n ∧ j < n then (if i < m then s.arr i j else 0) else s.u i j
    l := fun i j => if i < n ∧ j < n then 0 else s.l i j}

def luFac (m n : Nat) (s : State) : State :=
  if m > n then s
  else forRange 0 n (column n) (fill m n s)

def field (M : Nat → Nat → UInt8) : Nat → Nat → GF := fun r c => ⟨M r c⟩

theorem field_zero : field M r c = 0 ↔ M r c = 0 :=
  ⟨fun zero => congrArg GF.byte zero,fun zero => GF.ext zero⟩

@[simp] theorem field_set (M : Nat → Nat → UInt8) (i j : Nat) (v : UInt8) :
    field (set M i j v) r c = if r = i ∧ c = j then ⟨v⟩ else field M r c := by
  simp only [field,set]
  split <;> rfl

theorem exchange_apply (M : Nat → Nat → UInt8) (bounds : lo ≤ hi) (r c : Nat) :
    exchange M a b lo hi r c = if lo ≤ c ∧ c < hi then M (Equiv.swap a b r) c else M r c := by
  refine forRange_rule (fun k (N : Nat → Nat → UInt8) => ∀ r c, N r c =
    if lo ≤ c ∧ c < k then M (Equiv.swap a b r) c else M r c) bounds ?_ ?_ r c
  · intro r c
    rw [if_neg (by omega)]
  · intro k N _ _ swapped r c
    simp only [set,swapped,Equiv.swap_apply_def]
    grind

theorem findRow_found (bounds : j < n) (found : findRow U n j ≠ n) :
    j < findRow U n j ∧ findRow U n j < n ∧ U (findRow U n j) j ≠ 0 := by
  unfold findRow at found ⊢
  cases search : (List.range' (j + 1) (n - (j + 1))).find? fun k => U k j ≠ 0 with
  | none =>
    rw [search] at found
    exact absurd rfl found
  | some =>
    have member := List.mem_of_find?_eq_some search
    have nonzero := List.find?_some search
    simp only [List.mem_range'_1] at member
    simp only [Option.getD_some]
    exact ⟨by omega,by omega,by simpa using nonzero⟩

theorem findRow_none (missing : findRow U n j = n) (low : j < r) (high : r < n) : U r j = 0 := by
  unfold findRow at missing
  cases search : (List.range' (j + 1) (n - (j + 1))).find? fun k => U k j ≠ 0 with
  | none =>
    have all := List.find?_eq_none.mp search r (List.mem_range'_1.mpr (by omega))
    simpa using all
  | some =>
    have member := List.mem_of_find?_eq_some search
    simp only [List.mem_range'_1] at member
    simp only [search,Option.getD_some] at missing
    omega

theorem eliminate_l (s : State) : (eliminate n j i s).l = set s.l i j (gdiv (s.u i j) (s.u j j)) := by
  unfold eliminate
  dsimp only
  split <;> rfl

theorem eliminate_pivot (s : State) : (eliminate n j i s).pivot = s.pivot := by
  unfold eliminate
  dsimp only
  split <;> rfl

theorem eliminate_arr (s : State) : (eliminate n j i s).arr = s.arr := by
  unfold eliminate
  dsimp only
  split <;> rfl

theorem eliminate_u (s : State) (bounds : j ≤ n) (apart : i ≠ j) (r c : Nat) : field (eliminate n j i s).u r c =
      if r = i ∧ j ≤ c ∧ c < n
      then field s.u i c - field s.u j c * (field s.u i j / field s.u j j) else field s.u r c := by
  unfold eliminate
  dsimp only
  have factor : set s.l i j (gdiv (s.u i j) (s.u j j)) i j = gdiv (s.u i j) (s.u j j) := by simp [set]
  rw [factor]
  split
  · rename_i zero
    have quotient : field s.u i j / field s.u j j = 0 := GF.ext zero
    rw [quotient,mul_zero,sub_zero]
    grind
  refine forRange_rule (fun k N => ∀ r c, field N r c = if r = i ∧ j ≤ c ∧ c < k
    then field s.u i c - field s.u j c * (field s.u i j / field s.u j j) else field s.u r c)
    bounds ?_ ?_ r c
  · intro r c
    rw [if_neg (by omega)]
  intro k N _ _ done r c
  have old : field N i k = field s.u i k := by rw [done,if_neg (by omega)]
  have row : field N j k = field s.u j k := by rw [done,if_neg fun same => apart same.1.symm]
  have value : (⟨gsub (N i k) (gmul (N j k) (gdiv (s.u i j) (s.u j j)))⟩ : GF) =
      field s.u i k - field s.u j k * (field s.u i j / field s.u j j) := by
    rw [GF.mk_gsub,GF.mk_gmul,GF.mk_gdiv]
    change field N i k - field N j k * _ = _
    rw [old,row]
    rfl
  rw [field_set,value,done]
  grind

open LinearSystems Finset

-- What is left of a row r ≥ j is in U, and the multiples taken from it in L.
structure Done (A : Nat → Nat → UInt8) (n j : Nat) (s : State) : Prop where
  permutes : Permutes n s.pivot
  exchanged : ∀ r < n, ∀ c < n, s.arr r c = A (s.pivot r) c
  unit : ∀ r < n, r < j → field s.l r r = 1
  lower : ∀ r < n, ∀ c < n, r < c → field s.l r c = 0
  later : ∀ r < n, ∀ c < n, j ≤ c → field s.l r c = 0
  upper : ∀ r < n, ∀ c < n, c < j → c < r → field s.u r c = 0
  product : ∀ r < n, ∀ c < n, ∑ t ∈ range j, field s.l r t * field s.u t c +
    (if j ≤ r then field s.u r c else 0) = field A (s.pivot r) c

-- Rows before i are cleared. A column without a pivot is only left behind after the first row found nothing
-- to exchange.
structure Mid (A : Nat → Nat → UInt8) (n j i : Nat) (s : State) : Prop where
  permutes : Permutes n s.pivot
  exchanged : ∀ r < n, ∀ c < n, s.arr r c = A (s.pivot r) c
  unit : ∀ r < n, r ≤ j → field s.l r r = 1
  lower : ∀ r < n, ∀ c < n, r < c → field s.l r c = 0
  later : ∀ r < n, ∀ c < n, j < c → field s.l r c = 0
  pending : ∀ r < n, i ≤ r → field s.l r j = 0
  upper : ∀ r < n, ∀ c < n, c < j → c < r → field s.u r c = 0
  cleared : ∀ r < n, j < r → r < i → field s.u r j = 0
  stuck : field s.u j j = 0 → i = j + 1 ∨ ∀ r < n, j < r → field s.u r j = 0
  product : ∀ r < n, ∀ c < n, ∑ t ∈ range (j + 1), field s.l r t * field s.u t c +
    (if j < r then field s.u r c else 0) = field A (s.pivot r) c

theorem fill_done (s : State) (identity : s.pivot = id) : Done s.arr n 0 (fill n n s) := by
  refine ⟨?_,?_,?_,?_,?_,?_,?_⟩
  · simpa [fill,identity] using Permutes.refl n
  · simp [fill,identity]
  · simp
  · intro r hr c hc _; simp [field,fill,hr,hc]
  · intro r hr c hc _; simp [field,fill,hr,hc]
  · simp
  · intro r hr c hc; simp [field,fill,hr,hc,identity]

theorem product_split {L U : Nat → Nat → GF} (start : L r j = if r = j then 1 else 0) :
    ∑ t ∈ range (j + 1), L r t * U t c + (if j < r then U r c else 0) =
      ∑ t ∈ range j, L r t * U t c + (if j ≤ r then U r c else 0) := by
  rw [sum_range_succ,start]
  by_cases here : r = j
  · subst r; simp
  · have same : j < r ↔ j ≤ r := by omega
    simp [here,same]

theorem enter (done : Done A n j s) (small : j < n) : Mid A n j (j + 1) {s with l := set s.l j j 1} := by
  refine ⟨done.permutes,done.exchanged,?_,?_,?_,?_,done.upper,?_,fun _ => .inl rfl,?_⟩
  · intro r hr _
    by_cases here : r = j
    · subst r; simp
    · simpa [here] using done.unit r hr (by omega)
  · intro r hr c hc before
    rw [field_set,if_neg (by omega)]
    exact done.lower r hr c hc before
  · intro r hr c hc _
    rw [field_set,if_neg (by omega)]
    exact done.later r hr c hc (by omega)
  · intro r hr _
    rw [field_set,if_neg (by omega)]
    exact done.later r hr j small (Nat.le_refl _)
  · intro r _ _ _; omega
  · intro r hr c hc
    have start : field (set s.l j j 1) r j = if r = j then 1 else 0 := by
      rw [field_set,done.later r hr j small (Nat.le_refl _)]
      simp
    rw [product_split start,← done.product r hr c hc]
    congr 1
    refine sum_congr rfl fun t member => ?_
    have before := mem_range.mp member
    rw [field_set,if_neg (by omega)]

theorem leave (mid : Mid A n j n s) (_ : j < n) : Done A n (j + 1) s := by
  refine ⟨mid.permutes,mid.exchanged,?_,mid.lower,?_,?_,mid.product⟩
  · intro r hr _; exact mid.unit r hr (by omega)
  · intro r hr c hc _; exact mid.later r hr c hc (by omega)
  · intro r hr c hc _ after
    by_cases here : c = j
    · subst c; exact mid.cleared r hr after hr
    · exact mid.upper r hr c hc (by omega) after

theorem swap_small {change : Nat} (apart : r < j) (after : j < change) : Equiv.swap j change r = r :=
  Equiv.swap_apply_of_ne_of_ne (by omega) (by omega)

theorem swap_range {n : Nat} (hr : r < n) (hj : j < n) (hc : change < n) : Equiv.swap j change r < n := by
  rw [Equiv.swap_apply_def]
  split_ifs <;> assumption

theorem swap_after {change : Nat} (after : j < change) : j ≤ Equiv.swap j change r ↔ j ≤ r := by
  rw [Equiv.swap_apply_def]
  split_ifs <;> omega

theorem exchange_mid (mid : Mid A n j (j + 1) s) (after : j < change) (below : change < n) : Mid A n j (j + 1) {
      arr := exchange s.arr j change 0 n
      u := exchange s.u j change j n
      l := exchange s.l j change 0 j
      pivot := fun r => if r = j then s.pivot change else if r = change then s.pivot j else s.pivot r } := by
  have small : j < n := by omega
  have pivots : ∀ r, (if r = j then s.pivot change else if r = change then s.pivot j else s.pivot r) =
      s.pivot (Equiv.swap j change r) := by
    intro r
    rw [Equiv.swap_apply_def]
    split_ifs <;> rfl
  have left : ∀ r c, c < j → field (exchange s.l j change 0 j) r c = field s.l (Equiv.swap j change r) c := by
    intro r c before
    simp only [field,exchange_apply s.l (Nat.zero_le _)]
    rw [if_pos (by omega)]
  have right : ∀ r c, j ≤ c → field (exchange s.l j change 0 j) r c = field s.l r c := by
    intro r c side
    simp only [field,exchange_apply s.l (Nat.zero_le _)]
    rw [if_neg (by omega)]
  have old : ∀ r c, c < j → field (exchange s.u j change j n) r c = field s.u r c := by
    intro r c before
    simp only [field,exchange_apply s.u (Nat.le_of_lt small)]
    rw [if_neg (by omega)]
  have new : ∀ r c, j ≤ c → c < n → field (exchange s.u j change j n) r c = field s.u (Equiv.swap j change r) c := by
    intro r c side hc
    simp only [field,exchange_apply s.u (Nat.le_of_lt small)]
    rw [if_pos ⟨side,hc⟩]
  refine ⟨mid.permutes.swap small below,?_,?_,?_,?_,?_,?_,?_,fun _ => .inl rfl,?_⟩
  · intro r hr c hc
    dsimp only
    rw [pivots,exchange_apply s.arr (Nat.zero_le _),if_pos ⟨Nat.zero_le _,hc⟩]
    exact mid.exchanged _ (swap_range hr small below) c hc
  · intro r hr bound
    by_cases here : r = j
    · rw [right r r (by omega)]; exact mid.unit r hr bound
    · rw [left r r (by omega),swap_small (by omega) after]; exact mid.unit r hr bound
  · intro r hr c hc before
    by_cases side : c < j
    · rw [left r c side,swap_small (by omega) after]; exact mid.lower r hr c hc before
    · rw [right r c (by omega)]; exact mid.lower r hr c hc before
  · intro r hr c hc bound
    rw [right r c (by omega)]
    exact mid.later r hr c hc bound
  · intro r hr bound
    rw [right r j (Nat.le_refl _)]
    exact mid.pending r hr bound
  · intro r hr c hc before bound
    rw [old r c before]
    exact mid.upper r hr c hc before bound
  · intro r _ _ _; omega
  intro r hr c hc
  have column : ∀ r < n, field s.l r j = if r = j then 1 else 0 := by
    intro r hr
    by_cases here : r = j
    · subst r; simpa using mid.unit j small (Nat.le_refl _)
    · rw [if_neg here]
      by_cases side : r < j
      · exact mid.lower r hr j small side
      · exact mid.pending r hr (by omega)
  have start : field (exchange s.l j change 0 j) r j = if r = j then 1 else 0 := by
    rw [right r j (Nat.le_refl _),column r hr]
  have source := swap_range (n := n) hr small below
  have row := mid.product _ source c hc
  dsimp only
  rw [product_split (column _ source)] at row
  rw [product_split start,pivots,← row]
  congr 1
  · refine sum_congr rfl fun t member => ?_
    have before := mem_range.mp member
    rw [left r t before]
    by_cases side : c < j
    · rw [old t c side]
    · rw [new t c (by omega) hc,swap_small before after]
  · by_cases rest : j ≤ r
    · have image := (swap_after after).mpr rest
      rw [if_pos rest,if_pos image]
      by_cases side : c < j
      · rw [old r c side,mid.upper r hr c hc side (by omega),mid.upper _ source c hc side (by omega)]
      · exact new r c (by omega) hc
    · rw [if_neg rest,if_neg (mt (swap_after after).mp rest)]

theorem pivot_mid (mid : Mid A n j i s) (low : j < i) (high : i < n) (taken : pivotRow n j s = some next) :
    Mid A n j i next ∧ field next.u j j ≠ 0 := by
  unfold pivotRow at taken
  split at taken
  · rename_i zero
    have zero := field_zero.mpr zero
    dsimp only at taken
    split at taken
    · cases taken
    rename_i found
    cases Option.some.inj taken
    obtain ⟨after,below,nonzero⟩ := findRow_found (by omega) found
    have nonzero := fun zero => nonzero (field_zero.mp zero)
    generalize findRow s.u n j = change at after below nonzero
    have first : i = j + 1 := by
      rcases mid.stuck zero with first | none_left
      · exact first
      · exact absurd (none_left change below after) nonzero
    subst i
    refine ⟨exchange_mid mid after below,?_⟩
    simp only [field,exchange_apply s.u (by omega : j ≤ n),Equiv.swap_apply_left]
    rw [if_pos ⟨Nat.le_refl _,by omega⟩]
    exact nonzero
  · rename_i nonzero
    cases Option.some.inj taken
    exact ⟨mid,fun zero => nonzero (field_zero.mp zero)⟩

theorem pivot_none (missing : pivotRow n j s = none) : field s.u j j = 0 ∧ ∀ r < n, j < r → field s.u r j = 0 := by
  unfold pivotRow at missing
  split at missing
  · rename_i zero
    dsimp only at missing
    split at missing
    · rename_i none_left
      exact ⟨field_zero.mpr zero,fun r hr after => field_zero.mpr (findRow_none none_left after hr)⟩
    · cases missing
  · cases missing

theorem eliminate_mid (mid : Mid A n j i s) (nonzero : field s.u j j ≠ 0) (low : j < i) (high : i < n) :
    Mid A n j (i + 1) (eliminate n j i s) := by
  have small : j < n := by omega
  have lower_l : ∀ r c, ¬(r = i ∧ c = j) → field (eliminate n j i s).l r c = field s.l r c := by
    intro r c other
    rw [eliminate_l,field_set,if_neg other]
  have upper_u : ∀ r c, r ≠ i ∨ c < j → field (eliminate n j i s).u r c = field s.u r c := by
    intro r c _
    rw [eliminate_u s (Nat.le_of_lt small) (by omega),if_neg (by omega)]
  refine ⟨?_,?_,?_,?_,?_,?_,?_,?_,?_,?_⟩
  · rw [eliminate_pivot]; exact mid.permutes
  · rw [eliminate_pivot,eliminate_arr]; exact mid.exchanged
  · intro r hr bound
    rw [lower_l r r (by omega)]
    exact mid.unit r hr bound
  · intro r hr c hc before
    rw [lower_l r c (by omega)]
    exact mid.lower r hr c hc before
  · intro r hr c hc after
    rw [lower_l r c (by omega)]
    exact mid.later r hr c hc after
  · intro r hr bound
    rw [lower_l r j (by omega)]
    exact mid.pending r hr (by omega)
  · intro r hr c hc before bound
    rw [upper_u r c (.inr before)]
    exact mid.upper r hr c hc before bound
  · intro r hr after bound
    by_cases here : r = i
    · subst r
      rw [eliminate_u s (Nat.le_of_lt small) (by omega),if_pos ⟨rfl,Nat.le_refl _,small⟩]
      field_simp [nonzero]
      ring
    · rw [upper_u r j (.inl here)]
      exact mid.cleared r hr after (by omega)
  · intro zero
    rw [upper_u j j (.inl (by omega))] at zero
    exact absurd zero nonzero
  intro r hr c hc
  rw [eliminate_pivot,← mid.product r hr c hc]
  have rows : ∀ t ∈ range (j + 1), field (eliminate n j i s).u t c = field s.u t c := by
    intro t member
    have before := mem_range.mp member
    exact upper_u t c (.inl (by omega))
  by_cases here : r = i
  · subst r
    have factor : field (eliminate n j i s).l i j = field s.u i j / field s.u j j := by
      rw [eliminate_l,field_set,if_pos ⟨rfl,rfl⟩]
      rfl
    have fresh := mid.pending i hr (Nat.le_refl _)
    have before : ∑ t ∈ range j, field (eliminate n j i s).l i t * field (eliminate n j i s).u t c =
        ∑ t ∈ range j, field s.l i t * field s.u t c := by
      refine sum_congr rfl fun t member => ?_
      have bound := mem_range.mp member
      rw [lower_l i t (by omega),rows t (mem_range.mpr (by omega))]
    rw [sum_range_succ,sum_range_succ,before,factor,fresh,rows j (mem_range.mpr (by omega)),if_pos low,if_pos low]
    by_cases side : c < j
    · rw [upper_u i c (.inr side),mid.upper j small c hc side side]
      ring
    · rw [eliminate_u s (Nat.le_of_lt small) (by omega),if_pos ⟨rfl,by omega,hc⟩]
      ring
  · rw [upper_u r c (.inl here)]
    congr 1
    refine sum_congr rfl fun t member => ?_
    rw [lower_l r t (by omega),rows t member]

theorem rowStep_mid (mid : Mid A n j i s) (low : j < i) (high : i < n) : Mid A n j (i + 1) (rowStep n j i s) := by
  unfold rowStep
  cases taken : pivotRow n j s with
  | some =>
    obtain ⟨kept,nonzero⟩ := pivot_mid mid low high taken
    exact eliminate_mid kept nonzero low high
  | none =>
    obtain ⟨_,below⟩ := pivot_none taken
    refine ⟨mid.permutes,mid.exchanged,mid.unit,mid.lower,mid.later,?_,mid.upper,?_,fun _ => .inr below,mid.product⟩
    · intro r hr _; exact mid.pending r hr (by omega)
    · intro r hr after _; exact below r hr after

theorem column_done (done : Done A n j s) (small : j < n) : Done A n (j + 1) (column n j s) :=
  leave (forRange_rule (fun i t => Mid A n j i t) (by omega) (enter done small)
    fun _ _ low high mid => rowStep_mid mid low high) small

theorem luFac_done (s : State) (identity : s.pivot = id) : Done s.arr n n (luFac n n s) := by
  unfold luFac
  rw [if_neg (Nat.lt_irrefl n)]
  exact forRange_rule (fun j t => Done s.arr n j t) (Nat.zero_le _) (fill_done s identity)
    fun _ _ _ small done => column_done done small

theorem luFac_factors (s : State) (identity : s.pivot = id) :
    Factors n (field s.arr) (field (luFac n n s).l) (field (luFac n n s).u) (luFac n n s).pivot := by
  have done := luFac_done (n := n) s identity
  refine ⟨done.permutes,fun i hi => done.unit i hi hi,done.lower,?_,?_⟩
  · intro i hi j hj before
    exact done.upper i hi j hj hj before
  · intro i hi j hj
    have row := done.product i hi j hj
    rwa [if_neg (by omega),add_zero] at row

theorem luFac_correct (n : Nat) (s : State) (identity : s.pivot = id) :
    Factors n (field s.arr) (field (luFac n n s).l) (field (luFac n n s).u) (luFac n n s).pivot ∧
      (∀ r < n, ∀ c < n, (luFac n n s).arr r c = s.arr ((luFac n n s).pivot r) c) ∧
      ((∀ i < n, (luFac n n s).u i i ≠ 0) ↔ IsUnit (square n (field s.arr))) := by
  have factors := luFac_factors (n := n) s identity
  refine ⟨factors,(luFac_done s identity).exchanged,?_⟩
  rw [Matrix.isUnit_iff_isUnit_det,isUnit_iff_ne_zero,factors.regular]
  exact forall_congr' fun i => imp_congr_right fun _ => not_congr field_zero.symm

def stuckSample : State := ⟨fun r c => if r = 0 ∧ c = 1 then 1 else 0,fun _ _ => 0,fun _ _ => 0,id⟩

theorem luFac_correct_sample :
    Factors 2 (field stuckSample.arr) (field (luFac 2 2 stuckSample).l) (field (luFac 2 2 stuckSample).u)
        (luFac 2 2 stuckSample).pivot ∧
      (∀ r < 2, ∀ c < 2, (luFac 2 2 stuckSample).arr r c = stuckSample.arr ((luFac 2 2 stuckSample).pivot r) c) ∧
      ((∀ i < 2, (luFac 2 2 stuckSample).u i i ≠ 0) ↔ IsUnit (square 2 (field stuckSample.arr))) :=
  luFac_correct 2 stuckSample rfl

-- It is never the row that a pivot is taken from, and its own pivot is there.
def UnitRow (n r : Nat) (s : State) : Prop := s.pivot r = r ∧ ∀ c < n, s.u r c = if c = r then 1 else 0

theorem pivotRow_unit (unit : UnitRow n r s) (row : r < n) (small : j < n) (taken : pivotRow n j s = some next) :
    UnitRow n r next := by
  obtain ⟨place,entries⟩ := unit
  unfold pivotRow at taken
  split at taken
  · rename_i zero
    dsimp only at taken
    split at taken
    · cases taken
    rename_i found
    obtain ⟨_,_,nonzero⟩ := findRow_found small found
    have not_pivot : r ≠ j := by
      rintro rfl
      rw [entries r row,if_pos rfl] at zero
      exact absurd zero (by decide)
    have not_change : r ≠ findRow s.u n j := by
      intro same
      rw [← same,entries j small,if_neg (Ne.symm not_pivot)] at nonzero
      exact nonzero rfl
    cases taken
    refine ⟨?_,?_⟩
    · dsimp only
      rw [if_neg not_pivot,if_neg not_change,place]
    · intro c bound
      dsimp only
      rw [exchange_apply s.u (Nat.le_of_lt small),Equiv.swap_apply_of_ne_of_ne not_pivot not_change,ite_self]
      exact entries c bound
  · cases taken
    exact ⟨place,entries⟩

theorem eliminate_unit (unit : UnitRow n r s) (low : j < i) (high : i < n) : UnitRow n r (eliminate n j i s) := by
  obtain ⟨place,entries⟩ := unit
  refine ⟨by rw [eliminate_pivot,place],?_⟩
  intro c bound
  rw [← entries c bound]
  have same := eliminate_u s (show j ≤ n by omega) (show i ≠ j by omega) r c
  split at same
  · rename_i here
    obtain ⟨rfl,_,_⟩ := here
    have left : field s.u r j = 0 := field_zero.mpr (by rw [entries j (by omega),if_neg (by omega)])
    rw [left,zero_div,mul_zero,sub_zero] at same
    exact congrArg GF.byte same
  · exact congrArg GF.byte same

theorem rowStep_unit (unit : UnitRow n r s) (row : r < n) (low : j < i) (high : i < n) : UnitRow n r (rowStep n j i s) := by
  unfold rowStep
  cases taken : pivotRow n j s with
  | some => exact eliminate_unit (pivotRow_unit unit row (by omega) taken) low high
  | none => exact unit

theorem luFac_unit (s : State) (identity : s.pivot = id) (row : r < n)
    (entries : ∀ c < n, s.arr r c = if c = r then 1 else 0) : UnitRow n r (luFac n n s) := by
  unfold luFac
  rw [if_neg (Nat.lt_irrefl n)]
  refine forRange_keeps (UnitRow n r) ⟨by simp [fill,identity],?_⟩ ?_
  · intro c bound
    simp only [fill,row,bound,and_self,if_true]
    exact entries c bound
  · intro j s _ _ unit
    exact forRange_keeps (UnitRow n r) unit fun i t low high kept => rowStep_unit kept row (by omega) high

end Mac80211.LuFac

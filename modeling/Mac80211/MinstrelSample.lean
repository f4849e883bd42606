import Mac80211.Loops
import Mathlib.Data.List.Perm.Basic
import Mathlib.Data.List.GetD

namespace Mac80211.MinstrelSample
open Loops
open Function (update update_self update_of_ne)

def sampleColumns : Nat := 10

-- The table is the memory from its address on.
structure Sta where
  sampleRow : Nat
  sampleColumn : Nat
  nRates : Nat
  sampleTable : Nat → UInt8

-- SAMPLE_TBL is the entry at this place.
def place (idx col : Nat) : Nat := idx * sampleColumns + col

def Sta.sampleTbl (mi : Sta) (idx col : Nat) : UInt8 := mi.sampleTable (place idx col)

def probe (mi : Sta) (col newIdx : Nat) : Option Nat :=
  whileM (fun newIdx => mi.sampleTbl newIdx col != 0xff) (fun newIdx => some ((newIdx + 1) % mi.nRates)) mi.nRates newIdx

def initRate (rnd : Nat → UInt8) (col : Nat) (mi : Sta) (i : Nat) : Option Sta :=
  (probe mi col ((i + (rnd (i &&& 7)).toNat) % mi.nRates)).map fun newIdx =>
    {mi with sampleTable := update mi.sampleTable (place newIdx col) (UInt8.ofNat i)}

-- The bytes are those of prandom_bytes for the column.
def initColumn (rnd : Nat → Nat → UInt8) (mi : Sta) (col : Nat) : Option Sta :=
  (List.range mi.nRates).foldlM (initRate (rnd col) col) mi

def cleared (mi : Sta) : Sta := {mi with
  sampleColumn := 0,
  sampleRow := 0,
  sampleTable := fun j => if j < sampleColumns * mi.nRates then 0xff else mi.sampleTable j}

def initSampleTable (rnd : Nat → Nat → UInt8) (mi : Sta) : Option Sta :=
  (List.range sampleColumns).foldlM (initColumn rnd) (cleared mi)

def minstrelGetNextSample (mi : Sta) : Nat × Sta :=
  let sampleNdx := (mi.sampleTbl mi.sampleRow mi.sampleColumn).toNat
  if mi.sampleRow + 1 ≥ mi.nRates then
    (sampleNdx,{mi with sampleRow := 0,sampleColumn := if mi.sampleColumn + 1 ≥ sampleColumns then 0 else mi.sampleColumn + 1})
  else (sampleNdx,{mi with sampleRow := mi.sampleRow + 1})

def samples : Nat → Sta → List Nat × Sta
  | 0,mi => ([],mi)
  | calls + 1,mi =>
    let (sampleNdx,mi) := minstrelGetNextSample mi
    let (rest,mi) := samples calls mi
    (sampleNdx :: rest,mi)

def Sta.column (mi : Sta) (col : Nat) : List UInt8 := (List.range mi.nRates).map fun idx => mi.sampleTbl idx col

def Permuted (mi : Sta) (col : Nat) : Prop := ((mi.column col).map UInt8.toNat).Perm (List.range mi.nRates)

def Filled (mi : Sta) (col i : Nat) : Prop :=
  (mi.column col).Perm ((List.range i).map UInt8.ofNat ++ List.replicate (mi.nRates - i) 0xff)

structure Beside (mi after : Sta) (col : Nat) : Prop where
  rates : after.nRates = mi.nRates
  row : after.sampleRow = mi.sampleRow
  column : after.sampleColumn = mi.sampleColumn
  others : ∀ other < sampleColumns, other ≠ col → after.column other = mi.column other

section column

theorem Beside.trans (first : Beside mi after col) (second : Beside after last col) : Beside mi last col := by
  refine ⟨second.rates.trans first.rates,second.row.trans first.row,second.column.trans first.column,?_⟩
  intro other inside apart
  exact (second.others other inside apart).trans (first.others other inside apart)

def Sta.store (mi : Sta) (newIdx col : Nat) (v : UInt8) : Sta := {mi with sampleTable := update mi.sampleTable (place newIdx col) v}

theorem column_store (mi : Sta) (newIdx col : Nat) (v : UInt8) : (mi.store newIdx col v).column col = (mi.column col).set newIdx v := by
  apply List.ext_getElem
  · simp [Sta.column,Sta.store]
  · intro idx _ _
    simp only [Sta.column,Sta.store,Sta.sampleTbl,List.getElem_map,List.getElem_range,List.getElem_set,Function.update_apply]
    have same : place idx col = place newIdx col ↔ newIdx = idx := by
      unfold place sampleColumns
      omega
    simp only [same]

theorem store_beside (mi : Sta) (newIdx : Nat) (inside : col < sampleColumns) (v : UInt8) : Beside mi (mi.store newIdx col v) col := by
  refine ⟨rfl,rfl,rfl,?_⟩
  intro other _ _
  apply List.map_congr_left
  intro idx _
  have elsewhere : place idx other ≠ place newIdx col := by
    unfold place sampleColumns at *
    omega
  exact update_of_ne elsewhere v mi.sampleTable

theorem Filled.free (filled : Filled mi col i) (few : i < mi.nRates) : ∃ idx < mi.nRates, mi.sampleTbl idx col = 0xff := by
  have member : (0xff : UInt8) ∈ mi.column col := by
    apply filled.mem_iff.mpr
    simp [Nat.sub_ne_zero_of_lt few]
  simpa [Sta.column] using member

theorem probe_finds (free : ∃ idx < mi.nRates, mi.sampleTbl idx col = 0xff) (inside : newIdx < mi.nRates) :
    ∃ found, probe mi col newIdx = some found ∧ found < mi.nRates ∧ mi.sampleTbl found col = 0xff := by
  obtain ⟨_,below,empty⟩ := free
  obtain ⟨m,within,rfl⟩ := ring_cover inside below
  obtain ⟨k,found,_,ran,⟨here,_⟩,stopped⟩ := whileM_rounds (fun newIdx => mi.sampleTbl newIdx col != 0xff)
    (fun newIdx => some ((newIdx + 1) % mi.nRates)) mi.nRates m
    (fun k at_ => at_ < mi.nRates ∧ at_ = (newIdx + k) % mi.nRates) ⟨inside,(Nat.mod_eq_of_lt inside).symm⟩
    (by
      rintro k _ _ ⟨_,rfl⟩ _
      exact ⟨_,rfl,Nat.mod_lt _ (by omega),ring_next ..⟩)
    (by
      rintro _ ⟨_,rfl⟩
      simp [empty])
    (Nat.le_of_lt within)
  exact ⟨found,ran,here,by simpa using stopped⟩

theorem Filled.store (filled : Filled mi col i) (few : i < mi.nRates) (inside : newIdx < mi.nRates)
    (empty : mi.sampleTbl newIdx col = 0xff) : Filled (mi.store newIdx col (UInt8.ofNat i)) col (i + 1) := by
  have below : newIdx < (mi.column col).length := by simpa [Sta.column] using inside
  have here : (mi.column col)[newIdx] = 0xff := by simpa [Sta.column] using empty
  obtain ⟨left,rest⟩ : ∃ left, mi.nRates - i = left + 1 := ⟨mi.nRates - i - 1,by omega⟩
  have fewer : mi.nRates - (i + 1) = left := by omega
  -- The slot that is taken was one of the free ones.
  have others : ((mi.column col).eraseIdx newIdx).Perm ((List.range i).map UInt8.ofNat ++ List.replicate left 0xff) := by
    have all := (List.getElem_cons_eraseIdx_perm below).trans filled
    rw [here,rest,List.replicate_succ] at all
    exact (all.trans List.perm_middle).cons_inv
  unfold Filled
  rw [column_store]
  change List.Perm _ ((List.range (i + 1)).map UInt8.ofNat ++ List.replicate (mi.nRates - (i + 1)) 0xff)
  rw [fewer,List.range_succ,List.map_append,List.append_assoc]
  have taken := List.set_perm_cons_eraseIdx below (UInt8.ofNat i)
  exact (taken.trans (others.cons _)).trans List.perm_middle.symm

theorem initRate_filled (rnd : Nat → UInt8) (inside : col < sampleColumns) (filled : Filled mi col i) (few : i < mi.nRates) :
    ∃ after, initRate rnd col mi i = some after ∧ Filled after col (i + 1) ∧ Beside mi after col := by
  obtain ⟨found,ran,below,empty⟩ := probe_finds (filled.free few) (Nat.mod_lt (i + (rnd (i &&& 7)).toNat) (by omega))
  refine ⟨mi.store found col (UInt8.ofNat i),?_,filled.store few below empty,store_beside mi found inside _⟩
  rw [initRate,ran]
  rfl

theorem initColumn_filled (rnd : Nat → Nat → UInt8) (inside : col < sampleColumns) (empty : Filled mi col 0) :
    ∃ after, initColumn rnd mi col = some after ∧ Filled after col mi.nRates ∧ Beside mi after col := by
  obtain ⟨after,ran,filled,beside⟩ := foldlM_returns (fun i after => Filled after col i ∧ Beside mi after col) (List.range mi.nRates)
    ⟨empty,rfl,rfl,rfl,fun _ _ _ => rfl⟩
    (by
      intro i below s ⟨filled,beside⟩
      rw [List.length_range] at below
      obtain ⟨next,ran,filled,besideNext⟩ := initRate_filled (rnd col) inside filled (by rw [beside.rates]; exact below)
      rw [List.getElem_range]
      exact ⟨next,ran,filled,beside.trans besideNext⟩)
  rw [List.length_range] at filled
  exact ⟨after,ran,filled,beside⟩

theorem filled_permuted (few : mi.nRates < 255) (filled : Filled mi col mi.nRates) : Permuted mi col := by
  have bytes : ((List.range mi.nRates).map UInt8.ofNat).map UInt8.toNat = List.range mi.nRates := by
    rw [List.map_map]
    refine (List.map_congr_left fun k member => ?_).trans (List.map_id _)
    have := List.mem_range.mp member
    simp
    omega
  unfold Filled at filled
  rw [Nat.sub_self,List.replicate_zero,List.append_nil] at filled
  have permuted := filled.map UInt8.toNat
  rwa [bytes] at permuted

end column

theorem cleared_empty (mi : Sta) (inside : col < sampleColumns) : Filled (cleared mi) col 0 := by
  have empty : (cleared mi).column col = List.replicate mi.nRates 0xff := by
    apply List.eq_replicate_iff.mpr
    simp only [Sta.column,List.length_map,List.length_range,List.mem_map,List.mem_range]
    refine ⟨rfl,?_⟩
    rintro _ ⟨idx,below,rfl⟩
    have within : place idx col < sampleColumns * mi.nRates := by
      unfold place sampleColumns at *
      change idx < mi.nRates at below
      omega
    exact if_pos within
  unfold Filled
  rw [empty]
  exact List.Perm.refl _

structure Begun (mi : Sta) (col : Nat) (s : Sta) : Prop where
  rates : s.nRates = mi.nRates
  start : s.sampleRow = 0 ∧ s.sampleColumn = 0
  filled : ∀ before < col, Filled s before mi.nRates
  empty : ∀ other < sampleColumns, col ≤ other → Filled s other 0

theorem Filled.same (filled : Filled mi col i) (rates : after.nRates = mi.nRates)
    (same : after.column col = mi.column col) : Filled after col i := by
  unfold Filled at *
  rwa [rates,same]

theorem Begun.next (rnd : Nat → Nat → UInt8) (begun : Begun mi col s) (inside : col < sampleColumns) :
    ∃ after, initColumn rnd s col = some after ∧ Begun mi (col + 1) after := by
  obtain ⟨after,ran,filled,beside⟩ := initColumn_filled rnd inside (begun.empty col inside (Nat.le_refl col))
  refine ⟨after,ran,beside.rates.trans begun.rates,⟨beside.row.trans begun.start.1,beside.column.trans begun.start.2⟩,?_,?_⟩
  · intro before below
    rcases Nat.lt_succ_iff_lt_or_eq.mp below with earlier | rfl
    · exact (begun.filled before earlier).same beside.rates (beside.others before (by omega) (by omega))
    · rwa [begun.rates] at filled
  · intro other also _
    exact (begun.empty other also (by omega)).same beside.rates (beside.others other also (by omega))

theorem init_begun (rnd : Nat → Nat → UInt8) (mi : Sta) : ∃ after, initSampleTable rnd mi = some after ∧ Begun mi sampleColumns after := by
  have start : Begun mi 0 (cleared mi) := ⟨rfl,⟨rfl,rfl⟩,nofun,fun other inside _ => cleared_empty mi inside⟩
  obtain ⟨after,ran,begun⟩ := foldlM_returns (Begun mi) (List.range sampleColumns) start (by
    intro _ below s begun
    rw [List.length_range] at below
    rw [List.getElem_range]
    exact begun.next rnd below)
  rw [List.length_range] at begun
  exact ⟨after,ran,begun⟩

structure Sampling (mi s : Sta) : Prop where
  rates : s.nRates = mi.nRates
  table : s.sampleTable = mi.sampleTable
  column : s.sampleColumn < sampleColumns

theorem Sampling.next (sampling : Sampling mi s) : Sampling mi (minstrelGetNextSample s).2 := by
  have column := sampling.column
  unfold minstrelGetNextSample
  split
  · refine ⟨sampling.rates,sampling.table,?_⟩
    dsimp only
    split
    · decide
    · omega
  · exact ⟨sampling.rates,sampling.table,column⟩

theorem Sampling.calls (sampling : Sampling mi s) (calls : Nat) : Sampling mi (samples calls s).2 := by
  induction calls generalizing s with
  | zero => exact sampling
  | succ calls ih => exact ih sampling.next

theorem samples_within (calls : Nat) (within : s.sampleRow + calls ≤ s.nRates) :
    (samples calls s).1 = (List.range' s.sampleRow calls).map fun idx => (s.sampleTbl idx s.sampleColumn).toNat := by
  induction calls generalizing s with
  | zero => rfl
  | succ calls ih =>
    rw [List.range'_succ,List.map_cons]
    change (minstrelGetNextSample s).1 :: (samples calls (minstrelGetNextSample s).2).1 = _
    unfold minstrelGetNextSample
    split
    · have none_left : calls = 0 := by omega
      subst none_left
      rfl
    · rw [ih (by dsimp only; omega)]
      rfl

theorem sample_table_permutes (rnd : Nat → Nat → UInt8) (mi : Sta) (few : mi.nRates < 255) :
    ∃ after, initSampleTable rnd mi = some after ∧ after.nRates = mi.nRates ∧ (∀ col < sampleColumns, Permuted after col) ∧
      ∀ calls, (samples calls after).2.sampleRow = 0 →
        (samples mi.nRates (samples calls after).2).1.Perm (List.range mi.nRates) := by
  obtain ⟨after,ran,begun⟩ := init_begun rnd mi
  have rates := begun.rates
  have permuted : ∀ col < sampleColumns, Permuted after col := fun col inside =>
    filled_permuted (by omega) (by rw [rates]; exact begun.filled col inside)
  refine ⟨after,ran,rates,permuted,?_⟩
  intro calls row
  have start : Sampling after after := ⟨rfl,rfl,by rw [begun.start.2]; decide⟩
  have sampling := start.calls calls
  generalize (samples calls after).2 = s at row sampling
  have column := permuted s.sampleColumn sampling.column
  have taken := samples_within (s := s) mi.nRates (by rw [row,sampling.rates,rates,Nat.zero_add])
  rw [taken,row,← List.range_eq_range',← rates]
  simpa [Permuted,Sta.column,Sta.sampleTbl,sampling.table,Function.comp_def] using column

def threeRates : Sta := ⟨0,0,3,fun _ => 0⟩

theorem sample_table_permutes_sample : threeRates.nRates < 255 ∧
    ∃ after, initSampleTable (fun _ i => if i = 1 then 1 else 0) threeRates = some after ∧ after.nRates = 3 ∧
      (∀ col < sampleColumns, Permuted after col) ∧
        ∀ calls, (samples calls after).2.sampleRow = 0 → (samples 3 (samples calls after).2).1.Perm (List.range 3) :=
  ⟨by decide,sample_table_permutes (fun _ i => if i = 1 then 1 else 0) threeRates (by decide)⟩
end Mac80211.MinstrelSample

import Mac80211.Guarded
import Mac80211.MncOutcome

namespace Mac80211.MncRx
open Gf Loops Guarded
open Function (update update_of_ne update_self)
open Gf Loops Guarded LinearSystems LuFac
open Nat (zero_le succ_mul)

-- With the elements and bytes each statement uses, and 32 bit counters for the loops that step by p. Only a
-- strict run stops at an access outside; both stop at a null pointer.
section Decoding

variable (strict : Bool) (fuel : Nat)

def placeRun (k : Nat) : Except Stop Slots → Run (Except Stop Slots)
  | .error stop => .done (.error stop)
  | .ok s =>
    match s.skbs with
    | [] => .fault
    | skbTemp :: _ =>
      if mindex skbTemp ≠ 0x3f then act strict [(2,skbTemp.len),(mindex skbTemp,k)] (placeSystematic k s)
      else act strict [(2,skbTemp.len)] (placeSystematic k s)

def codedEntry (p msize : Nat) (skb : Option Skb) (i j m n : Nat) (M : Nat → Nat → UInt8) : Run (Nat → Nat → UInt8) :=
  match skb with
  | none => .fault
  | some s =>
    act strict [(i * p + m,msize),(j + n,msize),(3 + j * p + m * p + n,s.len)]
      (LuFac.set M (i * p + m) (j + n) (s.byte (3 + j * p + m * p + n)))

def unitEntry (p msize i m n : Nat) (M : Nat → Nat → UInt8) : Run (Nat → Nat → UInt8) :=
  act strict [(i * p + m,msize),(n,msize)] (LuFac.set M (i * p + m) n (if n = i * p + m then 1 else 0))

def fillRows (k p : Nat) (slots : Slots) (i : Nat) (M : Nat → Nat → UInt8) : Run (Nat → Nat → UInt8) :=
  if slots.isSys i then forRun 0 p (fun m => forRun 0 (k * p) (unitEntry strict p (k * p) i m)) M
  else stepRun (k * p) p (fun j => forRun 0 p fun m => forRun 0 p (codedEntry strict p (k * p) (slots.skb i) i j m)) fuel 0 M

def fillCoefficient (k p : Nat) (slots : Slots) : Run (Nat → Nat → UInt8) :=
  forRun 0 k (fillRows strict fuel k p slots) fun _ _ => 0

def rankRun (k p : Nat) (lu : LuFac.State) (i : Nat) (s : Rank) : Run Rank :=
  act strict ((i,k * p) :: if lu.u i i = 0 then [(lu.pivot i / p,k)] else []) (checkRank p lu i s)

def copyRun (skb : Nat → Option Skb) (i : Nat) (s : (Nat → Skb) × Kernel) : Run ((Nat → Skb) × Kernel) :=
  match skb i with
  | none => .fault
  | some _ => .done (copySlot (fun i => (skb i).getD default) i s)

def fillBRun (k p mncheadsize : Nat) (isSys : Nat → Bool) (skb : Nat → Skb) (i : Nat) : Run (Nat → UInt8) :=
  forRun 0 k (fun j => forRun 0 p fun l b =>
    act strict [(j,k),(j * p + l,k * p),((if isSys j then 3 else mncheadsize) + i + l,(skb j).len)]
      (update b (j * p + l) ((skb j).byte ((if isSys j then 3 else mncheadsize) + i + l)))) fun _ => 0

def permuteRun (msize : Nat) (pivot : Nat → Nat) (t : Nat → UInt8) : Run (Nat → UInt8) :=
  act strict ((List.range msize).map fun j => (pivot j,msize)) fun j => t (pivot j)

def solveLRun (msize : Nat) (L : Nat → Nat → UInt8) (b : Nat → UInt8) : Run (Nat → UInt8) :=
  forRun 0 msize (fun j y => (act strict [(j,msize)] (update y j (b j))).bind (forRun 0 j fun l y =>
    act strict [(j,msize),(l,msize)] (update y j (gsub (y j) (gmul (L j l) (y l)))))) fun _ => 0

def solveURun (msize : Nat) (U : Nat → Nat → UInt8) (y x : Nat → UInt8) : Run (Nat → UInt8) :=
  forRun 0 msize (fun j x =>
    let n := msize - 1 - j
    if U n n = 0 then act strict [(n,msize)] x
    else
      (act strict [(n,msize)] (update x n (y n))).bind fun x =>
      (forRun (n + 1) msize (fun l x =>
        act strict [(n,msize),(l,msize)] (update x n (gsub (x n) (gmul (U n l) (x l))))) x).bind fun x =>
      act strict [(n,msize)] (update x n (gdiv (x n) (U n n)))) x

def putXRun (k p i : Nat) (x : Nat → UInt8) (newskb : Nat → Skb) : Run (Nat → Skb) :=
  forRun 0 k (fun j => forRun 0 p fun l newskb =>
    act strict [(j,k),(i + l,(newskb j).len),(j * p + l,k * p)]
      (update newskb j ((newskb j).store (i + l) (x (j * p + l))))) newskb

def blockRun (k p : Nat) (lu : LuFac.State) (skb : Nat → Skb) (mncheadsize : Nat) (isSys : Nat → Bool) (i : Nat)
    (s : Substitution) : Run Substitution :=
  (fillBRun strict k p mncheadsize isSys skb i).bind fun t =>
  (permuteRun strict (k * p) lu.pivot t).bind fun b =>
  (solveLRun strict (k * p) lu.l b).bind fun y =>
  (solveURun strict (k * p) lu.u y s.x).bind fun x =>
  (putXRun strict k p i x s.newskb).bind fun newskb => .done ⟨x,newskb⟩

def substiRun (k p : Nat) (lu : LuFac.State) (skb newskb : Nat → Skb) (len mncheadsize : Nat) (isSys : Nat → Bool) :
    Run Substitution :=
  stepRun len p (blockRun strict k p lu skb mncheadsize isSys) fuel 0 ⟨fun _ => 0,newskb⟩

def output (k len : Nat) (slots : Slots) (kernel : Kernel) (s : Substitution) : Decoded :=
  let (newskbs,kernel) := forRange 0 k (outputSlot len slots.isSys s.newskb) ([],kernel)
  ⟨true,slots.skbs,newskbs,kernel⟩

def decodeRun (k p : Nat) (slots : Slots) (lu : LuFac.State) (rank : Rank) : Run Decoded :=
  let mncheadsize := 3 + p * p * k
  let head := if slots.isSys 0 then 3 else mncheadsize
  (forRun 0 k (copyRun rank.skb) (fun _ => default,rank.kernel)).bind fun (newskb,kernel) =>
  (act strict [(0,k),(head,(newskb 0).len + 1)] (subU32 (newskb 0).len head)).bind fun len =>
  (substiRun strict fuel k p lu (fun i => (rank.skb i).getD default) newskb len mncheadsize slots.isSys).bind fun s =>
  .done (output k len slots kernel s)

def factorRun (k p : Nat) (slots : Slots) (kernel : Kernel) (coefficient : Nat → Nat → UInt8) : Run Decoded :=
  let lu := LuFac.luFac (k * p) (k * p) ⟨coefficient,fun _ _ => 0,fun _ _ => 0,id⟩
  (forRun 0 (k * p) (rankRun strict k p lu) ⟨k * p,slots.skb,kernel⟩).bind fun rank =>
  if rank.rank ≠ k * p then .done ⟨false,slots.skbs ++ occupied k rank.skb,[],rank.kernel⟩
  else decodeRun strict fuel k p slots lu rank

def solveRun (k p : Nat) (slots : Slots) (kernel : Kernel) : Run Decoded :=
  (fillCoefficient strict fuel k p slots).bind (factorRun strict fuel k p slots kernel)

def placedRun (k p : Nat) (kernel : Kernel) : Except Stop Slots → Run Decoded
  | .error .null => .fault
  | .error (.duplicate skbs extra) => .done ⟨false,skbs,[],kfreeSkb (some extra) kernel⟩
  | .ok slots => solveRun strict fuel k p (forRange 0 k fillCoded slots) kernel

def skbsDecodingRun (skbs : List Skb) (kp : UInt8) (kernel : Kernel) : Run Decoded :=
  let k := (kp >>> 2).toNat
  let p := (kp &&& 0x3).toNat
  (forRun 0 k (fun _ => placeRun strict k) (.ok ⟨skbs,fun _ => false,fun _ => none⟩)).bind
    (placedRun strict fuel k p kernel)

end Decoding

def Right (C M : Nat → Nat → UInt8) (filled : Nat → Nat → Prop) : Prop := ∀ r c, filled r c → M r c = C r c

theorem set_right (right : Right C M before) (value : v = C r c)
    (more : ∀ a b, after a b → before a b ∨ (a = r ∧ b = c)) : Right C (LuFac.set M r c v) after := by
  intro a b here
  rw [LuFac.set]
  split
  · rename_i place
    rw [place.1,place.2,value]
  · rename_i elsewhere
    exact right a b ((more a b here).resolve_right elsewhere)

def blockFilled (p i m columns : Nat) (before : Nat → Nat → Prop) (r c : Nat) : Prop :=
  before r c ∨ (∃ row < m, r = i * p + row) ∧ c < columns

section Fill

variable {slots : Slots}

-- The entries of a rectangle, row by row.
theorem rectangle_done {entry : Nat → Nat → (Nat → Nat → UInt8) → Run (Nat → Nat → UInt8)} (i p lo width : Nat) (right : Right C M before)
    (writes : ∀ m < p, ∀ n < width, ∀ N, entry m n N = .done (LuFac.set N (i * p + m) (lo + n) (C (i * p + m) (lo + n)))) :
    ∃ N, forRun 0 p (fun m => forRun 0 width (entry m)) M = .done N ∧
      Right C N fun r c => before r c ∨ (∃ row < p, r = i * p + row) ∧ lo ≤ c ∧ c < lo + width := by
  refine forRun_done (fun m N => Right C N fun r c => before r c ∨ (∃ row < m, r = i * p + row) ∧ lo ≤ c ∧ c < lo + width)
    (zero_le p) ?_ ?_
  · rintro r c (old | ⟨⟨row,below,_⟩,_⟩)
    · exact right r c old
    · omega
  intro m N _ row done
  refine forRun_post (fun n N => Right C N fun r c =>
    (before r c ∨ (∃ row < m, r = i * p + row) ∧ lo ≤ c ∧ c < lo + width) ∨ (r = i * p + m ∧ lo ≤ c ∧ c < lo + n))
    (zero_le width) ?_ ?_ ?_
  · rintro r c (old | ⟨_,_,_⟩)
    · exact done r c old
    · omega
  · intro n N _ column done
    refine ⟨_,writes m row n column N,set_right done rfl ?_⟩
    rintro a b (old | ⟨same,low,_⟩)
    · exact .inl (.inl old)
    · by_cases here : b = lo + n
      · exact .inr ⟨same,here⟩
      · exact .inl (.inr ⟨same,low,by omega⟩)
  · intro N filled
    rintro r c (old | ⟨⟨a,_,same⟩,column⟩)
    · exact filled r c (.inl (.inl old))
    · by_cases here : a = m
      · exact filled r c (.inr ⟨here ▸ same,column⟩)
      · exact filled r c (.inl (.inr ⟨⟨a,by omega,same⟩,column⟩))

theorem unitRows_done (small : i < k) (mark : slots.isSys i = true)
    (right : Right (coefficient p slots.isSys slots.packet) M before) :
    ∃ N, forRun 0 p (fun m => forRun 0 (k * p) (unitEntry strict p (k * p) i m)) M = .done N ∧
      Right (coefficient p slots.isSys slots.packet) N (blockFilled p i p (k * p) before) := by
  have writes : ∀ m < p, ∀ n < k * p, ∀ N, unitEntry strict p (k * p) i m n N =
      .done (LuFac.set N (i * p + m) (0 + n) (coefficient p slots.isSys slots.packet (i * p + m) (0 + n))) := by
    intro m row n column N
    have inside := MncTx.position_lt small row
    rw [Nat.zero_add]
    refine (act_inside (by simpa using ⟨inside,column⟩) strict _).trans ?_
    simp only [coefficient,(block_parts row i).1,mark,if_true]
  obtain ⟨N,ran,filled⟩ := rectangle_done i p 0 (k * p) right writes
  refine ⟨N,ran,fun r c here => filled r c ?_⟩
  rcases here with old | ⟨rows,column⟩
  · exact .inl old
  · exact .inr ⟨rows,zero_le c,by rwa [Nat.zero_add]⟩

theorem codedColumns_done (small : i < k) (mark : slots.isSys i = false) (full : slots.skb i = some (slots.packet i))
    (long : strict = true → 3 + p * p * k ≤ (slots.packet i).len) (block : t < k)
    (right : Right (coefficient p slots.isSys slots.packet) M (blockFilled p i p (t * p) before)) :
    ∃ N, forRun 0 p (fun m => forRun 0 p (codedEntry strict p (k * p) (slots.skb i) i (t * p) m)) M = .done N ∧
      Right (coefficient p slots.isSys slots.packet) N (blockFilled p i p ((t + 1) * p) before) := by
  rw [full]
  have writes : ∀ m < p, ∀ n < p, ∀ N, codedEntry strict p (k * p) (some (slots.packet i)) i (t * p) m n N =
      .done (LuFac.set N (i * p + m) (t * p + n) (coefficient p slots.isSys slots.packet (i * p + m) (t * p + n))) := by
    intro m row n column N
    refine (act_done (fun checked => ?_) _).trans ?_
    · have inside := MncTx.position_lt small row
      have column_inside := MncTx.position_lt block column
      have square := MncTx.position_lt row column
      have offset := MncTx.position_lt block square
      have head := long checked
      rw [← Nat.mul_assoc,Nat.mul_comm k] at offset
      simp only [List.mem_cons,List.not_mem_nil,or_false,forall_eq_or_imp,forall_eq]
      exact ⟨inside,column_inside,by omega⟩
    · simp only [coefficient,(block_parts row i).1,(block_parts row i).2,(block_parts column t).1,(block_parts column t).2,mark]
      rfl
  obtain ⟨N,ran,filled⟩ := rectangle_done i p (t * p) p right writes
  refine ⟨N,ran,?_⟩
  rintro r c (old | ⟨rows,column⟩)
  · exact filled r c (.inl (.inl old))
  · rw [succ_mul] at column
    by_cases low : t * p ≤ c
    · exact filled r c (.inr ⟨rows,low,column⟩)
    · exact filled r c (.inl (.inr ⟨rows,by omega⟩))

theorem fillRows_safe (fits : k * p < 2 ^ 32) (small : i < k) (full : slots.skb i = some (slots.packet i))
    (long : strict = true → slots.isSys i = false → 0 < p → 3 + p * p * k ≤ (slots.packet i).len)
    (right : Right (coefficient p slots.isSys slots.packet) M before) (fuel : Nat) :
    (fillRows strict fuel k p slots i M).Safe fun N =>
      Right (coefficient p slots.isSys slots.packet) N (blockFilled p i p (k * p) before) := by
  rw [fillRows]
  cases mark : slots.isSys i with
  | true =>
    rw [if_pos rfl]
    exact .inr (unitRows_done small mark right)
  | false =>
    rw [if_neg (by decide)]
    refine Run.safe_mono (stepRun_safe (fun j N => ∃ t, j = t * p ∧ t ≤ k ∧
      Right (coefficient p slots.isSys slots.packet) N (blockFilled p i p (t * p) before)) ?_ fuel ?_) ?_
    · rintro _ N inside ⟨t,rfl,_,done⟩
      have block : t < k := Nat.lt_of_mul_lt_mul_right inside
      have positive : 0 < p := Nat.pos_of_ne_zero fun zero => by simp [zero] at inside
      obtain ⟨L,ran,filled⟩ := codedColumns_done small mark full (fun checked => long checked mark positive) block done
      refine ⟨L,ran,t + 1,?_,block,filled⟩
      have bound : (t + 1) * p ≤ k * p := Nat.mul_le_mul_right p block
      have sum : t * p + p = (t + 1) * p := (succ_mul t p).symm
      rw [sum]
      exact Nat.mod_eq_of_lt (by omega)
    · refine ⟨0,by rw [Nat.zero_mul],zero_le k,?_⟩
      rintro r c (old | ⟨_,_⟩)
      · exact right r c old
      · omega
    · rintro N ⟨_,enough,t,rfl,below,filled⟩
      have whole : t * p = k * p := Nat.le_antisymm (Nat.mul_le_mul_right p below) enough
      rwa [whole] at filled

theorem codedEntry_ends (skb : Option Skb) (i j m n : Nat) (M : Nat → Nat → UInt8) :
    codedEntry strict p msize skb i j m n M ≠ .going := by
  cases skb with
  | none => exact fun same => by cases same
  | some => exact act_ends _ _ _

theorem fillRows_ends (fits : k * p < 2 ^ 32) (enough : k ≤ fuel) (i : Nat) (M : Nat → Nat → UInt8) :
    fillRows strict fuel k p slots i M ≠ .going := by
  rw [fillRows]
  split
  · exact forRun_ends (fun m M _ _ => forRun_ends (fun n M _ _ => act_ends _ _ _) M) M
  · by_cases positive : 0 < p
    · have count := rows_count k positive
      refine stepRun_ends positive (by rwa [count]) (by rwa [count]) ?_ M
      intro j M
      exact forRun_ends (fun m M _ _ => forRun_ends (fun n M _ _ => codedEntry_ends _ _ _ _ _ M) M) M
    · have zero : p = 0 := by omega
      subst p
      rw [stepRun_over (Nat.le_of_eq (Nat.mul_zero k))]
      exact fun same => by cases same

theorem fillCoefficient_safe (strict : Bool) (fits : k * p < 2 ^ 32) (full : ∀ i < k, slots.skb i = some (slots.packet i))
    (long : strict = true → ∀ i < k, slots.isSys i = false → 0 < p → 3 + p * p * k ≤ (slots.packet i).len) (fuel : Nat) :
    (fillCoefficient strict fuel k p slots).Safe fun N =>
      ∀ r < k * p, ∀ c < k * p, N r c = coefficient p slots.isSys slots.packet r c := by
  refine Run.safe_mono (forRun_safe (fun i N => Right (coefficient p slots.isSys slots.packet) N fun r c =>
    r < i * p ∧ c < k * p) (zero_le k) ?_ ?_) fun N filled r row c column => filled r c ⟨row,column⟩
  · rintro r c ⟨_,_⟩
    omega
  · intro i N _ small done
    refine Run.safe_mono (fillRows_safe fits small (full i small) (fun checked => long checked i small) done fuel) ?_
    rintro L filled r c ⟨row,column⟩
    rw [succ_mul] at row
    by_cases old : r < i * p
    · exact filled r c (.inl ⟨old,column⟩)
    · exact filled r c (.inr ⟨⟨r - i * p,by omega,by omega⟩,column⟩)

theorem fillCoefficient_ends (fits : k * p < 2 ^ 32) (enough : k ≤ fuel) : fillCoefficient strict fuel k p slots ≠ .going :=
  forRun_ends (fun i M _ _ => fillRows_ends fits enough i M) _

theorem fillCoefficient_faults (fits : k * p < 2 ^ 32) (small : i < k) (mark : slots.isSys i = false) (positive : 0 < p)
    (full : slots.skb i = some s) (short : s.len < 3 + p * p * k) :
    fillCoefficient true k k p slots = .fault := by
  refine forRun_faults_any (zero_le i) small (fun i M _ _ => fillRows_ends fits (Nat.le_refl k) i M) ?_ _
  intro M
  have count := rows_count k positive
  rw [fillRows,mark,if_neg (by decide),stepRun_forRun positive (by rwa [count]) k (by rw [count]),count,full]
  refine forRun_faults_any (m := k - 1) (zero_le _) (by omega) ?_ ?_ M
  · intro t M _ _
    exact forRun_ends (fun m M _ _ => forRun_ends (fun n M _ _ => codedEntry_ends _ _ _ _ _ M) M) M
  intro M
  refine forRun_faults_any (m := p - 1) (zero_le _) (by omega) ?_ ?_ M
  · intro m M _ _
    exact forRun_ends (fun n M _ _ => codedEntry_ends _ _ _ _ _ M) M
  intro M
  refine forRun_faults_any (m := p - 1) (zero_le _) (by omega) ?_ ?_ M
  · intro n M _ _
    exact codedEntry_ends _ _ _ _ _ M
  intro M
  refine act_outside (u := (3 + (k - 1) * p * p + (p - 1) * p + (p - 1),s.len)) (by simp) ?_ _
  have rows : (p - 1) * p + p = p * p := by
    rw [← succ_mul]
    congr 1
    omega
  have blocks : (k - 1) * (p * p) + p * p = p * p * k := by
    rw [← succ_mul,Nat.mul_comm]
    congr 1
    omega
  rw [← Nat.mul_assoc] at blocks
  omega

end Fill

section Block

variable {strict : Bool}

theorem fillBRun_done
    (long : strict = true → 0 < p → ∀ j < k, (if isSys j then 3 else mncheadsize) + i + p ≤ (skb j).len) :
    fillBRun strict k p mncheadsize isSys skb i = .done (fillB k p mncheadsize isSys skb i) := by
  refine forRun_same (fun j b _ small => forRun_same (fun l b _ row => act_done ?_ _) b) _
  intro checked
  have inside := MncTx.position_lt small row
  have bound := long checked (by omega) j small
  simp only [List.mem_cons,List.not_mem_nil,or_false,forall_eq_or_imp,forall_eq]
  exact ⟨small,inside,by omega⟩

theorem permuteRun_done (below : ∀ j < msize, pivot j < msize) (t : Nat → UInt8) :
    permuteRun strict msize pivot t = .done fun j => t (pivot j) := by
  refine act_inside ?_ strict _
  intro u member
  obtain ⟨j,small,rfl⟩ := List.mem_map.mp member
  exact below j (List.mem_range.mp small)

theorem solveLRun_done (msize : Nat) (L : Nat → Nat → UInt8) (b : Nat → UInt8) :
    solveLRun strict msize L b = .done (solveL msize L b) := by
  refine forRun_same (fun j y _ small => ?_) _
  rw [act_inside (by simpa using small),Run.done_bind]
  refine forRun_same (fun l y _ before => act_inside ?_ strict _) _
  simpa using ⟨small,by omega⟩

theorem upperRow_done (row : n < msize) (f : Nat → (Nat → UInt8) → Nat → UInt8) (x : Nat → UInt8) :
    forRun (n + 1) msize (fun l x => act strict [(n,msize),(l,msize)] (f l x)) x = .done (forRange (n + 1) msize f x) := by
  refine forRun_same (fun l x _ below => act_inside ?_ strict _) _
  simpa using ⟨row,below⟩

theorem solveURun_done (msize : Nat) (U : Nat → Nat → UInt8) (y x : Nat → UInt8) :
    solveURun strict msize U y x = .done (solveU msize U y x) := by
  refine forRun_same (fun j x _ small => ?_) _
  have row : msize - 1 - j < msize := by omega
  by_cases zero : U (msize - 1 - j) (msize - 1 - j) = 0
  · rw [if_pos zero,if_pos zero]
    exact act_inside (by simpa using row) strict _
  · rw [if_neg zero,if_neg zero,act_inside (by simpa using row),Run.done_bind,upperRow_done row,Run.done_bind]
    exact act_inside (by simpa using row) strict _

theorem putXRun_done {size : Nat → Nat} (lengths : ∀ j, (newskb j).len = size j)
    (long : strict = true → 0 < p → ∀ j < k, i + p ≤ size j) (x : Nat → UInt8) :
    putXRun strict k p i x newskb = .done (putX k p i x newskb) ∧ ∀ j, (putX k p i x newskb j).len = size j := by
  refine forRun_pure (fun newskb : Nat → Skb => ∀ j, (newskb j).len = size j) lengths ?_
  intro j newskb _ small lengths
  refine forRun_pure (fun newskb : Nat → Skb => ∀ j, (newskb j).len = size j) lengths ?_
  intro l _ _ row lengths
  refine ⟨act_done ?_ _,?_⟩
  · intro checked
    have inside := MncTx.position_lt small row
    have bound := long checked (by omega) j small
    have length := lengths j
    simp only [List.mem_cons,List.not_mem_nil,or_false,forall_eq_or_imp,forall_eq]
    exact ⟨small,by omega,inside⟩
  · intro m
    by_cases here : m = j
    · subst m
      rw [update_self,Skb.store_len,lengths]
    · rw [update_of_ne here,lengths]

theorem blockRun_done (strict : Bool) (isSys : Nat → Bool) (skb : Nat → Skb) (mncheadsize i : Nat) {size : Nat → Nat} (below : ∀ j < k * p, lu.pivot j < k * p)
    (lengths : ∀ j, (s.newskb j).len = size j)
    (reads : strict = true → 0 < p → ∀ j < k, (if isSys j then 3 else mncheadsize) + i + p ≤ (skb j).len)
    (writes : strict = true → 0 < p → ∀ j < k, i + p ≤ size j) :
    blockRun strict k p lu skb mncheadsize isSys i s =
        .done (substiBlock (k * p) k p lu.u lu.l lu.pivot skb mncheadsize isSys i s) ∧
      ∀ j, ((substiBlock (k * p) k p lu.u lu.l lu.pivot skb mncheadsize isSys i s).newskb j).len = size j := by
  obtain ⟨put,kept⟩ := putXRun_done lengths writes (solveU (k * p) lu.u
    (solveL (k * p) lu.l fun j => fillB k p mncheadsize isSys skb i (lu.pivot j)) s.x)
  refine ⟨?_,kept⟩
  rw [blockRun,fillBRun_done reads,Run.done_bind,permuteRun_done below,Run.done_bind,solveLRun_done,Run.done_bind,
    solveURun_done,Run.done_bind,put,Run.done_bind]
  rfl

theorem blockRun_ends (below : ∀ j < k * p, lu.pivot j < k * p) (skb : Nat → Skb) (mncheadsize : Nat) (isSys : Nat → Bool)
    (i : Nat) (s : Substitution) : blockRun strict k p lu skb mncheadsize isSys i s ≠ .going := by
  refine Run.bind_ends (forRun_ends (fun j b _ _ => forRun_ends (fun l b _ _ => act_ends _ _ _) b) _) fun t _ => ?_
  rw [permuteRun_done below,Run.done_bind,solveLRun_done,Run.done_bind,solveURun_done,Run.done_bind]
  refine Run.bind_ends (forRun_ends (fun j n _ _ => forRun_ends (fun l n _ _ => act_ends _ _ _) n) _) fun n _ => ?_
  exact fun same => by cases same

theorem blockRun_faults (small : j < k) (row : l < p)
    (short : (skb j).len ≤ (if isSys j then 3 else mncheadsize) + i + l) (lu : LuFac.State) (s : Substitution) :
    blockRun true k p lu skb mncheadsize isSys i s = .fault := by
  have fault : fillBRun true k p mncheadsize isSys skb i = .fault := by
    refine forRun_faults_any (zero_le j) small (fun j b _ _ => forRun_ends (fun l b _ _ => act_ends _ _ _) b) ?_ _
    intro b
    refine forRun_faults_any (zero_le l) row (fun l b _ _ => act_ends _ _ _) ?_ b
    intro b
    exact act_outside (u := ((if isSys j then 3 else mncheadsize) + i + l,(skb j).len)) (by simp) short _
  rw [blockRun,fault,Run.fault_bind]

end Block

end Mac80211.MncRx

import Mac80211.MncSlots
import Mac80211.MncSubsti

namespace Mac80211.MncRx
open Gf Loops LinearSystems LuFac

def coefficientRow (p : Nat) (s : Skb) (m c : Nat) : UInt8 :=
  if isCoded s then s.byte (3 + c / p * p * p + m * p + c % p) else if c = mindex s * p + m then 1 else 0

def coefficientMatrix (p : Nat) (pkts : List Skb) (r c : Nat) : UInt8 :=
  coefficientRow p (pkts.getD (r / p) default) (r % p) c

def Regular (k p : Nat) (pkts : List Skb) : Prop := (square (k * p) (field (coefficientMatrix p pkts))).det ≠ 0

theorem coefficientMatrix_row (small : a < pkts.length) (row : m < p) (c : Nat) :
    coefficientMatrix p pkts (a * p + m) c = coefficientRow p pkts[a] m c := by
  obtain ⟨block,rest⟩ := block_parts row a
  rw [coefficientMatrix,block,rest]
  simp [List.getD_eq_getElem?_getD,small]

theorem regular_incl (xs_count : xs.length = k) (ys_count : ys.length = k)
    (members : ∀ s ∈ xs, s ∈ ys) (regular : Regular k p xs) : Regular k p ys := by
  refine regular_rows ?_ regular
  intro i small
  have positive : 0 < p := Nat.pos_of_ne_zero fun zero => by simp [zero] at small
  have block : i / p < xs.length := by rw [xs_count]; exact Nat.div_lt_of_lt_mul (by rwa [Nat.mul_comm])
  have row := Nat.mod_lt i positive
  obtain ⟨a,bound,same⟩ := List.getElem_of_mem (members _ (List.getElem_mem block))
  refine ⟨a * p + i % p,MncTx.position_lt (by omega) row,fun c _ => ?_⟩
  have parts := Nat.div_add_mod' i p
  have here := coefficientMatrix_row block row c
  rw [parts] at here
  simp only [field]
  rw [here,coefficientMatrix_row bound row c,same]

theorem regular_perm (count : xs.length = k) (order : xs.Perm ys) : Regular k p xs ↔ Regular k p ys :=
  ⟨regular_incl count (order.length_eq ▸ count) fun _ => order.mem_iff.mp,
    regular_incl (order.length_eq ▸ count) count fun _ => order.mem_iff.mpr⟩

theorem filled_coded (filled : Filled k pkts slots) (bound : k ≤ 0x3f) (small : i < k) :
    isCoded (slots.packet i) = !slots.isSys i := by
  have index := filled.index i small
  cases mark : slots.isSys i with
  | true =>
    rw [mark,if_pos rfl] at index
    have other : i ≠ 0x3f := by omega
    simp [isCoded,index,other]
  | false =>
    rw [mark,if_neg (by decide)] at index
    simp [isCoded,index]

theorem coefficient_filled (filled : Filled k pkts slots) (bound : k ≤ 0x3f) (small : r < k * p) (c : Nat) :
    coefficient p slots.isSys slots.packet r c = coefficientMatrix p ((List.range k).map slots.packet) r c := by
  have block : r / p < k := Nat.div_lt_of_lt_mul (by rwa [Nat.mul_comm])
  have place : ((List.range k).map slots.packet).getD (r / p) default = slots.packet (r / p) := by
    simp [List.getD_eq_getElem?_getD,block]
  have index := filled.index _ block
  have parts := Nat.div_add_mod' r p
  simp only [coefficient,coefficientMatrix,coefficientRow,place,filled_coded filled bound block]
  cases mark : slots.isSys (r / p) with
  | true =>
    rw [mark,if_pos rfl] at index
    simp [index,parts]
  | false => simp

-- Only coded packets are dropped.
structure Checked (k p : Nat) (pkts : List Skb) (slots : Slots) (lu : LuFac.State) (kernel : Kernel) (n : Nat)
    (dropped : List Skb) (s : Rank) : Prop where
  entries : ∀ m < k, s.skb m = some (slots.packet m) ∨ s.skb m = none ∧ slots.isSys m = false
  coded : ∀ t ∈ dropped, isCoded t
  packets : (dropped ++ occupied k s.skb).Perm pkts
  kernel : s.kernel = {kernel with log := kernel.log ++ dropped.map .freed}
  verdict : (s.rank = k * p ∧ (∀ i < n, lu.u i i ≠ 0) ∧ (∀ m < k, s.skb m = some (slots.packet m)) ∧ dropped = []) ∨
    (s.rank < k * p ∧ (∃ i < n, lu.u i i = 0) ∧ dropped ≠ [])

theorem checkRank_next (filled : Filled k pkts slots) (bound : k ≤ 0x3f)
    (free : ∀ i < k * p, lu.u i i = 0 → lu.pivot i / p < k ∧ slots.isSys (lu.pivot i / p) = false)
    (checked : Checked k p pkts slots lu kernel n dropped s) (small : n < k * p) :
    ∃ dropped, Checked k p pkts slots lu kernel (n + 1) dropped (checkRank p lu n s) := by
  unfold checkRank
  split
  · rename_i zero
    obtain ⟨range,not_sys⟩ := free n small zero
    generalize lu.pivot n / p = d at range not_sys
    have less : s.rank - 1 < k * p := by
      rcases checked.verdict with ⟨full,_⟩ | ⟨less,_⟩ <;> omega
    rcases checked.entries d range with here | ⟨gone,_⟩
    · refine ⟨dropped ++ [slots.packet d],?_,?_,?_,?_,.inr ⟨less,⟨n,by omega,zero⟩,by simp⟩⟩
      · intro m inside
        dsimp only
        by_cases same : m = d
        · subst m; exact .inr ⟨Function.update_self ..,not_sys⟩
        · rw [Function.update_of_ne same]; exact checked.entries m inside
      · intro t member
        rcases List.mem_append.mp member with old | new
        · exact checked.coded t old
        · rw [List.mem_singleton.mp new,filled_coded filled bound range,not_sys]; rfl
      · rw [List.append_assoc]
        exact ((occupied_clear range here).append_left _).trans checked.packets
      · dsimp only
        rw [here,checked.kernel]
        simp [kfreeSkb,Kernel.record]
    · have some_dropped : dropped ≠ [] := by
        rcases checked.verdict with ⟨_,_,full,_⟩ | ⟨_,_,nonempty⟩
        · rw [full d range] at gone; cases gone
        · exact nonempty
      have same : Function.update s.skb d none = s.skb := by rw [← gone,Function.update_eq_self]
      refine ⟨dropped,?_,checked.coded,?_,?_,.inr ⟨less,⟨n,by omega,zero⟩,some_dropped⟩⟩
      · dsimp only; rw [same]; exact checked.entries
      · dsimp only; rw [same]; exact checked.packets
      · dsimp only; rw [gone]; exact checked.kernel
  · rename_i nonzero
    refine ⟨dropped,checked.entries,checked.coded,checked.packets,checked.kernel,?_⟩
    rcases checked.verdict with ⟨full,diagonal,slots,empty⟩ | ⟨less,⟨i,before,zero⟩,nonempty⟩
    · refine .inl ⟨full,fun i before => ?_,slots,empty⟩
      by_cases here : i = n
      · subst i; exact nonzero
      · exact diagonal i (by omega)
    · exact .inr ⟨less,⟨i,by omega,zero⟩,nonempty⟩

theorem copySlots (k : Nat) (skb : Nat → Skb) (kernel : Kernel) :
    (forRange 0 k (copySlot skb) (fun _ => default,kernel)).2 = {kernel with nextSkb := kernel.nextSkb + k} ∧
      ∀ i < k, (forRange 0 k (copySlot skb) (fun _ => default,kernel)).1 i = {skb i with id := kernel.nextSkb + i} := by
  refine forRange_rule (fun n (s : (Nat → Skb) × Kernel) => s.2 = {kernel with nextSkb := kernel.nextSkb + n} ∧
    ∀ i < n, s.1 i = {skb i with id := kernel.nextSkb + i}) (Nat.zero_le k) ⟨rfl,fun i bound => by omega⟩ ?_
  rintro n ⟨_,_⟩ _ _ ⟨next,copied⟩
  subst next
  refine ⟨by simp [copySlot,skbCopy,Nat.add_assoc],?_⟩
  intro i _
  simp only [copySlot,skbCopy]
  by_cases here : i = n
  · subst i; rw [Function.update_self]
  · rw [Function.update_of_ne here]
    exact copied i (by omega)

theorem outputSlots (k len : Nat) (isSys : Nat → Bool) (newskb : Nat → Skb) (kernel : Kernel) :
    forRange 0 k (outputSlot len isSys newskb) ([],kernel) =
      (((List.range k).filter fun i => !isSys i).map fun i => (i,skbTrim (newskb i) len),
        {kernel with log := kernel.log ++ ((List.range k).filter isSys).map fun i => .freed (newskb i)}) := by
  refine forRange_rule (fun n (s : List (Nat × Skb) × Kernel) => s =
    (((List.range n).filter fun i => !isSys i).map fun i => (i,skbTrim (newskb i) len),
      {kernel with log := kernel.log ++ ((List.range n).filter isSys).map fun i => .freed (newskb i)}))
    (Nat.zero_le k) (by simp) ?_
  rintro n s _ _ rfl
  unfold outputSlot
  cases mark : isSys n <;> simp [mark,List.range_succ,kfreeSkb,Kernel.record]

-- Slot i holds skb i, and newskb i is its copy with the solved blocks written over it.
structure Solved (k p : Nat) (pkts : List Skb) (kernel : Kernel) (isSys : Nat → Bool) (skb newskb : Nat → Skb)
    (len : Nat) : Prop where
  packets : ((List.range k).map skb).Perm pkts
  index : ∀ i < k, mindex (skb i) = if isSys i then i else 0x3f
  length : len = subU32 (skb 0).len (if isSys 0 then 3 else 3 + p * p * k)
  copies : ∀ i < k, newskb i = {skb i with id := kernel.nextSkb + i,mem := (newskb i).mem}
  blocks : ∀ j < k, ∀ t < (len + p - 1) / p, ∀ z : Nat → GF,
    Solves (k * p) (field (coefficientMatrix p ((List.range k).map skb))) z
      (fun r => bytes (fillB k p (3 + p * p * k) isSys skb (t * p)) r) →
    ∀ l < p, bytes (newskb j).byte (t * p + l) = z (j * p + l)

inductive Outcome (k p : Nat) (pkts : List Skb) (kernel : Kernel) : Decoded → Prop where
  | duplicate (repeated : ¬Distinct pkts) (packets : (extra :: skbs).Perm pkts) :
      Outcome k p pkts kernel ⟨false,skbs,[],kernel.record (.freed extra)⟩
  | dependent (distinct : Distinct pkts) (singular : ¬Regular k p pkts) (nonempty : dropped ≠ [])
      (coded : ∀ t ∈ dropped, isCoded t) (packets : (dropped ++ skbs).Perm pkts) :
      Outcome k p pkts kernel ⟨false,skbs,[],{kernel with log := kernel.log ++ dropped.map .freed}⟩
  | solved (distinct : Distinct pkts) (regular : Regular k p pkts)
      (solution : Solved k p pkts kernel isSys skb newskb len) :
      Outcome k p pkts kernel ⟨true,[],((List.range k).filter fun i => !isSys i).map fun i => (i,skbTrim (newskb i) len),
        {kernel with
          nextSkb := kernel.nextSkb + k
          log := kernel.log ++ ((List.range k).filter isSys).map fun i => .freed (newskb i)}⟩

theorem lu_checked (filled : Filled k pkts slots) (bound : k ≤ 0x3f)
    (right : ∀ r < k * p, ∀ c < k * p, A r c = coefficient p slots.isSys slots.packet r c) (kernel : Kernel) :
    ((square (k * p) (field A)).det ≠ 0 ↔ Regular k p pkts) ∧
    ∃ dropped, Checked k p pkts slots (luFac (k * p) (k * p) ⟨A,fun _ _ => 0,fun _ _ => 0,id⟩) kernel (k * p) dropped
      (forRange 0 (k * p) (checkRank p (luFac (k * p) (k * p) ⟨A,fun _ _ => 0,fun _ _ => 0,id⟩))
        ⟨k * p,slots.skb,kernel⟩) := by
  have equal : square (k * p) (field A) =
      square (k * p) (field (coefficientMatrix p ((List.range k).map slots.packet))) := by
    ext r c
    simp only [square,Matrix.of_apply,field,right r r.isLt c c.isLt,coefficient_filled filled bound r.isLt c]
  have factors := luFac_factors (n := k * p) ⟨A,fun _ _ => 0,fun _ _ => 0,id⟩ rfl
  have unit : ∀ i < k * p, slots.isSys (i / p) → UnitRow (k * p) i (luFac (k * p) (k * p)
      ⟨A,fun _ _ => 0,fun _ _ => 0,id⟩) := by
    intro i small sys
    refine luFac_unit _ rfl small fun c column => ?_
    dsimp only
    rw [right i small c column]
    simp only [coefficient,sys,if_true]
  refine ⟨by rw [← regular_perm (by simp) filled.packets,Regular,equal],?_⟩
  generalize luFac (k * p) (k * p) ⟨A,fun _ _ => 0,fun _ _ => 0,id⟩ = lu at *
  have free : ∀ i < k * p, lu.u i i = 0 → lu.pivot i / p < k ∧ slots.isSys (lu.pivot i / p) = false := by
    intro i small zero
    have below := factors.permutes.below i small
    refine ⟨Nat.div_lt_of_lt_mul (by rwa [Nat.mul_comm]),?_⟩
    cases sys : slots.isSys (lu.pivot i / p) with
    | false => rfl
    | true =>
      obtain ⟨place,entries⟩ := unit _ below sys
      have here := factors.permutes.injective _ below i small place
      have one := entries _ below
      rw [here,if_pos rfl,zero] at one
      exact absurd one (by decide)
  exact forRange_rule (s := (⟨k * p,slots.skb,kernel⟩ : Rank)) (fun n s =>
      ∃ dropped, Checked k p pkts slots lu kernel n dropped s) (Nat.zero_le (k * p))
    ⟨[],fun m small => .inl (filled.full m small),by simp,by
      rw [List.nil_append,occupied_full filled.full]
      exact filled.packets,by simp,.inl ⟨rfl,fun i bound => by omega,filled.full,rfl⟩⟩
    fun n s _ small held => held.elim fun _ checked => checkRank_next filled bound free checked small

theorem solveSlots_outcome (nonempty : 0 < k) (bound : k ≤ 0x3f) (positive : 0 < p)
    (distinct : Distinct pkts) (filled : Filled k pkts slots) (kernel : Kernel) :
    ∃ d, solveSlots k p slots kernel = some d ∧ Outcome k p pkts kernel d := by
  have equal : square (k * p) (field (coefficient p slots.isSys slots.packet)) =
      square (k * p) (field (coefficientMatrix p ((List.range k).map slots.packet))) := by
    ext r c
    simp only [square,Matrix.of_apply,field,coefficient_filled filled bound r.isLt c]
  have factors := luFac_factors (n := k * p) ⟨coefficient p slots.isSys slots.packet,fun _ _ => 0,fun _ _ => 0,id⟩ rfl
  obtain ⟨regular,_,checked⟩ := lu_checked (p := p) filled bound (fun _ _ _ _ => rfl) kernel
  unfold solveSlots
  dsimp only at factors regular ⊢
  generalize luFac (k * p) (k * p) ⟨coefficient p slots.isSys slots.packet,fun _ _ => 0,fun _ _ => 0,id⟩ = lu at *
  generalize forRange 0 (k * p) (checkRank p lu) ⟨k * p,slots.skb,kernel⟩ = rank at *
  rcases checked.verdict with ⟨_,nonzero,_,empty⟩ | ⟨_,⟨i,small,zero⟩,some_dropped⟩
  · have invertible := factors.regular.mpr fun i small zero => nonzero i small (field_zero.mp zero)
    have unchanged : rank.kernel = kernel := by rw [checked.kernel,empty]; simp
    obtain ⟨after,copied⟩ := copySlots k slots.packet kernel
    rw [if_neg (by omega),unchanged]
    generalize forRange 0 k (copySlot slots.packet) (fun _ => default,kernel) = copies at *
    obtain ⟨newskb,_⟩ := copies
    dsimp only at after copied
    subst after
    obtain ⟨final,solved,content⟩ := skbSubsti_solves factors invertible positive slots.packet newskb
      (subU32 (newskb 0).len (if slots.isSys 0 then 3 else 3 + p * p * k)) (3 + p * p * k) slots.isSys
    have solution : Solved k p pkts kernel slots.isSys slots.packet final
        (subU32 (newskb 0).len (if slots.isSys 0 then 3 else 3 + p * p * k)) := by
      refine ⟨filled.packets,filled.index,by rw [copied 0 nonempty],?_,?_⟩
      · intro i small
        refine (content i).1.trans ?_
        rw [copied i small]
      · intro j small t inside z solves
        refine (content j).2 small t inside z ?_
        rw [solves_mulVec] at solves ⊢
        rw [equal]
        exact solves
    rw [solved]
    dsimp only
    rw [outputSlots,filled.skbs]
    exact ⟨_,rfl,.solved distinct (regular.mp invertible) solution⟩
  · have singular : ¬Regular k p pkts := by
      rw [← regular,factors.regular]
      exact fun all => all i small (field_zero.mpr zero)
    rw [if_pos (by omega)]
    refine ⟨_,rfl,?_⟩
    rw [checked.kernel,filled.skbs,List.nil_append]
    exact .dependent distinct singular some_dropped checked.coded checked.packets

theorem kp_bound (kp : UInt8) : (kp >>> 2).toNat ≤ 0x3f := by
  have low := kp.toNat_lt
  rw [UInt8.toNat_shiftRight,Nat.shiftRight_eq_div_pow]
  have : (2 : UInt8).toNat % 8 = 2 := rfl
  rw [this]
  omega

theorem skbsDecoding_outcome (kp : UInt8) (generates : Generates (kp >>> 2).toNat pkts) (nonempty : 0 < (kp >>> 2).toNat)
    (positive : 0 < (kp &&& 0x3).toNat) (kernel : Kernel) :
    ∃ d, skbsDecoding pkts kp kernel = some d ∧ Outcome (kp >>> 2).toNat (kp &&& 0x3).toNat pkts kernel d := by
  obtain ⟨left,ended⟩ := placement generates
  unfold skbsDecoding
  dsimp only
  cases ran : forTry 0 (kp >>> 2).toNat (fun _ => placeSystematic (kp >>> 2).toNat)
      ⟨pkts,fun _ => false,fun _ => none⟩ with
  | error stop =>
    have repeated := left stop ran
    cases stop with
    | null => exact repeated.elim
    | duplicate => exact ⟨_,rfl,.duplicate repeated.1 repeated.2⟩
  | ok slots =>
    obtain ⟨distinct,filled⟩ := ended slots ran
    have full : ((List.range (kp >>> 2).toNat).any fun i =>
        ((forRange 0 (kp >>> 2).toNat fillCoded slots).skb i).isNone) = false := by
      rw [List.any_eq_false]
      intro i member
      rw [filled.full i (List.mem_range.mp member)]
      simp
    dsimp only
    rw [full,if_neg (by decide)]
    exact solveSlots_outcome nonempty (kp_bound kp) positive distinct filled kernel

end Mac80211.MncRx

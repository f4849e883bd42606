import Mac80211.LuFacOrder
import Mac80211.MncInvariant

namespace Mac80211.MncRx
open Gf Loops LinearSystems RowSelection LuFac
open List (mem_range mem_filterMap)

def packetRows (k p : Nat) (pkts : List Skb) : Set (Fin (k * p) → GF) :=
  {v | ∃ s ∈ pkts, ∃ m < p, v = fun c => ⟨coefficientRow p s m c⟩}

noncomputable def rowSpace (k p : Nat) (pkts : List Skb) : Submodule GF (Fin (k * p) → GF) :=
  Submodule.span GF (packetRows k p pkts)

-- The systematic one of that index, or else the next coded one.
def freeBelow (pkts : List Skb) (i : Nat) : Nat := ((List.range i).filter fun j => pkts.all fun s => mindex s != j).length

def slotOf (pkts : List Skb) (i : Nat) : Skb :=
  (pkts.find? fun s => mindex s == i).getD ((pkts.filter isCoded).getD (freeBelow pkts i) default)

def slotRow (k p : Nat) (pkts : List Skb) (r : Nat) : Fin (k * p) → GF :=
  fun c => ⟨coefficientRow p (slotOf pkts (r / p)) (r % p) c⟩

-- In each column the first row left that is no combination of those taken before up to there; none is taken
-- in a column that has none.
noncomputable def taking (k p : Nat) (pkts : List Skb) : Selection :=
  select (firstColumns (k * p)) (slotRow k p pkts) (k * p)

structure Spared (k p : Nat) (pkts : List Skb) : Prop where
  redundant : ∀ i < k * p, i ∉ (taking k p pkts).taken → slotRow k p pkts ((taking k p pkts).place i) ∈
    Submodule.span GF ((fun t => slotRow k p pkts ((taking k p pkts).place t)) '' (taking k p pkts).taken)
  apart : ∀ i < k * p, i ∉ (taking k p pkts).taken → ∀ t ∈ (taking k p pkts).taken,
    (taking k p pkts).place t / p ≠ (taking k p pkts).place i / p

theorem rowSpace_perm (order : xs.Perm ys) (k p : Nat) : rowSpace k p xs = rowSpace k p ys := by
  have same : packetRows k p xs = packetRows k p ys := by
    ext v
    exact exists_congr fun s => and_congr_left fun _ => order.mem_iff
  rw [rowSpace,same,rowSpace]

theorem rowSpace_twin (member : t ∈ skbs) (same : mindex t = mindex extra) (plain : mindex extra ≠ 0x3f) (k p : Nat) :
    rowSpace k p (extra :: skbs) = rowSpace k p skbs := by
  have rows : packetRows k p (extra :: skbs) = packetRows k p skbs := by
    ext v
    constructor
    · rintro ⟨s,here,m,row,rfl⟩
      rcases List.mem_cons.mp here with rfl | other
      · refine ⟨t,member,m,row,?_⟩
        have one : isCoded s = false := by simp [isCoded,plain]
        have two : isCoded t = false := by simp [isCoded,same,plain]
        funext c
        simp only [coefficientRow,one,two,same]
        rfl
      · exact ⟨s,other,m,row,rfl⟩
    · rintro ⟨s,here,m,row,rfl⟩
      exact ⟨s,List.mem_cons_of_mem _ here,m,row,rfl⟩
  rw [rowSpace,rows,rowSpace]

theorem packetRows_slots {keep : Nat → Prop} (positive : 0 < p)
    (members : ∀ s, s ∈ list ↔ ∃ m < k, keep m ∧ s = slotOf pkts m) :
    packetRows k p list = slotRow k p pkts '' {r | r < k * p ∧ keep (r / p)} := by
  ext v
  constructor
  · rintro ⟨s,here,m,row,rfl⟩
    obtain ⟨i,small,kept,rfl⟩ := (members s).mp here
    have parts := block_parts row i
    refine ⟨i * p + m,⟨MncTx.position_lt small row,by rwa [parts.1]⟩,?_⟩
    funext c
    simp only [slotRow,parts.1,parts.2]
  · rintro ⟨r,⟨_,kept⟩,rfl⟩
    have block : r / p < k := Nat.div_lt_of_lt_mul (by rwa [Nat.mul_comm])
    exact ⟨_,(members _).mpr ⟨r / p,block,kept,rfl⟩,r % p,Nat.mod_lt r positive,rfl⟩

section Slots


theorem placed_slot (generates : Generates k pkts) (bound : k ≤ 0x3f) (placed : Placed k pkts k s) (small : m < k) :
    s.skb m = pkts.find? fun t => mindex t == m := by
  have all : pkts.take k = pkts := List.take_of_length_le (by rw [generates.count])
  have distinct := placed_distinct placed
  have slots := placed.slots
  rw [all] at distinct slots
  have occupied_mem : ∀ t, t ∈ occupied k s.skb ↔ t ∈ pkts ∧ isCoded t = false := by
    intro t
    rw [slots.mem_iff,List.mem_filter]
    simp
  have slot_mem : ∀ t, s.skb m = some t → t ∈ pkts ∧ mindex t = m := by
    intro t here
    have member : t ∈ occupied k s.skb := mem_filterMap.mpr ⟨m,mem_range.mpr small,here⟩
    exact ⟨((occupied_mem t).mp member).1,(placed.owned m t here).1⟩
  cases search : pkts.find? fun t => mindex t == m with
  | none =>
    rw [Option.eq_none_iff_forall_ne_some]
    intro t here
    obtain ⟨member,index⟩ := slot_mem t here
    have none_there := List.find?_eq_none.mp search t member
    simp [index] at none_there
  | some u =>
    have member := List.mem_of_find?_eq_some search
    have index : mindex u = m := by simpa using List.find?_some search
    have plain : isCoded u = false := by
      have other : mindex u ≠ 0x3f := by omega
      simp [isCoded,other]
    obtain ⟨j,_,there⟩ := mem_filterMap.mp ((occupied_mem u).mpr ⟨member,plain⟩)
    have place := (placed.owned j u there).1
    rwa [← place,index] at there

theorem filled_slot (generates : Generates k pkts) (bound : k ≤ 0x3f) (placed : Placed k pkts k s) (small : m < k) :
    (forRange 0 k fillCoded s).packet m = slotOf pkts m := by
  have skbs := placed.skbs
  rw [List.take_of_length_le (by rw [generates.count]),List.drop_of_length_le (by rw [generates.count]),List.nil_append] at skbs
  have mark : ∀ j < k, s.isSys j = !pkts.all fun t => mindex t != j := by
    intro j inside
    rw [placed.isSys,placed_slot generates bound placed inside,Bool.eq_iff_iff,List.find?_isSome]
    simp
  have filled := @forRange_rule _ 0 k s fillCoded (fun n t => t.isSys = s.isSys ∧
      t.skbs = (pkts.filter isCoded).drop (freeBelow pkts n) ∧
      (∀ m < k, s.isSys m = true → t.skb m = s.skb m) ∧
      ∀ m < n, s.isSys m = false → t.skb m = (pkts.filter isCoded)[freeBelow pkts m]?) (Nat.zero_le k)
    ⟨rfl,by rw [skbs]; rfl,fun _ _ _ => rfl,fun m bound => absurd bound (Nat.not_lt_zero m)⟩ (by
      rintro n t _ inside ⟨marks,rest,kept,coded⟩
      have count : freeBelow pkts (n + 1) = freeBelow pkts n + if s.isSys n then 0 else 1 := by
        rw [mark n inside]
        simp only [freeBelow,List.range_succ,List.filter_append,List.length_append]
        cases free : pkts.all fun s => mindex s != n <;> simp [free]
      unfold fillCoded
      rw [marks]
      cases here : s.isSys n with
      | true =>
        rw [here,if_pos rfl,Nat.add_zero] at count
        rw [if_pos rfl,count]
        refine ⟨marks,rest,kept,fun m below free => coded m ?_ free⟩
        by_contra last
        rw [show m = n by omega,here] at free
        cases free
      | false =>
        rw [here,if_neg (by decide)] at count
        rw [if_neg (by decide),count]
        refine ⟨rfl,?_,fun m below sys => ?_,fun m below free => ?_⟩
        · rw [rest,List.tail_drop]
        · dsimp only
          rw [Function.update_of_ne (by rintro rfl; rw [here] at sys; cases sys)]
          exact kept m below sys
        · dsimp only
          by_cases last : m = n
          · rw [last,Function.update_self,rest,List.head?_drop]
          · rw [Function.update_of_ne last]
            exact coded m (by omega) free)
  obtain ⟨_,_,kept,coded⟩ := filled
  rw [Slots.packet,slotOf]
  cases here : s.isSys m with
  | true =>
    have found : (s.skb m).isSome := by rw [← placed.isSys,here]
    rw [kept m small here,placed_slot generates bound placed small]
    rw [placed_slot generates bound placed small] at found
    obtain ⟨t,there⟩ := Option.isSome_iff_exists.mp found
    rw [there]
    rfl
  | false =>
    have missing : s.skb m = none := by
      have empty := placed.isSys m
      rw [here] at empty
      simpa using empty.symm
    rw [coded m small here]
    rw [placed_slot generates bound placed small] at missing
    rw [missing,Option.getD_none,List.getD_eq_getElem?_getD]

end Slots

theorem rank_slots (p : Nat) (lu : LuFac.State) (n : Nat) (s : Rank) :
    ∀ m, ((∃ j < n, lu.u j j = 0 ∧ lu.pivot j / p = m) → (forRange 0 n (checkRank p lu) s).skb m = none) ∧
      ((∀ j < n, lu.u j j = 0 → lu.pivot j / p ≠ m) → (forRange 0 n (checkRank p lu) s).skb m = s.skb m) := by
  refine forRange_rule (fun i (t : Rank) => ∀ m, ((∃ j < i, lu.u j j = 0 ∧ lu.pivot j / p = m) → t.skb m = none) ∧
    ((∀ j < i, lu.u j j = 0 → lu.pivot j / p ≠ m) → t.skb m = s.skb m)) (Nat.zero_le n) ?_ ?_
  · exact fun m => ⟨fun ⟨j,below,_⟩ => absurd below (Nat.not_lt_zero j),fun _ => rfl⟩
  intro i t _ _ known m
  obtain ⟨gone,kept⟩ := known m
  unfold checkRank
  split
  · rename_i zero
    dsimp only
    by_cases here : lu.pivot i / p = m
    · rw [here,Function.update_self]
      exact ⟨fun _ => rfl,fun apart => absurd here (apart i (by omega) zero)⟩
    · rw [Function.update_of_ne (Ne.symm here)]
      refine ⟨fun ⟨j,below,null,same⟩ => gone ⟨j,?_,null,same⟩,fun apart => kept fun j below => apart j (by omega)⟩
      by_contra last
      exact here (by rw [← same,show j = i by omega])
  · rename_i nonzero
    refine ⟨fun ⟨j,below,null,same⟩ => gone ⟨j,?_,null,same⟩,fun apart => kept fun j below => apart j (by omega)⟩
    by_contra last
    exact nonzero (by rw [← null,show j = i by omega])

section Pruned

variable {pkts : List Skb} {slots : Slots}

theorem pruned_members (arranged : ∀ m < k, slots.skb m = some (slotOf pkts m)) (lu : LuFac.State) (kernel : Kernel) (s : Skb) :
    s ∈ occupied k (forRange 0 (k * p) (checkRank p lu) ⟨k * p,slots.skb,kernel⟩).skb ↔
      ∃ m < k, (∀ j < k * p, lu.u j j = 0 → lu.pivot j / p ≠ m) ∧ s = slotOf pkts m := by
  have final := rank_slots p lu (k * p) ⟨k * p,slots.skb,kernel⟩
  rw [occupied,mem_filterMap]
  constructor
  · rintro ⟨m,member,here⟩
    have small := mem_range.mp member
    have kept : ∀ j < k * p, lu.u j j = 0 → lu.pivot j / p ≠ m := by
      intro j below zero same
      rw [(final m).1 ⟨j,below,zero,same⟩] at here
      cases here
    have same := ((final m).2 kept).symm.trans here
    exact ⟨m,small,kept,(Option.some.inj ((arranged m small).symm.trans same)).symm⟩
  · rintro ⟨m,small,kept,rfl⟩
    refine ⟨m,mem_range.mpr small,?_⟩
    rw [(final m).2 kept]
    exact arranged m small

theorem pruned_span (positive : 0 < p)
    (follows : Follows A (k * p) (k * p) lu (taking k p pkts))
    (members : ∀ s, s ∈ list ↔ ∃ m < k, (∀ j < k * p, lu.u j j = 0 → lu.pivot j / p ≠ m) ∧ s = slotOf pkts m)
    (packets : ∀ s, s ∈ pkts ↔ ∃ m < k, s = slotOf pkts m) :
    rowSpace k p list = rowSpace k p pkts ↔ Spared k p pkts := by
  have sound : RowSelection.Sound (K := GF) (slotRow k p pkts) (k * p) (k * p) (taking k p pkts) := select_sound _ _ _
  have members_all : ∀ s, s ∈ pkts ↔ ∃ m < k, True ∧ s = slotOf pkts m := fun s => by
    rw [packets]
    exact exists_congr fun m => and_congr_right fun _ => ⟨fun same => ⟨trivial,same⟩,fun known => known.2⟩
  have by_place : ∀ keep : Nat → Prop, slotRow k p pkts '' {r | r < k * p ∧ keep (r / p)} =
      (fun i => slotRow k p pkts ((taking k p pkts).place i)) '' {i | i < k * p ∧ keep ((taking k p pkts).place i / p)} := by
    intro _
    ext v
    constructor
    · rintro ⟨r,⟨small,kept⟩,rfl⟩
      obtain ⟨i,image⟩ := sound.permutes.bijective.2 ⟨r,small⟩
      have image : (taking k p pkts).place i = r := Fin.mk.inj image
      exact ⟨i,⟨i.isLt,by rwa [image]⟩,by dsimp only; rw [image]⟩
    · rintro ⟨i,⟨small,kept⟩,rfl⟩
      exact ⟨_,⟨sound.permutes.below i small,kept⟩,rfl⟩
  have passed : ∀ i < k * p, i ∉ (taking k p pkts).taken ↔ lu.u i i = 0 := fun i small => by
    rw [follows.taken]
    constructor
    · intro other
      by_contra nonzero
      exact other ⟨small,nonzero⟩
    · exact fun zero known => known.2 zero
  have left : packetRows k p list = _ :=
    (packetRows_slots positive members).trans (by_place fun m => ∀ j < k * p, lu.u j j = 0 → lu.pivot j / p ≠ m)
  have right : packetRows k p pkts = _ := (packetRows_slots positive members_all).trans (by_place fun _ => True)
  rw [rowSpace,rowSpace,left,right]
  refine (span_kept sound.independent ?_ ?_).trans ?_
  · rintro i ⟨small,kept⟩
    by_contra other
    exact kept i small ((passed i small).mp other) (by rw [follows.place])
  · exact fun t known => ⟨sound.early t known,trivial⟩
  constructor
  · rintro ⟨all,others⟩
    refine ⟨fun i small other => others i ⟨small,trivial⟩ other,fun i small other t known => ?_⟩
    rw [← all] at known
    have apart := known.2 i small ((passed i small).mp other)
    rw [follows.place] at apart
    exact Ne.symm apart
  · intro spared
    refine ⟨Set.Subset.antisymm ?_ ?_,fun i small other => spared.redundant i small.1 other⟩
    · rintro i ⟨small,kept⟩
      by_contra other
      exact kept i small ((passed i small).mp other) (by rw [follows.place])
    · intro t known
      refine ⟨sound.early t known,fun j small zero => ?_⟩
      rw [follows.place]
      exact Ne.symm (spared.apart j small ((passed j small).mpr zero) t known)

end Pruned

theorem placing (generates : Generates k pkts) :
    (∀ s, forTry 0 k (fun _ => placeSystematic k) ⟨pkts,fun _ => false,fun _ => none⟩ = .ok s → Placed k pkts k s) ∧
    ∀ e, forTry 0 k (fun _ => placeSystematic k) ⟨pkts,fun _ => false,fun _ => none⟩ = .error e →
      ∀ skbs extra, e = .duplicate skbs extra → ∃ t ∈ skbs, mindex t = mindex extra ∧ mindex extra ≠ 0x3f := by
  have start : Placed k pkts 0 ⟨pkts,fun _ => false,fun _ => none⟩ :=
    ⟨by simp,fun _ => rfl,fun _ _ here => (nomatch here),by simp [occupied]⟩
  refine forTry_rule (fun n s => Placed k pkts n s)
    (fun e : Stop => ∀ skbs extra, e = .duplicate skbs extra → ∃ t ∈ skbs, mindex t = mindex extra ∧ mindex extra ≠ 0x3f)
    (Nat.zero_le k) start ?_
  intro n s _ small placed
  have inside : n < pkts.length := by rw [generates.count]; exact small
  refine ⟨(placed_next inside (generates.index _ (List.getElem_mem inside)) placed).1,?_⟩
  rintro e stopped _ _ rfl
  unfold placeSystematic at stopped
  split at stopped
  · cases stopped
  split at stopped
  · rename_i plain
    split at stopped
    · rename_i taken
      cases stopped
      rw [placed.isSys] at taken
      obtain ⟨t,here⟩ := Option.isSome_iff_exists.mp taken
      obtain ⟨index,below⟩ := placed.owned _ t here
      exact ⟨t,List.mem_append_right _ (mem_filterMap.mpr ⟨_,mem_range.mpr below,here⟩),index,plain⟩
    · cases stopped
  · cases stopped

theorem singular_positive (singular : ¬Regular k p pkts) : 0 < k * p := by
  by_contra zero
  have none_left : k * p = 0 := by omega
  refine singular ?_
  rw [Regular,none_left,Matrix.det_fin_zero]
  exact one_ne_zero

theorem solveSlots_pruned (bound : k ≤ 0x3f) (positive : 0 < p) (filled : Filled k pkts slots)
    (slot : ∀ m < k, slots.packet m = slotOf pkts m) (singular : ¬Regular k p pkts) (kernel : Kernel) :
    ∃ d, solveSlots k p slots kernel = some d ∧ d.ok = false ∧ (rowSpace k p d.skbs = rowSpace k p pkts ↔ Spared k p pkts) := by
  have arranged : ∀ m < k, slots.skb m = some (slotOf pkts m) := fun m small => by
    rw [filled.full m small,slot m small]
  have packets : ∀ s, s ∈ pkts ↔ ∃ m < k, s = slotOf pkts m := by
    intro s
    rw [← filled.packets.mem_iff,List.mem_map]
    constructor
    · rintro ⟨m,member,rfl⟩
      exact ⟨m,mem_range.mp member,slot m (mem_range.mp member)⟩
    · rintro ⟨m,small,rfl⟩
      exact ⟨m,mem_range.mpr small,slot m small⟩
  have rows : ∀ r < k * p, slotRow k p pkts r = fun c : Fin (k * p) => field (coefficient p slots.isSys slots.packet) r c := by
    intro r small
    funext c
    have block : r / p < ((List.range k).map slots.packet).length := by
      rw [List.length_map,List.length_range]
      exact Nat.div_lt_of_lt_mul (by rwa [Nat.mul_comm])
    have here := coefficientMatrix_row block (Nat.mod_lt r positive) c
    rw [List.length_map,List.length_range] at block
    rw [Nat.div_add_mod',List.getElem_map,List.getElem_range,slot _ block] at here
    rw [slotRow,field,coefficient_filled filled bound small,here]
  have follows := luFac_follows ⟨coefficient p slots.isSys slots.packet,fun _ _ => 0,fun _ _ => 0,id⟩ rfl
    (slotRow k p pkts) rows
  have factors := luFac_factors (n := k * p) ⟨coefficient p slots.isSys slots.packet,fun _ _ => 0,fun _ _ => 0,id⟩ rfl
  obtain ⟨regular,_,checked⟩ := lu_checked (p := p) filled bound (fun _ _ _ _ => rfl) kernel
  rw [← regular,factors.regular] at singular
  have members := pruned_members (p := p) arranged
    (luFac (k * p) (k * p) ⟨coefficient p slots.isSys slots.packet,fun _ _ => 0,fun _ _ => 0,id⟩) kernel
  unfold solveSlots
  dsimp only
  generalize luFac (k * p) (k * p) ⟨coefficient p slots.isSys slots.packet,fun _ _ => 0,fun _ _ => 0,id⟩ = lu at *
  generalize forRange 0 (k * p) (checkRank p lu) ⟨k * p,slots.skb,kernel⟩ = rank at *
  rcases checked.verdict with ⟨_,nonzero,_,_⟩ | ⟨_,_,_⟩
  · exact absurd (fun i small zero => nonzero i small (field_zero.mp zero)) singular
  · rw [if_pos (by omega)]
    refine ⟨_,rfl,rfl,?_⟩
    rw [filled.skbs,List.nil_append]
    exact pruned_span positive follows members packets

theorem pruning_keeps (kp : UInt8) (generates : Generates (kOf kp) pkts) (singular : ¬Regular (kOf kp) (pOf kp) pkts)
    (kernel : Kernel) : ∃ d, skbsDecoding pkts kp kernel = some d ∧ d.ok = false ∧
      (rowSpace (kOf kp) (pOf kp) d.skbs = rowSpace (kOf kp) (pOf kp) pkts ↔
        (Distinct pkts → Spared (kOf kp) (pOf kp) pkts)) := by
  have positive : 0 < pOf kp := Nat.pos_of_mul_pos_left (singular_positive singular)
  have bound : kOf kp ≤ 0x3f := kp_bound kp
  obtain ⟨left,ended⟩ := placement generates
  obtain ⟨placed,twins⟩ := placing generates
  unfold skbsDecoding
  dsimp only
  cases ran : forTry 0 (kOf kp) (fun _ => placeSystematic (kOf kp)) ⟨pkts,fun _ => false,fun _ => none⟩ with
  | error stop =>
    have repeated := left stop ran
    cases stop with
    | null => exact repeated.elim
    | duplicate skbs extra =>
      obtain ⟨t,member,same,plain⟩ := twins _ ran skbs extra rfl
      refine ⟨_,rfl,rfl,fun _ distinct => absurd distinct repeated.1,fun _ => ?_⟩
      rw [← rowSpace_perm repeated.2,rowSpace_twin member same plain]
  | ok s =>
    obtain ⟨distinct,filled⟩ := ended s ran
    have full : ((List.range (kOf kp)).any fun i => ((forRange 0 (kOf kp) fillCoded s).skb i).isNone) = false := by
      rw [List.any_eq_false]
      intro i member
      rw [filled.full i (mem_range.mp member)]
      simp
    obtain ⟨d,solved,failed,kept⟩ := solveSlots_pruned bound positive filled
      (fun m small => filled_slot generates bound (placed s ran) small) singular kernel
    dsimp only
    rw [full,if_neg (by decide)]
    exact ⟨d,solved,failed,kept.trans ⟨fun spared _ => spared,fun spared => spared distinct⟩⟩

namespace PruningSample

def packet : Skb := {(default : Skb) with
  mem := fun a => [0x06,7,0xfc,0,1,0,0].getD a 0
  len := 9}
def kernel : Kernel := ⟨0,fun _ => 0,0,[]⟩

theorem generates : Generates (kOf 0x06) [packet] := ⟨rfl,by decide⟩

theorem singular : ¬Regular (kOf 0x06) (pOf 0x06) [packet] := by
  have det : (square 2 (field (coefficientMatrix 2 [packet]))).det = 0 := by
    decide
  exact fun regular => regular det

end PruningSample

open PruningSample in
theorem pruning_keeps_sample : ∃ d, skbsDecoding [packet] 0x06 kernel = some d ∧ d.ok = false ∧
    (rowSpace 1 2 d.skbs = rowSpace 1 2 [packet] ↔ (Distinct [packet] → Spared 1 2 [packet])) :=
  pruning_keeps 0x06 generates singular kernel

open PruningSample in
theorem pruning_loses : Generates (kOf 0x06) [packet] ∧ ¬Regular (kOf 0x06) (pOf 0x06) [packet] ∧
    ∃ d, skbsDecoding [packet] 0x06 kernel = some d ∧ rowSpace 1 2 d.skbs ≠ rowSpace 1 2 [packet] := by
  have left : (skbsDecoding [packet] 0x06 kernel).map (fun d => d.skbs.length) = some 0 := by decide +kernel
  obtain ⟨d,decoded,count⟩ := Option.map_eq_some_iff.mp left
  refine ⟨generates,singular,d,decoded,fun same => ?_⟩
  have row : (fun c : Fin (1 * 2) => (⟨coefficientRow 2 packet 0 c⟩ : GF)) ∈ rowSpace 1 2 [packet] :=
    Submodule.subset_span ⟨packet,List.mem_singleton_self _,0,by decide,rfl⟩
  have nothing : packetRows 1 2 [] = ∅ := by
    ext v
    simp [packetRows]
  rw [← same,List.length_eq_zero_iff.mp count,rowSpace,nothing,Submodule.span_empty,Submodule.mem_bot] at row
  exact absurd (congrFun row 1) (by decide)

end Mac80211.MncRx

import Mac80211.MncDecode

namespace Mac80211.MncRx
open Loops
open Function (update update_eq_self update_idem update_of_ne update_self)
open List (mem_range filter_append filter_nil mem_filter append_nil)

def isCoded (s : Skb) : Bool := mindex s == 0x3f

structure Generates (k : Nat) (pkts : List Skb) : Prop where
  count : pkts.length = k
  index : ∀ s ∈ pkts, mindex s < k ∨ mindex s = 0x3f

def Distinct (pkts : List Skb) : Prop := ((pkts.filter fun s => !isCoded s).map mindex).Nodup

instance (pkts : List Skb) : Decidable (Distinct pkts) := inferInstanceAs (Decidable (List.Nodup _))

theorem occupied_split (small : m < k) (skb : Nat → Option Skb) :
    (occupied k skb).Perm ((skb m).toList ++ occupied k (update skb m none)) := by
  have order : (List.range k).Perm (m :: (List.range k).erase m) := List.perm_cons_erase (mem_range.mpr small)
  have rest : ((List.range k).erase m).filterMap (update skb m none) = ((List.range k).erase m).filterMap skb := by
    refine List.filterMap_congr fun i member => ?_
    rw [update_of_ne (List.nodup_range.mem_erase_iff.mp member).1]
  have before := order.filterMap skb
  have after := order.filterMap (update skb m none)
  rw [List.filterMap_cons_none (update_self ..),rest] at after
  refine (before.trans ?_).trans (after.symm.append_left _)
  cases here : skb m with
  | none => rw [List.filterMap_cons_none here]; exact List.Perm.refl _
  | some => rw [List.filterMap_cons_some here]; exact List.Perm.refl _

theorem occupied_fill (small : m < k) (empty : skb m = none) (s : Skb) :
    (occupied k (update skb m (some s))).Perm (s :: occupied k skb) := by
  have split := occupied_split small (update skb m (some s))
  rw [update_self,update_idem,← empty,update_eq_self] at split
  exact split

theorem occupied_clear (small : m < k) (full : skb m = some s) :
    (s :: occupied k (update skb m none)).Perm (occupied k skb) := by
  have split := occupied_split small skb
  rw [full] at split
  exact split.symm

theorem occupied_nodup (owned : ∀ m s, skb m = some s → mindex s = m) : ((occupied k skb).map mindex).Nodup := by
  rw [occupied,List.map_filterMap]
  refine List.nodup_range.filterMap ?_
  intro i j m left right
  obtain ⟨s,here,rfl⟩ := Option.map_eq_some_iff.mp left
  obtain ⟨t,there,same⟩ := Option.map_eq_some_iff.mp right
  rw [← owned i s here,← owned j t there,same]

-- The packets not yet seen are in front of the coded ones, each systematic one is in its slot.
structure Placed (k : Nat) (pkts : List Skb) (n : Nat) (s : Slots) : Prop where
  skbs : s.skbs = pkts.drop n ++ (pkts.take n).filter isCoded
  isSys : ∀ m, s.isSys m = (s.skb m).isSome
  owned : ∀ m t, s.skb m = some t → mindex t = m ∧ m < k
  slots : (occupied k s.skb).Perm ((pkts.take n).filter fun t => !isCoded t)

def Repeated (pkts : List Skb) : Stop → Prop
  | .null => False
  | .duplicate skbs extra => ¬Distinct pkts ∧ (extra :: skbs).Perm pkts

theorem split_coded (pkts : List Skb) : (pkts.filter isCoded ++ pkts.filter fun t => !isCoded t).Perm pkts :=
  List.filter_append_perm isCoded pkts

theorem distinct_sublist (shorter : List.Sublist xs ys) (distinct : Distinct ys) : Distinct xs :=
  distinct.sublist ((shorter.filter _).map _)

theorem repeated_index {pkts : List Skb} (small : n < pkts.length) (systematic : isCoded pkts[n] = false) (earlier : t ∈ pkts.take n)
    (other : isCoded t = false) (same : mindex t = mindex pkts[n]) : ¬Distinct (pkts.take (n + 1)) := by
  intro none_twice
  rw [Distinct,List.take_succ_eq_append_getElem small,filter_append,List.map_append] at none_twice
  have apart := List.disjoint_of_nodup_append none_twice
  have left : mindex t ∈ ((pkts.take n).filter fun s => !isCoded s).map mindex :=
    List.mem_map_of_mem (mem_filter.mpr ⟨earlier,by simp [other]⟩)
  exact apart left (by simp [systematic,same])

theorem placed_next (inside : n < pkts.length) (index : mindex pkts[n] < k ∨ mindex pkts[n] = 0x3f)
    (placed : Placed k pkts n s) :
    (∀ t, placeSystematic k s = .ok t → Placed k pkts (n + 1) t) ∧
      ∀ e, placeSystematic k s = .error e → Repeated pkts e ∧ ¬Distinct (pkts.take (n + 1)) := by
  have queue : s.skbs = pkts[n] :: (pkts.drop (n + 1) ++ (pkts.take n).filter isCoded) := by
    rw [placed.skbs,List.drop_eq_getElem_cons inside,List.cons_append]
  have taken := List.take_succ_eq_append_getElem inside
  unfold placeSystematic
  rw [queue]
  dsimp only
  by_cases coded : mindex pkts[n] = 0x3f
  · have mark : isCoded pkts[n] = true := by simp [isCoded,coded]
    rw [if_neg (not_not.mpr coded)]
    refine ⟨?_,fun e stopped => by cases stopped⟩
    rintro t next
    cases next
    refine ⟨?_,placed.isSys,placed.owned,?_⟩
    · rw [taken,filter_append,List.filter_cons_of_pos mark,filter_nil,List.append_assoc]
    · rw [taken,filter_append,List.filter_cons_of_neg (by simp [mark]),filter_nil,append_nil]
      exact placed.slots
  have mark : isCoded pkts[n] = false := by simp [isCoded,coded]
  have range : mindex pkts[n] < k := index.resolve_right coded
  rw [if_pos coded]
  split
  · rename_i occupied_slot
    refine ⟨fun t next => (by cases next),?_⟩
    rintro e stopped
    cases stopped
    rw [placed.isSys] at occupied_slot
    obtain ⟨t,here⟩ := Option.isSome_iff_exists.mp occupied_slot
    have member : t ∈ occupied k s.skb := List.mem_filterMap.mpr ⟨_,mem_range.mpr range,here⟩
    obtain ⟨early,systematic⟩ := mem_filter.mp (placed.slots.mem_iff.mp member)
    have twice := repeated_index inside mark early (by simpa using systematic) (placed.owned _ _ here).1
    refine ⟨⟨fun distinct => twice (distinct_sublist (List.take_sublist _ _) distinct),?_⟩,twice⟩
    calc (pkts[n] :: (pkts.drop (n + 1) ++ (pkts.take n).filter isCoded ++ occupied k s.skb)).Perm
          (pkts.drop n ++ ((pkts.take n).filter isCoded ++ (pkts.take n).filter fun t => !isCoded t)) := by
          rw [List.drop_eq_getElem_cons inside,List.cons_append,List.append_assoc]
          exact ((placed.slots.append_left _).append_left _).cons _
      _ |>.Perm (pkts.drop n ++ pkts.take n) := (split_coded _).append_left _
      _ |>.Perm pkts := by
          have joined : (pkts.drop n ++ pkts.take n).Perm (pkts.take n ++ pkts.drop n) := List.perm_append_comm
          rwa [List.take_append_drop] at joined
  rename_i free_slot
  refine ⟨?_,fun e stopped => by cases stopped⟩
  rintro t next
  cases next
  have empty : s.skb (mindex pkts[n]) = none := by
    rw [placed.isSys] at free_slot
    simpa using free_slot
  refine ⟨?_,?_,?_,?_⟩
  · rw [taken,filter_append,List.filter_cons_of_neg (by simp [mark]),filter_nil,append_nil]
  · intro m
    dsimp only
    by_cases here : m = mindex pkts[n]
    · subst m; simp
    · rw [update_of_ne here,update_of_ne here,placed.isSys]
  · intro m t
    dsimp only
    by_cases here : m = mindex pkts[n]
    · subst m
      rw [update_self]
      rintro found
      cases found
      exact ⟨rfl,range⟩
    · rw [update_of_ne here]
      exact placed.owned m t
  · rw [taken,filter_append]
    simp only [mark,List.filter_cons,Bool.not_false,if_true,filter_nil]
    exact (occupied_fill range empty _).trans ((placed.slots.cons _).trans (List.perm_append_singleton _ _).symm)

theorem placed_distinct (placed : Placed k pkts n s) : Distinct (pkts.take n) :=
  (placed.slots.map mindex).nodup_iff.mp (occupied_nodup fun m t here => (placed.owned m t here).1)

theorem occupied_short (small : m < k) (empty : skb m = none) : (occupied k skb).length < k := by
  have order : (List.range k).Perm (m :: (List.range k).erase m) := List.perm_cons_erase (mem_range.mpr small)
  have before := order.filterMap skb
  rw [List.filterMap_cons_none empty] at before
  have bound := List.length_filterMap_le skb ((List.range k).erase m)
  rw [List.length_erase_of_mem (mem_range.mpr small),List.length_range] at bound
  have count : (occupied k skb).length = _ := before.length_eq
  omega

theorem occupied_full (full : ∀ m < k, skb m = some (f m)) : occupied k skb = (List.range k).map f := by
  rw [occupied,← List.filterMap_eq_map]
  exact List.filterMap_congr fun m member => full m (mem_range.mp member)

structure Filling (k : Nat) (pkts : List Skb) (isSys : Nat → Bool) (n : Nat) (s : Slots) : Prop where
  marks : s.isSys = isSys
  systematic : ∀ m, isSys m → ∃ t, s.skb m = some t ∧ mindex t = m ∧ m < k
  coded : ∀ m, isSys m = false → m < n → ∃ t, s.skb m = some t ∧ mindex t = 0x3f
  empty : ∀ m, isSys m = false → n ≤ m → s.skb m = none
  rest : ∀ t ∈ s.skbs, mindex t = 0x3f
  packets : (occupied k s.skb ++ s.skbs).Perm pkts

structure Filled (k : Nat) (pkts : List Skb) (slots : Slots) : Prop where
  skbs : slots.skbs = []
  full : ∀ m < k, slots.skb m = some (slots.packet m)
  index : ∀ m < k, mindex (slots.packet m) = if slots.isSys m then m else 0x3f
  packets : ((List.range k).map slots.packet).Perm pkts

section
variable (generates : Generates k pkts)
include generates

theorem placed_filling (placed : Placed k pkts k s) : Filling k pkts s.isSys 0 s := by
  have all := generates.count
  have skbs := placed.skbs
  have slots := placed.slots
  rw [List.take_of_length_le (by omega)] at skbs slots
  rw [List.drop_of_length_le (by omega),List.nil_append] at skbs
  refine ⟨rfl,?_,fun m _ bound => by omega,?_,?_,?_⟩
  · intro m mark
    rw [placed.isSys] at mark
    obtain ⟨t,here⟩ := Option.isSome_iff_exists.mp mark
    exact ⟨t,here,placed.owned m t here⟩
  · intro m mark _
    rw [placed.isSys] at mark
    simpa using mark
  · intro t member
    rw [skbs] at member
    simpa [isCoded] using (mem_filter.mp member).2
  · rw [skbs]
    exact (slots.append_right _).trans (List.perm_append_comm.trans (split_coded pkts))

theorem filling_next (filling : Filling k pkts isSys n s) (small : n < k) :
    Filling k pkts isSys (n + 1) (fillCoded n s) := by
  unfold fillCoded
  rw [filling.marks]
  cases mark : isSys n with
  | true =>
    refine ⟨filling.marks,filling.systematic,?_,?_,filling.rest,filling.packets⟩
    · intro m not_sys bound
      have other : m ≠ n := by rintro rfl; rw [mark] at not_sys; cases not_sys
      exact filling.coded m not_sys (by omega)
    · intro m not_sys bound
      exact filling.empty m not_sys (by omega)
  | false =>
    rw [if_neg (by decide)]
    have free := filling.empty n mark (Nat.le_refl n)
    have short := occupied_short small free
    have total := filling.packets.length_eq
    rw [List.length_append,generates.count] at total
    cases queue : s.skbs with
    | nil => rw [queue,List.length_nil] at total; omega
    | cons t rest =>
      have head := filling.rest t (by simp [queue])
      refine ⟨rfl,?_,?_,?_,?_,?_⟩
      · intro m sys
        have other : m ≠ n := by rintro rfl; rw [mark] at sys; cases sys
        dsimp only
        rw [update_of_ne other]
        exact filling.systematic m sys
      · intro m not_sys _
        dsimp only
        by_cases here : m = n
        · subst m
          exact ⟨t,by simp,head⟩
        · rw [update_of_ne here]
          exact filling.coded m not_sys (by omega)
      · intro m not_sys _
        dsimp only
        rw [update_of_ne (by omega)]
        exact filling.empty m not_sys (by omega)
      · intro u member
        exact filling.rest u (by rw [queue]; exact List.mem_cons_of_mem t member)
      · have packets := filling.packets
        rw [queue] at packets
        exact ((occupied_fill small free t).append_right _).trans (List.perm_middle.symm.trans packets)

theorem filling_end (filling : Filling k pkts isSys k s) : Filled k pkts s := by
  have slot : ∀ m < k, ∃ t, s.skb m = some t ∧ mindex t = if s.isSys m then m else 0x3f := by
    intro m small
    rw [filling.marks]
    cases mark : isSys m with
    | true =>
      obtain ⟨t,here,index,_⟩ := filling.systematic m mark
      exact ⟨t,here,by rw [if_pos rfl,index]⟩
    | false =>
      obtain ⟨t,here,index⟩ := filling.coded m mark small
      exact ⟨t,here,by rw [if_neg (by decide),index]⟩
  have full : ∀ m < k, s.skb m = some (s.packet m) := by
    intro m small
    obtain ⟨t,here,_⟩ := slot m small
    rw [Slots.packet,here,Option.getD_some]
  have all := occupied_full full
  have packets := filling.packets
  have total := packets.length_eq
  rw [List.length_append,all,List.length_map,List.length_range,generates.count] at total
  have none_left : s.skbs = [] := List.length_eq_zero_iff.mp (by omega)
  rw [all,none_left,append_nil] at packets
  refine ⟨none_left,full,?_,packets⟩
  intro m small
  obtain ⟨t,here,index⟩ := slot m small
  rw [Slots.packet,here,Option.getD_some,index]

theorem placement :
    (∀ e, forTry 0 k (fun _ => placeSystematic k) ⟨pkts,fun _ => false,fun _ => none⟩ = .error e → Repeated pkts e) ∧
    ∀ s, forTry 0 k (fun _ => placeSystematic k) ⟨pkts,fun _ => false,fun _ => none⟩ = .ok s → Distinct pkts ∧
      Filled k pkts (forRange 0 k fillCoded s) := by
  obtain ⟨ended,left⟩ := forTry_rule (s := (⟨pkts,fun _ => false,fun _ => none⟩ : Slots)) (fun n s => Placed k pkts n s)
    (Repeated pkts) (Nat.zero_le k) ⟨by simp,fun _ => rfl,fun _ _ here => (nomatch here),by simp [occupied]⟩
    fun n s _ small placed =>
      have inside : n < pkts.length := by rw [generates.count]; exact small
      have next := placed_next inside (generates.index _ (List.getElem_mem inside)) placed
      ⟨next.1,fun e stopped => (next.2 e stopped).1⟩
  refine ⟨left,fun s ran => ?_⟩
  have placed := ended s ran
  have distinct := placed_distinct placed
  rw [List.take_of_length_le (by rw [generates.count])] at distinct
  have filling := forRange_rule (fun n t => Filling k pkts s.isSys n t) (Nat.zero_le k) (placed_filling generates placed)
    fun n t _ small filling => filling_next generates filling small
  exact ⟨distinct,filling_end generates filling⟩

end

end Mac80211.MncRx

import Mac80211.MinstrelHt

namespace Mac80211.MinstrelHt

def Fine (mp : Priv) (mask : Nat → Nat) (x : Nat) : Prop :=
  x / mp.groupRates < mp.groupsNb ∧ (mask (x / mp.groupRates)).testBit (x % mp.groupRates) = true

def Sta.mask (mi : Sta) (group : Nat) : Nat := (mi.groups group).supported

section lists

theorem mem_sortBest (member : x ∈ sortBestTpRates mi mp index tpList) : x = index ∨ x ∈ tpList := by
  unfold sortBestTpRates at member
  dsimp only at member
  split at member
  · have member := List.mem_of_mem_take member
    rw [List.mem_append,List.mem_cons] at member
    rcases member with before | here | after
    · exact .inr (List.mem_of_mem_take before)
    · exact .inl here
    · exact .inr (List.mem_of_mem_drop after)
  · exact .inr member

theorem mem_assign (member : x ∈ assignBestTpRates mi mp mcs cck) : x ∈ mcs ∨ x ∈ cck := by
  have all : ∀ (indexes tpList : List Nat), x ∈ indexes.foldl (fun mcs index => sortBestTpRates mi mp index mcs) tpList →
      x ∈ tpList ∨ x ∈ indexes := by
    intro indexes
    induction indexes with
    | nil =>
      intro _ member
      exact .inl member
    | cons index rest ih =>
      intro _ member
      rcases ih _ member with sorted | later
      · rcases mem_sortBest sorted with rfl | old
        · exact .inr (List.mem_cons_self ..)
        · exact .inl old
      · exact .inr (List.mem_cons_of_mem _ later)
  unfold assignBestTpRates at member
  split at member
  · exact all cck mcs member
  · exact .inl member

theorem getD_mem (l : List Nat) (j : Nat) : l.getD j 0 = 0 ∨ l.getD j 0 ∈ l := by
  rw [List.getD_eq_getElem?_getD]
  cases here : l[j]? with
  | none => exact .inl rfl
  | some => exact .inr (List.mem_of_getElem? here)

end lists

structure Follows (mp : Priv) (mi after : Sta) : Prop where
  mask : after.mask = mi.mask
  tpRate : after.maxTpRate = mi.maxTpRate
  groupTpRate : ∀ group, (after.groups group).maxGroupTpRate = (mi.groups group).maxGroupTpRate
  probRate : after.maxProbRate = mi.maxProbRate ∨ Fine mp mi.mask after.maxProbRate
  groupProbRate : ∀ group, (after.groups group).maxGroupProbRate = (mi.groups group).maxGroupProbRate ∨
    Fine mp mi.mask (after.groups group).maxGroupProbRate

theorem follows_refl (mp : Priv) (mi : Sta) : Follows mp mi mi := ⟨rfl,rfl,fun _ => rfl,.inl rfl,fun _ => .inl rfl⟩

theorem Follows.trans (first : Follows mp mi mid) (second : Follows mp mid after) : Follows mp mi after where
  mask := second.mask.trans first.mask
  tpRate := second.tpRate.trans first.tpRate
  groupTpRate group := (second.groupTpRate group).trans (first.groupTpRate group)
  probRate := by
    rcases second.probRate with same | fine
    · rw [same]
      exact first.probRate
    · rw [first.mask] at fine
      exact .inr fine
  groupProbRate group := by
    rcases second.groupProbRate group with same | fine
    · rw [same]
      exact first.groupProbRate group
    · rw [first.mask] at fine
      exact .inr fine

theorem setGroup_here (mi : Sta) (group : Nat) (mg : McsGroupData) : (mi.setGroup group mg).groups group = mg :=
  Function.update_self ..

theorem setGroup_other (mi : Sta) (mg : McsGroupData) (apart : g ≠ group) : (mi.setGroup group mg).groups g = mi.groups g :=
  Function.update_of_ne apart ..

theorem setGroup_mask {mi : Sta} (group : Nat) (supported : mg.supported = (mi.groups group).supported) : (mi.setGroup group mg).mask = mi.mask := by
  funext g
  unfold Sta.mask
  by_cases same : g = group
  · subst same
    rw [setGroup_here,supported]
  · rw [setGroup_other mi mg same]

section follows

theorem follows_setGroup (group : Nat) (supported : mg.supported = (mi.groups group).supported)
    (tpRate : mg.maxGroupTpRate = (mi.groups group).maxGroupTpRate)
    (probRate : mg.maxGroupProbRate = (mi.groups group).maxGroupProbRate ∨ Fine mp mi.mask mg.maxGroupProbRate) :
    Follows mp mi (mi.setGroup group mg) := by
  refine ⟨setGroup_mask group supported,rfl,?_,.inl rfl,?_⟩
  · intro g
    by_cases same : g = group
    · subst same
      rw [setGroup_here,tpRate]
    · rw [setGroup_other mi mg same]
  · intro g
    by_cases same : g = group
    · subst same
      rw [setGroup_here]
      exact probRate
    · rw [setGroup_other mi mg same]
      exact .inl rfl

theorem follows_rate (group i : Nat) (mrs : RateStats) : Follows mp mi (mi.setGroup group ((mi.groups group).setRate i mrs)) :=
  follows_setGroup group rfl rfl (.inl rfl)

theorem follows_probRate (fine : Fine mp mi.mask index) : Follows mp mi {mi with maxProbRate := index} :=
  ⟨rfl,rfl,fun _ => rfl,.inr fine,fun _ => .inl rfl⟩

theorem setBest_follows (fine : Fine mp mi.mask index) (stray : Nat → Nat) : Follows mp mi (setBestProbRate mi mp stray index) := by
  have best : ∀ (take : Prop) [Decidable take], Follows mp mi (if take then {mi with maxProbRate := index} else mi) := by
    intro _ _
    split
    · exact follows_probRate fine
    · exact follows_refl mp mi
  have both : ∀ mid, Follows mp mi mid → mid.groups = mi.groups → Follows mp mi
      (mid.setGroup (index / mp.groupRates) {mi.groups (index / mp.groupRates) with maxGroupProbRate := index}) := by
    intro _ first same
    refine first.trans (follows_setGroup _ (by rw [same]) (by rw [same]) (.inr ?_))
    rw [first.mask]
    exact fine
  unfold setBestProbRate
  dsimp only
  split
  · exact follows_refl mp mi
  · split
    · split
      · refine both _ (best _) ?_
        split <;> rfl
      · exact best _
    · split
      · refine both _ (best _) ?_
        split <;> rfl
      · exact best _

end follows

theorem groupRates_pos (mp : Priv) : 8 ≤ mp.groupRates := by
  unfold Priv.groupRates
  split <;> omega

theorem index_div (mp : Priv) (inside : i < mp.groupRates) : (mp.groupRates * group + i) / mp.groupRates = group := by
  rw [Nat.mul_add_div (Nat.lt_of_lt_of_le (by decide) (groupRates_pos mp)),Nat.div_eq_of_lt inside,Nat.add_zero]

theorem index_mod (mp : Priv) (inside : i < mp.groupRates) : (mp.groupRates * group + i) % mp.groupRates = i := by
  rw [Nat.mul_add_mod,Nat.mod_eq_of_lt inside]

structure ListsFrom (mp : Priv) (mask : Nat → Nat) (group : Nat) (before after : Lists) : Prop where
  mcs : ∀ x ∈ after.mcs, x ∈ before.mcs ∨ Fine mp mask x
  cck : ∀ x ∈ after.cck, x ∈ before.cck ∨ Fine mp mask x
  own : ∀ x ∈ after.group, x ∈ before.group ∨ x / mp.groupRates = group ∧ Fine mp mask x

theorem listsFrom_refl (mp : Priv) (mask : Nat → Nat) (group : Nat) (lists : Lists) : ListsFrom mp mask group lists lists :=
  ⟨fun _ => .inl,fun _ => .inl,fun _ => .inl⟩

theorem ListsFrom.trans (first : ListsFrom mp mask group before mid) (second : ListsFrom mp mask group mid after) :
    ListsFrom mp mask group before after where
  mcs x member := (second.mcs x member).elim (first.mcs x) .inr
  cck x member := (second.cck x member).elim (first.cck x) .inr
  own x member := (second.own x member).elim (first.own x) .inr

section update

theorem listRate_from (mi : Sta) (lists : Lists) (own : index / mp.groupRates = group) (fine : Fine mp mask index) :
    ListsFrom mp mask group lists (listRate mi mp group index lists) := by
  have sorted : ∀ tpList, ∀ x ∈ sortBestTpRates mi mp index tpList, x ∈ tpList ∨ x / mp.groupRates = group ∧ Fine mp mask x := by
    intro _ x member
    rcases mem_sortBest member with same | old
    · rw [same]
      exact .inr ⟨own,fine⟩
    · exact .inl old
  refine ⟨fun x member => ?_,fun x member => ?_,sorted lists.group⟩
  · unfold listRate at member
    split at member
    · exact (sorted _ x member).imp_right And.right
    · exact .inl member
  · unfold listRate at member
    split at member
    · exact .inl member
    · exact (sorted _ x member).imp_right And.right

theorem updateRate_follows (stray : Nat → Nat → Nat) (below : group < mp.groupsNb) (inside : i < mp.groupRates) (acc : Sta × Lists) :
    Follows mp acc.1 (updateRate mp stray group acc i).1 ∧
      ListsFrom mp acc.1.mask group acc.2 (updateRate mp stray group acc i).2 := by
  unfold updateRate
  split
  · exact ⟨follows_refl mp acc.1,listsFrom_refl mp _ group acc.2⟩
  rename_i supported
  have counted : Follows mp acc.1 (countedRate acc.1 group i) := follows_rate group i _
  have own : (mp.groupRates * group + i) / mp.groupRates = group := index_div mp inside
  have fine : Fine mp acc.1.mask (mp.groupRates * group + i) := by
    refine ⟨by rwa [own],?_⟩
    rw [own,index_mod mp inside]
    unfold Sta.mask
    simpa using supported
  dsimp only
  split
  · exact ⟨counted,listsFrom_refl mp _ group acc.2⟩
  · have fine' := fine
    rw [← counted.mask] at fine'
    exact ⟨counted.trans (setBest_follows fine' (stray group)),listRate_from _ acc.2 own fine⟩

theorem updateAll_follows (stray : Nat → Nat → Nat) (below : group < mp.groupsNb) (rates : List Nat) (inside : ∀ i ∈ rates, i < mp.groupRates) (acc : Sta × Lists) :
    Follows mp acc.1 (rates.foldl (updateRate mp stray group) acc).1 ∧
      ListsFrom mp acc.1.mask group acc.2 (rates.foldl (updateRate mp stray group) acc).2 := by
  induction rates generalizing acc with
  | nil => exact ⟨follows_refl mp acc.1,listsFrom_refl mp _ group acc.2⟩
  | cons i rest ih =>
    obtain ⟨first,lists⟩ := updateRate_follows stray below (inside i (List.mem_cons_self ..)) acc
    obtain ⟨later,more⟩ := ih (fun j member => inside j (List.mem_cons_of_mem _ member)) (updateRate mp stray group acc i)
    rw [first.mask] at more
    exact ⟨first.trans later,lists.trans more⟩

end update

def FineOr (mp : Priv) (mask : Nat → Nat) (empty x : Nat) : Prop := x = empty ∨ Fine mp mask x

-- Of their own rates or of the placeholder.
structure Filled (mp : Priv) (mask : Nat → Nat) (n : Nat) (acc : Sta × Lists) : Prop where
  masks : acc.1.mask = mask
  probRate : FineOr mp mask 0 acc.1.maxProbRate
  groupProbRate : ∀ group, FineOr mp mask 0 (acc.1.groups group).maxGroupProbRate
  groupTpRate : ∀ group < n, mask group ≠ 0 → ∀ x ∈ (acc.1.groups group).maxGroupTpRate,
    x = group ∨ x / mp.groupRates = group ∧ Fine mp mask x
  mcs : ∀ x ∈ acc.2.mcs, FineOr mp mask 0 x
  cck : ∀ x ∈ acc.2.cck, FineOr mp mask 0 x

theorem Filled.next (filled : Filled mp mask n acc) (below : n < mp.groupsNb) (stray : Nat → Nat → Nat) :
    Filled mp mask (n + 1) (updateGroup mp stray acc n) := by
  unfold updateGroup
  dsimp only
  split
  · rename_i empty
    have unsupported : mask n = 0 := (congrFun filled.masks n).symm.trans empty
    refine ⟨filled.masks,filled.probRate,filled.groupProbRate,fun group less listed => ?_,filled.mcs,filled.cck⟩
    have other : group ≠ n := by
      rintro rfl
      exact listed unsupported
    exact filled.groupTpRate group (by omega) listed
  obtain ⟨follows,lists⟩ := updateAll_follows stray below (List.range mp.groupRates) (fun i => List.mem_range.mp)
    ({acc.1 with sampleCount := u8 (acc.1.sampleCount + 1)},{acc.2 with group := List.replicate maxThrRates n})
  generalize (List.range mp.groupRates).foldl _ _ = out at follows lists
  have mask' : ({acc.1 with sampleCount := u8 (acc.1.sampleCount + 1)} : Sta).mask = mask := filled.masks
  have mask'' := follows.mask.trans mask'
  have probRate := follows.probRate
  have groupProbRate := follows.groupProbRate
  rw [mask'] at probRate groupProbRate lists
  refine ⟨?_,?_,?_,?_,?_,?_⟩
  · rw [← mask'']
    exact setGroup_mask n rfl
  · rcases probRate with same | fine
    · have old := filled.probRate
      rw [← show out.1.maxProbRate = acc.1.maxProbRate from same] at old
      exact old
    · exact .inr fine
  · intro g
    have kept : FineOr mp mask 0 (out.1.groups g).maxGroupProbRate := by
      rcases groupProbRate g with same | fine
      · rw [same]
        exact filled.groupProbRate g
      · exact .inr fine
    by_cases same : g = n
    · subst same
      rw [setGroup_here]
      exact kept
    · rw [setGroup_other _ _ same]
      exact kept
  · intro g _ listed x member
    by_cases same : g = n
    · subst same
      rw [setGroup_here] at member
      rcases lists.own x member with placeholder | own
      · exact .inl (List.eq_of_mem_replicate placeholder)
      · exact .inr own
    · rw [setGroup_other _ _ same,follows.groupTpRate] at member
      exact filled.groupTpRate g (by omega) listed x member
  · intro x member
    exact (lists.mcs x member).elim (filled.mcs x) .inr
  · intro x member
    exact (lists.cck x member).elim (filled.cck x) .inr

theorem filled_all (filled : Filled mp mask 0 acc) (stray : Nat → Nat → Nat) (n : Nat) (below : n ≤ mp.groupsNb) :
    Filled mp mask n ((List.range n).foldl (updateGroup mp stray) acc) := by
  induction n with
  | zero => exact filled
  | succ n ih =>
    rw [List.range_succ,List.foldl_append]
    exact (ih (by omega)).next below stray

end Mac80211.MinstrelHt

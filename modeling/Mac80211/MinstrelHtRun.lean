import Mac80211.MinstrelHtRates

namespace Mac80211.MinstrelHt

structure Listed (mp : Priv) (mask : Nat → Nat) (mi : Sta) : Prop where
  masks : mi.mask = mask
  tpRate : ∀ x ∈ mi.maxTpRate, FineOr mp mask 0 x
  probRate : FineOr mp mask 0 mi.maxProbRate
  groupProbRate : ∀ group, FineOr mp mask 0 (mi.groups group).maxGroupProbRate
  groupTpRate : ∀ group < mp.groupsNb, mask group ≠ 0 → ∀ x ∈ (mi.groups group).maxGroupTpRate,
    x = group ∨ x / mp.groupRates = group ∧ Fine mp mask x

section update

theorem reduce_kept (mp : Priv) (most : Nat) (groups : List Nat) (acc : Sta × Int) :
    ∃ best, (groups.foldl (reduceStep mp most) acc).1 = {acc.1 with maxProbRate := best} ∧
      (best = acc.1.maxProbRate ∨ ∃ group, best = (acc.1.groups group).maxGroupProbRate) := by
  induction groups generalizing acc with
  | nil => exact ⟨acc.1.maxProbRate,rfl,.inl rfl⟩
  | cons group rest ih =>
    obtain ⟨best,same,from'⟩ := ih (reduceStep mp most acc group)
    rw [List.foldl_cons,same]
    have step : (reduceStep mp most acc group).1 = acc.1 ∨
        (reduceStep mp most acc group).1 = {acc.1 with maxProbRate := (acc.1.groups group).maxGroupProbRate} := by
      unfold reduceStep
      dsimp only
      split
      · exact .inl rfl
      · split
        · exact .inr rfl
        · exact .inl rfl
    rcases step with kept | moved
    · rw [kept] at from' ⊢
      exact ⟨best,rfl,from'⟩
    · rw [moved] at from' ⊢
      rcases from' with here | later
      · exact ⟨best,rfl,.inr ⟨group,here⟩⟩
      · exact ⟨best,rfl,.inr later⟩

theorem probRate_kept (mi : Sta) (mp : Priv) : ∃ best, probRateReduceStreams mi mp = {mi with maxProbRate := best} ∧
    (best = mi.maxProbRate ∨ ∃ group, best = (mi.groups group).maxGroupProbRate) :=
  reduce_kept mp (streams (mi.maxTpRate.getD 0 0 / mp.groupRates)) (List.range mp.groupsNb) (mi,0)

theorem updateStats_listed (masks : mi.mask = mask) (probRate : FineOr mp mask 0 mi.maxProbRate)
    (groupProbRate : ∀ group, FineOr mp mask 0 (mi.groups group).maxGroupProbRate) (stray : Nat → Nat → Nat) :
    Listed mp mask (updateStats mp stray mi) := by
  have averagedKept : (averaged mi).maxProbRate = mi.maxProbRate ∧ (averaged mi).groups = mi.groups := by
    unfold averaged
    split <;> exact ⟨rfl,rfl⟩
  have start : Filled mp mask 0 ({averaged mi with sampleSlow := 0,sampleCount := 0},placeholders) := by
    refine ⟨?_,?_,?_,fun group less => absurd less (Nat.not_lt_zero group),?_,?_⟩
    · rw [← masks]
      exact congrArg (fun groups group => McsGroupData.supported (groups group)) averagedKept.2
    · rw [← averagedKept.1] at probRate
      exact probRate
    · rw [← averagedKept.2] at groupProbRate
      exact groupProbRate
    · exact fun x member => .inl (List.eq_of_mem_replicate member)
    · exact fun x member => .inl (List.eq_of_mem_replicate member)
  have filled := filled_all start stray mp.groupsNb (Nat.le_refl _)
  unfold updateStats
  dsimp only
  generalize (List.range mp.groupsNb).foldl (updateGroup mp stray) _ = out at filled
  obtain ⟨_,same,from'⟩ := probRate_kept {out.1 with maxTpRate := assignBestTpRates out.1 mp out.2.mcs out.2.cck} mp
  rw [same]
  refine ⟨filled.masks,fun x member => ?_,?_,filled.groupProbRate,filled.groupTpRate⟩
  · exact (mem_assign member).elim (filled.mcs x) (filled.cck x)
  · rcases from' with here | ⟨group,here⟩
    · rw [here]
      exact filled.probRate
    · rw [here]
      exact filled.groupProbRate group

end update

structure UsesSupported (mp : Priv) (mi : Sta) : Prop where
  programmed : ∀ x ∈ updateRates mp mi, Fine mp mi.mask x
  downgraded : ∀ orig < mp.groupsNb, mi.mask orig ≠ 0 → ∀ group, downgradeGroup mi.mask orig orig = some group →
    ∀ j < 2, (mi.groups group).maxGroupTpRate.getD j 0 / mp.groupRates = group ∧
      Fine mp mi.mask ((mi.groups group).maxGroupTpRate.getD j 0)

structure FirstOnly (mp : Priv) (mask : Nat → Nat) : Prop where
  first : (mask 0).testBit 0 = true
  only : ∀ orig < mp.groupsNb, mask orig ≠ 0 → ∀ group, downgradeGroup mask orig orig = some group → group = 0

section first

theorem groupsNb_pos (mp : Priv) : 0 < mp.groupsNb := by
  unfold Priv.groupsNb
  split <;> decide

theorem fine_zero (mp : Priv) (mask : Nat → Nat) : Fine mp mask 0 ↔ (mask 0).testBit 0 = true := by
  unfold Fine
  rw [Nat.zero_div,Nat.zero_mod]
  exact and_iff_right (groupsNb_pos mp)

theorem FirstOnly.fine (firstOnly : FirstOnly mp mask) (or : FineOr mp mask 0 x) : Fine mp mask x := by
  rcases or with rfl | fine
  · exact (fine_zero mp mask).mpr firstOnly.first
  · exact fine

theorem FirstOnly.getD {l : List Nat} (firstOnly : FirstOnly mp mask) (each : ∀ x ∈ l, FineOr mp mask 0 x) (j : Nat) : Fine mp mask (l.getD j 0) := by
  rcases getD_mem l j with zero | member
  · exact firstOnly.fine (.inl zero)
  · exact firstOnly.fine (each _ member)

theorem fine_mask (fine : Fine mp mask x) : mask (x / mp.groupRates) ≠ 0 := by
  intro empty
  have bit := fine.2
  rw [empty,Nat.zero_testBit] at bit
  cases bit

theorem FirstOnly.supported (firstOnly : FirstOnly mp mask) : mask 0 ≠ 0 := by
  have fine := fine_mask ((fine_zero mp mask).mpr firstOnly.first)
  rwa [Nat.zero_div] at fine

section
variable (listed : Listed mp mask mi) (firstOnly : FirstOnly mp mask)
include listed firstOnly

theorem firstList : ∀ x ∈ (mi.groups 0).maxGroupTpRate, FineOr mp mask 0 x :=
  fun x member => (listed.groupTpRate 0 (groupsNb_pos mp) firstOnly.supported x member).imp_right And.right

theorem firstList_div (j : Nat) : (mi.groups 0).maxGroupTpRate.getD j 0 / mp.groupRates = 0 := by
  rcases getD_mem (mi.groups 0).maxGroupTpRate j with zero | member
  · rw [zero,Nat.zero_div]
  · rcases listed.groupTpRate 0 (groupsNb_pos mp) firstOnly.supported _ member with zero | own
    · rw [zero,Nat.zero_div]
    · exact own.1

theorem Listed.usesSupported : UsesSupported mp mi := by
  constructor
  · rw [listed.masks]
    intro x member
    unfold updateRates at member
    simp only [List.mem_append,List.mem_singleton] at member
    rcases member with (rfl | second) | third
    · exact firstOnly.getD listed.tpRate 0
    · split at second
      · cases List.mem_singleton.mp second
        exact firstOnly.getD listed.tpRate 1
      · cases second
    · split at third
      · cases List.mem_singleton.mp third
        exact firstOnly.fine listed.probRate
      · cases third
  · rw [listed.masks]
    intro orig below some group found j _
    cases firstOnly.only orig below some group found
    exact ⟨firstList_div listed firstOnly j,firstOnly.getD (firstList listed firstOnly) j⟩

end

theorem Listed.follows (listed : Listed mp mask mi) (follows : Follows mp mi after) : Listed mp mask after := by
  have masks := follows.mask.trans listed.masks
  refine ⟨masks,?_,?_,fun group => ?_,fun group below some x member => ?_⟩
  · rw [follows.tpRate]
    exact listed.tpRate
  · rcases follows.probRate with same | fine
    · rw [same]
      exact listed.probRate
    · rw [listed.masks] at fine
      exact .inr fine
  · rcases follows.groupProbRate group with same | fine
    · rw [same]
      exact listed.groupProbRate group
    · rw [listed.masks] at fine
      exact .inr fine
  · rw [follows.groupTpRate] at member
    exact listed.groupTpRate group below some x member

theorem countRates_follows (ackLen ampduLen : Nat) (rates : List TxRate) (mi : Sta) :
    Follows mp mi (countRates mp ackLen ampduLen mi rates) := by
  induction rates generalizing mi with
  | nil => exact follows_refl mp mi
  | cons rate rest ih =>
    unfold countRates
    split
    · exact follows_refl mp mi
    · exact (follows_rate _ _ _).trans (ih _)

section
variable (listed : Listed mp mask mi)
include listed

theorem Listed.downgrade (firstOnly : FirstOnly mp mask) (fine : Fine mp mask index) (primary : Bool) :
    Fine mp mask (downgradeRate mi mp index primary) := by
  unfold downgradeRate
  dsimp only
  split
  · rename_i group found
    change downgradeGroup mi.mask _ _ = some group at found
    rw [listed.masks] at found
    cases firstOnly.only _ fine.1 (fine_mask fine) group found
    exact firstOnly.getD (firstList listed firstOnly) _
  · exact fine

theorem Listed.setTp (fine : Fine mp mask x) (j : Nat) : Listed mp mask {mi with maxTpRate := mi.maxTpRate.set j x} := by
  refine ⟨listed.masks,fun y member => ?_,listed.probRate,listed.groupProbRate,listed.groupTpRate⟩
  rcases List.mem_or_eq_of_mem_set member with old | rfl
  · exact listed.tpRate y old
  · exact .inr fine

theorem Listed.kept (groups : after.groups = mi.groups) (tpRate : after.maxTpRate = mi.maxTpRate)
    (probRate : after.maxProbRate = mi.maxProbRate) : Listed mp mask after := by
  refine ⟨?_,?_,?_,?_,?_⟩
  · rw [← listed.masks]
    exact congrArg (fun groups group => McsGroupData.supported (groups group)) groups
  · rw [tpRate]
    exact listed.tpRate
  · rw [probRate]
    exact listed.probRate
  · rw [groups]
    exact listed.groupProbRate
  · rw [groups]
    exact listed.groupTpRate

theorem sampled_listed : Listed mp mask (sampled mi) := by
  unfold sampled
  split
  · exact listed.kept rfl rfl rfl
  · exact listed

theorem txStatus_listed (firstOnly : FirstOnly mp mask) (info : TxStatus) : Listed mp mask (txStatus mp mi info) := by
  have probed : ∀ mid, Listed mp mask mid → ∀ packets, Listed mp mask (if info.probe then {mid with samplePackets := packets} else mid) := by
    intro mid listed _
    split
    · exact listed.kept rfl rfl rfl
    · exact listed
  have counted : ∀ mid, Listed mp mask mid → ∀ ackLen ampduLen, Listed mp mask (countRates mp ackLen ampduLen mid (info.rates.take 4)) :=
    fun mid listed ackLen ampduLen => listed.follows (countRates_follows ackLen ampduLen _ mid)
  have downgraded : ∀ mid, Listed mp mask mid → ∀ j primary, Listed mp mask (if dying mid mp (mid.maxTpRate.getD j 0) then
        {mid with maxTpRate := mid.maxTpRate.set j (downgradeRate mid mp (mid.maxTpRate.getD j 0) primary)}
      else mid) := by
    intro mid listed j primary
    split
    · exact listed.setTp (listed.downgrade firstOnly (firstOnly.getD listed.tpRate j) primary) j
    · exact listed
  have updated : ∀ mid, Listed mp mask mid → Listed mp mask (if info.late then updateStats mp info.stray mid else mid) := by
    intro _ listed
    split
    · exact updateStats_listed listed.masks listed.probRate listed.groupProbRate info.stray
    · exact listed
  unfold txStatus
  split
  · exact listed
  · refine updated _ (downgraded _ (downgraded _ (counted _ (probed _ (sampled_listed ?_) _) _ _) 0 true) 1 false)
    exact listed.kept rfl rfl rfl

end

end first

def Idle (mi : Sta) : Prop := ∀ group i, ((mi.groups group).rates i).attempts = 0 ∧ ((mi.groups group).rates i).probEwma = 0

section idle

theorem idle_setGroup (idle : Idle mi) (group : Nat) (rates : ∀ i, (mg.rates i).attempts = 0 ∧ (mg.rates i).probEwma = 0) :
    Idle (mi.setGroup group mg) := by
  intro g i
  by_cases same : g = group
  · subst same
    rw [setGroup_here]
    exact rates i
  · rw [setGroup_other mi mg same]
    exact idle g i

theorem countedRate_idle (idle : Idle mi) (group i : Nat) : Idle (countedRate mi group i) := by
  obtain ⟨attempts,probEwma⟩ := idle group i
  refine idle_setGroup idle group fun j => ?_
  unfold McsGroupData.setRate
  dsimp only
  by_cases same : j = i
  · subst same
    rw [Function.update_self]
    unfold calcRateStats
    rw [attempts,if_neg (Nat.lt_irrefl 0)]
    exact ⟨rfl,probEwma⟩
  · rw [Function.update_of_ne same]
    exact idle group j

theorem tpAvg_zero (mi : Sta) (group rate : Nat) : mi.tpAvg group rate 0 = 0 := by
  exact if_pos (by decide)

theorem idle_tp (idle : Idle mi) (mp : Priv) (index : Nat) : mi.tp mp index = 0 := by
  unfold Sta.tp Sta.prob
  rw [(idle _ _).2]
  exact tpAvg_zero mi _ _

theorem updateRate_idle (idle : Idle acc.1) (mp : Priv) (stray : Nat → Nat → Nat) (group i : Nat) :
    Idle (updateRate mp stray group acc i).1 ∧ (updateRate mp stray group acc i).2 = acc.2 := by
  unfold updateRate
  split
  · exact ⟨idle,rfl⟩
  · have counted := countedRate_idle idle group i
    dsimp only
    rw [(counted group i).2]
    exact ⟨counted,rfl⟩

theorem updateAll_idle (idle : Idle acc.1) (mp : Priv) (stray : Nat → Nat → Nat) (group : Nat) (rates : List Nat) :
    Idle (rates.foldl (updateRate mp stray group) acc).1 ∧ (rates.foldl (updateRate mp stray group) acc).2 = acc.2 := by
  induction rates generalizing acc with
  | nil => exact ⟨idle,rfl⟩
  | cons i rest ih =>
    obtain ⟨first,lists⟩ := updateRate_idle idle mp stray group i
    obtain ⟨later,more⟩ := ih first
    exact ⟨later,more.trans lists⟩

structure Blank (mask : Nat → Nat) (n : Nat) (acc : Sta × Lists) : Prop where
  idle : Idle acc.1
  masks : acc.1.mask = mask
  lists : acc.2.mcs = List.replicate maxThrRates 0 ∧ acc.2.cck = List.replicate maxThrRates 0
  groupTpRate : ∀ group < n, mask group ≠ 0 → (acc.1.groups group).maxGroupTpRate = List.replicate maxThrRates group

theorem Blank.next (blank : Blank mask n acc) (below : n < mp.groupsNb) (stray : Nat → Nat → Nat) :
    Blank mask (n + 1) (updateGroup mp stray acc n) := by
  unfold updateGroup
  dsimp only
  split
  · rename_i empty
    have unsupported : mask n = 0 := (congrFun blank.masks n).symm.trans empty
    refine ⟨blank.idle,blank.masks,blank.lists,fun group less listed => ?_⟩
    have other : group ≠ n := by
      rintro rfl
      exact listed unsupported
    exact blank.groupTpRate group (by omega) listed
  have start : Idle ((({acc.1 with sampleCount := u8 (acc.1.sampleCount + 1)},
      {acc.2 with group := List.replicate maxThrRates n}) : Sta × Lists)).1 := blank.idle
  obtain ⟨follows,_⟩ := updateAll_follows stray below (List.range mp.groupRates) (fun i => List.mem_range.mp)
    ({acc.1 with sampleCount := u8 (acc.1.sampleCount + 1)},{acc.2 with group := List.replicate maxThrRates n})
  obtain ⟨idle,lists⟩ := updateAll_idle start mp stray n (List.range mp.groupRates)
  generalize (List.range mp.groupRates).foldl _ _ = out at follows idle lists
  have mask' := follows.mask.trans blank.masks
  refine ⟨idle_setGroup idle n (idle n),?_,?_,?_⟩
  · rw [← mask']
    exact setGroup_mask n rfl
  · rw [lists]
    exact blank.lists
  · intro g _ listed
    by_cases same : g = n
    · subst same
      rw [setGroup_here,lists]
    · rw [setGroup_other _ _ same,follows.groupTpRate]
      exact blank.groupTpRate g (by omega) listed

theorem blank_all (blank : Blank mask 0 acc) (stray : Nat → Nat → Nat) (n : Nat) (below : n ≤ mp.groupsNb) :
    Blank mask n ((List.range n).foldl (updateGroup mp stray) acc) := by
  induction n with
  | zero => exact blank
  | succ n ih =>
    rw [List.range_succ,List.foldl_append]
    exact (ih (by omega)).next below stray

theorem assign_idle (idle : Idle mi) (mp : Priv) (mcs cck : List Nat) : assignBestTpRates mi mp mcs cck = mcs := by
  unfold assignBestTpRates
  rw [idle_tp idle,idle_tp idle]
  exact if_neg (Nat.lt_irrefl _)

end idle

theorem updateCaps_blank (mp : Priv) (caps : Caps) (stray : Nat → Nat → Nat) :
    (updateCaps mp caps stray).maxTpRate = List.replicate maxThrRates 0 ∧
      ∀ group < mp.groupsNb, supportedMask mp caps group ≠ 0 →
        ((updateCaps mp caps stray).groups group).maxGroupTpRate = List.replicate maxThrRates group := by
  have start : Blank (supportedMask mp caps) 0 ({averaged (cleared mp caps) with sampleSlow := 0,sampleCount := 0},placeholders) :=
    ⟨fun _ _ => ⟨rfl,rfl⟩,rfl,⟨rfl,rfl⟩,fun group less => absurd less (Nat.not_lt_zero group)⟩
  have blank := blank_all start stray mp.groupsNb (Nat.le_refl _)
  unfold updateCaps updateStats
  dsimp only
  generalize (List.range mp.groupsNb).foldl (updateGroup mp stray) _ = out at blank
  obtain ⟨_,same,_⟩ := probRate_kept {out.1 with maxTpRate := assignBestTpRates out.1 mp out.2.mcs out.2.cck} mp
  rw [same]
  exact ⟨(assign_idle blank.idle mp _ _).trans blank.lists.1,blank.groupTpRate⟩

theorem updateCaps_listed (mp : Priv) (caps : Caps) (stray : Nat → Nat → Nat) :
    Listed mp (supportedMask mp caps) (updateCaps mp caps stray) := by
  have masks : (cleared mp caps).mask = supportedMask mp caps := rfl
  exact updateStats_listed masks (.inl rfl) (fun _ => .inl rfl) stray

theorem reach_listed (reach : Reach mp caps mi) (firstOnly : FirstOnly mp (supportedMask mp caps)) :
    Listed mp (supportedMask mp caps) mi := by
  induction reach with
  | init stray => exact updateCaps_listed mp caps stray
  | status prior info ih => exact txStatus_listed ih firstOnly info

theorem downgradeGroup_some (found : downgradeGroup supported orig n = some group) : group < n ∧ supported group ≠ 0 := by
  induction n with
  | zero => cases found
  | succ n ih =>
    unfold downgradeGroup at found
    split at found
    · exact (ih found).imp_left Nat.lt_succ_of_lt
    · rename_i listed
      cases found
      exact ⟨Nat.lt_succ_self _,fun empty => listed (.inl empty)⟩

theorem firstOnly_of_init (uses : UsesSupported mp (updateCaps mp caps stray)) : FirstOnly mp (supportedMask mp caps) := by
  obtain ⟨tpRate,groupTpRate⟩ := updateCaps_blank mp caps stray
  obtain ⟨programmed,downgraded⟩ := uses
  rw [(updateCaps_listed mp caps stray).masks] at programmed downgraded
  constructor
  · refine (fine_zero mp _).mp (programmed 0 ?_)
    unfold updateRates
    rw [tpRate]
    exact List.mem_append_left _ (List.mem_append_left _ (List.mem_singleton_self 0))
  · intro orig below listed group found
    obtain ⟨_,own⟩ := downgradeGroup_some found
    have placed := (downgraded orig below listed group found 0 Nat.two_pos).1
    rw [groupTpRate group (by omega) own] at placed
    have placed : group / mp.groupRates = group := placed
    by_contra apart
    have smaller := Nat.div_lt_self (Nat.pos_of_ne_zero apart) (Nat.lt_of_lt_of_le (by decide : 1 < 8) (groupRates_pos mp))
    omega

-- minstrel_vht_only leaves group 0 without a rate.
def vhtBuild : Priv where
  vht := true
  vhtOnly := true
  hasMrr := true
  maxRates := 4
  cckRates := fun i => (i : Int)

def vhtStation : Caps where
  htSupported := true
  vhtSupported := true
  sgi20 := true
  sgi40 := true
  sgi80 := true
  rxBw40 := true
  rxBw80 := true
  staticSmps := false
  rxMask := fun nss => if nss = 0 then 0xff else 0
  txMcsMap := 0xfffe
  cckAllowed := false
  cckSupported := fun _ => false
  overhead := 0

end Mac80211.MinstrelHt

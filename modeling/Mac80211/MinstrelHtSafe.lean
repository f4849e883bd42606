import Mac80211.Loops
import Mac80211.MinstrelHtRun

namespace Mac80211.MinstrelHt
open Loops
open List (forall_mem_cons mem_range forall_mem_append mem_singleton)

-- Where only the group is read the rate is 0.
def InRange (mp : Priv) (use : Nat × Nat) : Prop := use.1 < mp.groupsNb ∧ use.2 < mp.groupRates

def whole (mp : Priv) (index : Nat) : Nat × Nat := (index / mp.groupRates,index % mp.groupRates)

def scanUses (mi : Sta) (mp : Priv) (index : Nat) (tpList : List Nat) : Nat → List (Nat × Nat)
  | 0 => []
  | j + 1 =>
    let tmp := tpList.getD j 0
    whole mp tmp ::
      if mi.tp mp index < mi.tp mp tmp ∨ mi.tp mp index = mi.tp mp tmp ∧ mi.prob mp index ≤ mi.prob mp tmp then []
      else scanUses mi mp index tpList j

def sortUses (mi : Sta) (mp : Priv) (index : Nat) (tpList : List Nat) : List (Nat × Nat) :=
  whole mp index :: scanUses mi mp index tpList maxThrRates

def passedOver (mi : Sta) (mp : Priv) (index : Nat) : Prop :=
  index / mp.groupRates = cckGroup ∧ mi.maxTpRate.getD 0 0 / mp.groupRates ≠ cckGroup

instance (mi : Sta) (mp : Priv) (index : Nat) : Decidable (passedOver mi mp index) := inferInstanceAs (Decidable (_ ∧ _))

-- The last branch takes the whole index of the best rate for the rate in the group.
def bestProbUses (mi : Sta) (mp : Priv) (index : Nat) : List (Nat × Nat) :=
  let mg := mi.groups (index / mp.groupRates)
  whole mp index :: whole mp mi.maxProbRate ::
    if passedOver mi mp index then []
    else if (mg.rates (index % mp.groupRates)).probEwma > minstrelFrac 75 100 then [whole mp mg.maxGroupProbRate]
    else [(index / mp.groupRates,mg.maxGroupProbRate)]

def hasThroughput (mi : Sta) (group i : Nat) : Prop := mi.tpAvg group i (s32 ((mi.groups group).rates i).probEwma) ≠ 0

instance (mi : Sta) (group i : Nat) : Decidable (hasThroughput mi group i) := inferInstanceAs (Decidable (_ ≠ _))

def rateUses (mp : Priv) (group : Nat) (acc : Sta × Lists) (i : Nat) : List (Nat × Nat) :=
  if !(acc.1.groups group).supported.testBit i then []
  else
    let index := mp.groupRates * group + i
    let mi := countedRate acc.1 group i
    (group,i) ::
      if hasThroughput mi group i then
        sortUses mi mp index (if group ≠ cckGroup then acc.2.mcs else acc.2.cck) ++ sortUses mi mp index acc.2.group ++ bestProbUses mi mp index
      else []

def groupStart (acc : Sta × Lists) (group : Nat) : Sta × Lists :=
  ({acc.1 with sampleCount := u8 (acc.1.sampleCount + 1)},{acc.2 with group := List.replicate maxThrRates group})

def groupUses (mp : Priv) (stray : Nat → Nat → Nat) (acc : Sta × Lists) (group : Nat) : List (Nat × Nat) :=
  (group,0) ::
    if (acc.1.groups group).supported = 0 then []
    else foldUses (updateRate mp stray group) (rateUses mp group) (groupStart acc group) (List.range mp.groupRates)

def assignUses (mi : Sta) (mp : Priv) (mcs cck : List Nat) : List (Nat × Nat) :=
  whole mp (cck.getD 0 0) :: whole mp (mcs.getD 0 0) ::
    if u32 (mi.tp mp (cck.getD 0 0)) > u32 (mi.tp mp (mcs.getD 0 0)) then
      foldUses (fun mcs index => sortBestTpRates mi mp index mcs) (fun mcs index => sortUses mi mp index mcs) mcs cck
    else []

def reduceUses (mp : Priv) (mi : Sta) : List (Nat × Nat) :=
  (mi.maxTpRate.getD 0 0 / mp.groupRates,0) :: (List.range mp.groupsNb).flatMap fun group =>
    (group,0) ::
      if (mi.groups group).supported = 0 ∨ group = cckGroup then [] else [(group,(mi.groups group).maxGroupProbRate % mp.groupRates)]

def updateStart (mi : Sta) : Sta × Lists := ({averaged mi with sampleSlow := 0,sampleCount := 0},placeholders)

def updateUses (mp : Priv) (stray : Nat → Nat → Nat) (mi : Sta) : List (Nat × Nat) :=
  let out := (List.range mp.groupsNb).foldl (updateGroup mp stray) (updateStart mi)
  foldUses (updateGroup mp stray) (groupUses mp stray) (updateStart mi) (List.range mp.groupsNb) ++
    assignUses out.1 mp out.2.mcs out.2.cck ++ reduceUses mp {out.1 with maxTpRate := assignBestTpRates out.1 mp out.2.mcs out.2.cck}

-- The masks that they are found by stay.
def countUses (mp : Priv) (mi : Sta) : List TxRate → List (Nat × Nat)
  | [] => []
  | rate :: rest => if !txstatValid mp rate then [] else statsPlace mp mi rate :: countUses mp mi rest

def downgradeUses (supported : Nat → Nat) (orig : Nat) : Nat → List (Nat × Nat)
  | 0 => []
  | group + 1 =>
    (group,0) :: if supported group = 0 ∨ streams group > streams orig then downgradeUses supported orig group else []

def checkUses (mp : Priv) (mi : Sta) (index : Nat) : List (Nat × Nat) :=
  whole mp index ::
    if dying mi mp index then
      (index / mp.groupRates,0) :: downgradeUses (fun group => (mi.groups group).supported) (index / mp.groupRates) (index / mp.groupRates)
    else []

-- After the counting, and after each check for a sudden death.
def counted (mp : Priv) (mi : Sta) (info : TxStatus) : Sta :=
  let ackLen := if info.statAmpdu then info.ampduAckLen else info.ack.toNat
  let len := if info.statAmpdu then info.ampduLen else 1
  let mi := sampled {mi with ampduPackets := u32 (mi.ampduPackets + 1),ampduLen := u32 (mi.ampduLen + len)}
  let mi := if info.probe then {mi with samplePackets := u32 (mi.samplePackets + len)} else mi
  countRates mp ackLen len mi (info.rates.take 4)

def checked (mp : Priv) (mi : Sta) (j : Nat) (primary : Bool) : Sta :=
  if dying mi mp (mi.maxTpRate.getD j 0) then
    {mi with maxTpRate := mi.maxTpRate.set j (downgradeRate mi mp (mi.maxTpRate.getD j 0) primary)}
  else mi

def twiceChecked (mp : Priv) (mi : Sta) (info : TxStatus) : Sta := checked mp (checked mp (counted mp mi info) 0 true) 1 false

def statusUses (mp : Priv) (mi : Sta) (info : TxStatus) : List (Nat × Nat) :=
  if info.ctlAmpdu && !info.statAmpdu then []
  else
    let first := counted mp mi info
    let second := checked mp first 0 true
    let update := dying first mp (first.maxTpRate.getD 0 0) || dying second mp (second.maxTpRate.getD 1 0) || info.late
    countUses mp mi (info.rates.take 4) ++ checkUses mp first (first.maxTpRate.getD 0 0) ++ checkUses mp second (second.maxTpRate.getD 1 0) ++
      (if info.late then updateUses mp info.stray (twiceChecked mp mi info) else []) ++
      if update then (updateRates mp (txStatus mp mi info)).map (whole mp) else []

def Known (mp : Priv) (rate : TxRate) : Prop :=
  if rate.mcs then rate.idx < 24
  else rate.vhtMcs = true → mp.vht = true ∧ rate.idx < 48 ∧ rate.idx % 16 < 10 ∧ ¬(rate.width40 = true ∧ rate.width80 = true)

def carefulRate (mp : Priv) (group : Nat) (acc : Sta × Lists) (i : Nat) : Prop :=
  let mi := countedRate acc.1 group i
  (acc.1.groups group).supported.testBit i = true → hasThroughput mi group i → ¬passedOver mi mp (mp.groupRates * group + i) →
    ((mi.groups group).rates i).probEwma ≤ minstrelFrac 75 100 → group = 0 ∨ (mi.groups group).maxGroupProbRate = 0

def carefulGroup (mp : Priv) (stray : Nat → Nat → Nat) (acc : Sta × Lists) (group : Nat) : Prop :=
  (acc.1.groups group).supported ≠ 0 → foldAll (updateRate mp stray group) (carefulRate mp group) (groupStart acc group) (List.range mp.groupRates)

def CarefulUpdate (mp : Priv) (stray : Nat → Nat → Nat) (mi : Sta) : Prop :=
  foldAll (updateGroup mp stray) (carefulGroup mp stray) (updateStart mi) (List.range mp.groupsNb)

def Careful (mp : Priv) (mi : Sta) (info : TxStatus) : Prop :=
  (info.ctlAmpdu && !info.statAmpdu) = false → info.late = true → CarefulUpdate mp info.stray (twiceChecked mp mi info)

def Within (mp : Priv) (x : Nat) : Prop := x / mp.groupRates < mp.groupsNb

structure Held (mp : Priv) (mi : Sta) : Prop where
  tpRate : ∀ x ∈ mi.maxTpRate, Within mp x
  probRate : Within mp mi.maxProbRate
  own : ∀ group, (mi.groups group).maxGroupProbRate = 0 ∨
    group < mp.groupsNb ∧ (mi.groups group).maxGroupProbRate / mp.groupRates = group
  lists : ∀ group, ∀ x ∈ (mi.groups group).maxGroupTpRate, Within mp x

structure Keeps (mp : Priv) (acc : Sta × Lists) : Prop where
  held : Held mp acc.1
  mcs : ∀ x ∈ acc.2.mcs, Within mp x
  cck : ∀ x ∈ acc.2.cck, Within mp x
  group : ∀ x ∈ acc.2.group, Within mp x

section kept

variable {group : Nat}

theorem within_zero (mp : Priv) : Within mp 0 := by
  unfold Within
  rw [Nat.zero_div]
  exact groupsNb_pos mp

theorem within_getD {l : List Nat} (all : ∀ x ∈ l, Within mp x) (j : Nat) : Within mp (l.getD j 0) := by
  rcases getD_mem l j with zero | member
  · rw [zero]
    exact within_zero mp
  · exact all _ member

theorem Held.groupProbRate (held : Held mp mi) (group : Nat) : Within mp (mi.groups group).maxGroupProbRate := by
  rcases held.own group with zero | ⟨_,own⟩
  · rw [zero]
    exact within_zero mp
  · unfold Within
    rwa [own]

theorem Held.setGroup (held : Held mp mi) (group : Nat)
    (own : mg.maxGroupProbRate = 0 ∨ group < mp.groupsNb ∧ mg.maxGroupProbRate / mp.groupRates = group)
    (lists : ∀ x ∈ mg.maxGroupTpRate, Within mp x) : Held mp (mi.setGroup group mg) := by
  refine ⟨held.tpRate,held.probRate,?_,?_⟩
  · intro g
    by_cases same : g = group
    · subst same
      rw [setGroup_here]
      exact own
    · rw [setGroup_other mi mg same]
      exact held.own g
  · intro g
    by_cases same : g = group
    · subst same
      rw [setGroup_here]
      exact lists
    · rw [setGroup_other mi mg same]
      exact held.lists g

theorem Held.setRate (held : Held mp mi) (group i : Nat) (mrs : RateStats) : Held mp (mi.setGroup group ((mi.groups group).setRate i mrs)) :=
  held.setGroup group (held.own group) (held.lists group)

theorem sortBest_within (all : ∀ x ∈ tpList, Within mp x) (index : Within mp i) :
    ∀ x ∈ sortBestTpRates mi mp i tpList, Within mp x := by
  intro x member
  rcases mem_sortBest member with rfl | old
  · exact index
  · exact all x old

theorem Held.setBest (held : Held mp mi) (index : Within mp i) (stray : Nat → Nat) : Held mp (setBestProbRate mi mp stray i) := by
  have best : ∀ (take : Prop) [Decidable take], Held mp (if take then {mi with maxProbRate := i} else mi) := by
    intro _ _
    split
    · exact ⟨held.tpRate,index,held.own,held.lists⟩
    · exact held
  have both : ∀ mid, Held mp mid →
      Held mp (mid.setGroup (i / mp.groupRates) {mi.groups (i / mp.groupRates) with maxGroupProbRate := i}) :=
    fun mid kept => kept.setGroup _ (.inr ⟨index,rfl⟩) (held.lists _)
  unfold setBestProbRate
  dsimp only
  split
  · exact held
  · split
    · split
      · exact both _ (best _)
      · exact best _
    · split
      · exact both _ (best _)
      · exact best _

theorem index_within (below : group < mp.groupsNb) (inside : i < mp.groupRates) : Within mp (mp.groupRates * group + i) := by
  unfold Within
  rwa [index_div mp inside]

section
variable (keeps : Keeps mp acc) (below : group < mp.groupsNb)
include keeps below

theorem Keeps.updateRate (inside : i < mp.groupRates) (stray : Nat → Nat → Nat) :
    Keeps mp (updateRate mp stray group acc i) := by
  have counted : Held mp (countedRate acc.1 group i) := keeps.held.setRate group i _
  have index := index_within below inside
  unfold MinstrelHt.updateRate
  split
  · exact keeps
  dsimp only
  split
  · exact ⟨counted,keeps.mcs,keeps.cck,keeps.group⟩
  · refine ⟨counted.setBest index _,?_,?_,sortBest_within keeps.group index⟩
    · unfold listRate
      split
      · exact sortBest_within keeps.mcs index
      · exact keeps.mcs
    · unfold listRate
      split
      · exact keeps.cck
      · exact sortBest_within keeps.cck index

theorem Keeps.groupStart : Keeps mp (groupStart acc group) := by
  refine ⟨⟨keeps.held.tpRate,keeps.held.probRate,keeps.held.own,keeps.held.lists⟩,keeps.mcs,keeps.cck,?_⟩
  intro x member
  rw [List.eq_of_mem_replicate member]
  exact Nat.lt_of_le_of_lt (Nat.div_le_self _ _) below

theorem Keeps.updateGroup (stray : Nat → Nat → Nat) : Keeps mp (updateGroup mp stray acc group) := by
  unfold MinstrelHt.updateGroup
  dsimp only
  split
  · exact keeps
  · have out : Keeps mp ((List.range mp.groupRates).foldl (MinstrelHt.updateRate mp stray group) (MinstrelHt.groupStart acc group)) :=
      List.foldlRecOn (motive := Keeps mp) _ _ (keeps.groupStart below) fun acc kept i member =>
        kept.updateRate below (mem_range.mp member) stray
    exact ⟨out.held.setGroup group (out.held.own group) out.group,out.mcs,out.cck,out.group⟩

end

theorem Held.updateStart (held : Held mp mi) : Keeps mp (updateStart mi) := by
  have averaged : Held mp (averaged mi) := by
    unfold MinstrelHt.averaged
    split
    · exact {held with}
    · exact held
  have zeros : ∀ x ∈ List.replicate maxThrRates 0, Within mp x := by
    intro x member
    rw [List.eq_of_mem_replicate member]
    exact within_zero mp
  exact ⟨{averaged with},zeros,zeros,nofun⟩

theorem Held.groups (held : Held mp mi) (stray : Nat → Nat → Nat) :
    Keeps mp ((List.range mp.groupsNb).foldl (MinstrelHt.updateGroup mp stray) (MinstrelHt.updateStart mi)) :=
  List.foldlRecOn (motive := Keeps mp) _ _ held.updateStart fun _ kept _ member => kept.updateGroup (mem_range.mp member) stray

theorem Keeps.assign (keeps : Keeps mp acc) : Held mp {acc.1 with maxTpRate := assignBestTpRates acc.1 mp acc.2.mcs acc.2.cck} :=
  ⟨fun x member => (mem_assign member).elim (keeps.mcs x) (keeps.cck x),keeps.held.probRate,keeps.held.own,keeps.held.lists⟩

section
variable (held : Held mp mi)
include held

theorem Held.updateStats (stray : Nat → Nat → Nat) : Held mp (updateStats mp stray mi) := by
  have assigned := (held.groups stray).assign
  unfold MinstrelHt.updateStart at assigned
  unfold MinstrelHt.updateStats
  dsimp only
  generalize (List.range mp.groupsNb).foldl (MinstrelHt.updateGroup mp stray) _ = out at assigned
  obtain ⟨_,same,from_⟩ := probRate_kept {out.1 with maxTpRate := assignBestTpRates out.1 mp out.2.mcs out.2.cck} mp
  rw [same]
  refine ⟨assigned.tpRate,?_,assigned.own,assigned.lists⟩
  rcases from_ with here | ⟨group,here⟩
  · rw [here]
    exact assigned.probRate
  · rw [here]
    exact assigned.groupProbRate group

theorem Held.countRates (ackLen ampduLen : Nat) (rates : List TxRate) : Held mp (countRates mp ackLen ampduLen mi rates) := by
  induction rates generalizing mi with
  | nil => exact held
  | cons rate rest ih =>
    unfold MinstrelHt.countRates
    split
    · exact held
    · exact ih (held.setRate _ _ _)

theorem Held.counted (info : TxStatus) : Held mp (counted mp mi info) := by
  have sampled : ∀ mid, Held mp mid → Held mp (sampled mid) := by
    intro mid kept
    unfold MinstrelHt.sampled
    split
    · exact {kept with}
    · exact kept
  have probed : ∀ mid, Held mp mid → ∀ packets, Held mp (if info.probe then {mid with samplePackets := packets} else mid) := by
    intro _ kept _
    split
    · exact {kept with}
    · exact kept
  refine (probed _ (sampled _ ?_) _).countRates _ _ _
  exact {held with}

theorem Held.downgrade (index : Within mp i) (primary : Bool) : Within mp (downgradeRate mi mp i primary) := by
  unfold downgradeRate
  dsimp only
  split
  · exact within_getD (held.lists _) _
  · exact index

theorem Held.checked (j : Nat) (primary : Bool) : Held mp (checked mp mi j primary) := by
  unfold MinstrelHt.checked
  split
  · refine ⟨fun x member => ?_,held.probRate,held.own,held.lists⟩
    rcases List.mem_or_eq_of_mem_set member with old | rfl
    · exact held.tpRate x old
    · exact held.downgrade (within_getD held.tpRate j) primary
  · exact held

theorem Held.twiceChecked (info : TxStatus) : Held mp (twiceChecked mp mi info) :=
  ((held.counted info).checked 0 true).checked 1 false

theorem Held.txStatus (info : TxStatus) : Held mp (txStatus mp mi info) := by
  unfold MinstrelHt.txStatus
  split
  · exact held
  · show Held mp (if info.late then MinstrelHt.updateStats mp info.stray (MinstrelHt.twiceChecked mp mi info) else MinstrelHt.twiceChecked mp mi info)
    split
    · exact (held.twiceChecked info).updateStats info.stray
    · exact held.twiceChecked info

end

theorem cleared_held (mp : Priv) (caps : Caps) : Held mp (cleared mp caps) := by
  have zeros : ∀ x ∈ List.replicate maxThrRates 0, Within mp x := by
    intro x member
    rw [List.eq_of_mem_replicate member]
    exact within_zero mp
  exact ⟨zeros,within_zero mp,fun _ => .inl rfl,fun _ => zeros⟩

theorem reach_held (reach : Reach mp caps mi) : Held mp mi := by
  induction reach with
  | init stray => exact (cleared_held mp caps).updateStats stray
  | status prior info ih => exact ih.txStatus info

end kept

section uses

variable {mp : Priv}

theorem groupRates_zero (mp : Priv) : 0 < mp.groupRates := Nat.lt_of_lt_of_le (by decide) (groupRates_pos mp)

theorem whole_inRange (within : Within mp i) : InRange mp (whole mp i) := ⟨within,Nat.mod_lt _ (groupRates_zero mp)⟩

theorem group_inRange (below : group < mp.groupsNb) : InRange mp (group,0) := ⟨below,groupRates_zero mp⟩

theorem sort_inRange (all : ∀ x ∈ tpList, Within mp x) (index : Within mp i) : ∀ use ∈ sortUses mi mp i tpList, InRange mp use := by
  have scan : ∀ n, ∀ use ∈ scanUses mi mp i tpList n, InRange mp use := by
    intro n
    induction n with
    | zero => exact nofun
    | succ j ih =>
      refine forall_mem_cons.mpr ⟨whole_inRange (within_getD all j),?_⟩
      split
      · exact nofun
      · exact ih
  exact forall_mem_cons.mpr ⟨whole_inRange index,scan _⟩

theorem own_inRange (held : Held mp mi) (below : group < mp.groupsNb) :
    InRange mp (group,(mi.groups group).maxGroupProbRate) ↔ group = 0 ∨ (mi.groups group).maxGroupProbRate = 0 := by
  refine (and_iff_right below).trans ?_
  have division : (mi.groups group).maxGroupProbRate < mp.groupRates ↔ (mi.groups group).maxGroupProbRate / mp.groupRates = 0 := by
    rw [Nat.div_eq_zero_iff_lt (groupRates_zero mp)]
  rw [division]
  rcases held.own group with zero | ⟨_,own⟩
  · rw [zero]
    simp
  · rw [own]
    constructor
    · exact .inl
    · rintro (first | zero)
      · exact first
      · rw [← own,zero,Nat.zero_div]

theorem bestProb_inRange (held : Held mp mi) (below : group < mp.groupsNb) (inside : i < mp.groupRates) :
    (∀ use ∈ bestProbUses mi mp (mp.groupRates * group + i), InRange mp use) ↔
      (¬passedOver mi mp (mp.groupRates * group + i) → ((mi.groups group).rates i).probEwma ≤ minstrelFrac 75 100 →
        group = 0 ∨ (mi.groups group).maxGroupProbRate = 0) := by
  unfold bestProbUses
  rw [forall_mem_cons,forall_mem_cons,and_iff_right (whole_inRange (index_within below inside)),and_iff_right (whole_inRange held.probRate),
    index_div mp inside,index_mod mp inside]
  by_cases passed : passedOver mi mp (mp.groupRates * group + i)
  · rw [if_pos passed]
    exact iff_of_true nofun fun other => absurd passed other
  · rw [if_neg passed]
    by_cases high : ((mi.groups group).rates i).probEwma > minstrelFrac 75 100
    · rw [if_pos high]
      refine iff_of_true ?_ fun _ low => absurd high (Nat.not_lt.mpr low)
      exact List.forall_mem_singleton.mpr (whole_inRange (held.groupProbRate group))
    · rw [if_neg high,List.forall_mem_singleton,own_inRange held below]
      exact ⟨fun safe _ _ => safe,fun safe => safe passed (Nat.not_lt.mp high)⟩

theorem rate_inRange (keeps : Keeps mp acc) (below : group < mp.groupsNb) (inside : i < mp.groupRates) :
    (∀ use ∈ rateUses mp group acc i, InRange mp use) ↔ carefulRate mp group acc i := by
  have counted : Held mp (countedRate acc.1 group i) := keeps.held.setRate group i _
  have index := index_within below inside
  unfold rateUses carefulRate
  by_cases supported : (acc.1.groups group).supported.testBit i = true
  · rw [if_neg (by simp [supported]),forall_mem_cons,and_iff_right ⟨below,inside⟩]
    by_cases some_ : hasThroughput (countedRate acc.1 group i) group i
    · have list : ∀ x ∈ (if group ≠ cckGroup then acc.2.mcs else acc.2.cck), Within mp x := by
        split
        · exact keeps.mcs
        · exact keeps.cck
      rw [if_pos some_,forall_mem_append,forall_mem_append,and_iff_right (sort_inRange list index),
        and_iff_right (sort_inRange keeps.group index),bestProb_inRange counted below inside]
      exact ⟨fun safe _ _ => safe,fun safe => safe supported some_⟩
    · rw [if_neg some_]
      exact iff_of_true nofun fun _ throughput => absurd throughput some_
  · rw [if_pos (by simp [supported])]
    exact iff_of_true nofun fun bit => absurd bit supported

theorem group_inRange_iff (keeps : Keeps mp acc) (below : group < mp.groupsNb) (stray : Nat → Nat → Nat) :
    (∀ use ∈ groupUses mp stray acc group, InRange mp use) ↔ carefulGroup mp stray acc group := by
  unfold groupUses carefulGroup
  rw [forall_mem_cons,and_iff_right (group_inRange below)]
  by_cases empty : (acc.1.groups group).supported = 0
  · rw [if_pos empty]
    exact iff_of_true nofun fun some_ => absurd empty some_
  · rw [if_neg empty]
    refine (foldUses_iff (Keeps mp) _ (keeps.groupStart below) ?_ ?_).trans ⟨fun all _ => all,fun all => all empty⟩
    · exact fun acc i member kept => kept.updateRate below (mem_range.mp member) stray
    · exact fun acc i member kept => rate_inRange kept below (mem_range.mp member)

theorem assign_inRange (mcs cck : List Nat) (allMcs : ∀ x ∈ mcs, Within mp x) (allCck : ∀ x ∈ cck, Within mp x) :
    ∀ use ∈ assignUses mi mp mcs cck, InRange mp use := by
  refine forall_mem_cons.mpr ⟨whole_inRange (within_getD allCck 0),forall_mem_cons.mpr ⟨whole_inRange (within_getD allMcs 0),?_⟩⟩
  split
  · refine (foldUses_iff (p := fun _ _ => True) (fun mcs => ∀ x ∈ mcs, Within mp x) cck allMcs ?_ ?_).mpr ?_
    · exact fun mcs index member all => sortBest_within all (allCck index member)
    · exact fun mcs index member all => iff_of_true (sort_inRange all (allCck index member)) trivial
    · exact foldAll_of (fun _ => True) cck trivial fun _ _ _ _ => ⟨trivial,trivial⟩
  · exact nofun

theorem reduce_inRange (held : Held mp mi) : ∀ use ∈ reduceUses mp mi, InRange mp use := by
  refine forall_mem_cons.mpr ⟨⟨within_getD held.tpRate 0,groupRates_zero mp⟩,?_⟩
  intro _ member
  obtain ⟨_,low,inside⟩ := List.mem_flatMap.mp member
  have below := mem_range.mp low
  rcases List.mem_cons.mp inside with rfl | more
  · exact group_inRange below
  · split at more
    · cases more
    · rw [mem_singleton.mp more]
      exact ⟨below,Nat.mod_lt _ (groupRates_zero mp)⟩

theorem update_inRange (held : Held mp mi) (stray : Nat → Nat → Nat) :
    (∀ use ∈ updateUses mp stray mi, InRange mp use) ↔ CarefulUpdate mp stray mi := by
  have out := held.groups stray
  unfold updateUses CarefulUpdate
  rw [forall_mem_append,forall_mem_append,and_iff_left (reduce_inRange out.assign),and_iff_left (assign_inRange _ _ out.mcs out.cck)]
  refine foldUses_iff (Keeps mp) _ held.updateStart ?_ ?_
  · exact fun acc group member kept => kept.updateGroup (mem_range.mp member) stray
  · exact fun acc group member kept => group_inRange_iff kept (mem_range.mp member) stray

theorem known_inRange (known : Known mp rate) (valid : txstatValid mp rate = true) : InRange mp (statsPlace mp mi rate) := by
  have positive : 0 ≤ rate.idx := by
    by_contra negative
    unfold txstatValid at valid
    rw [if_pos (by omega)] at valid
    cases valid
  have sgi := Bool.toNat_le rate.shortGi
  have wide := Bool.toNat_le rate.width40
  have rates := groupRates_pos mp
  have groups : 13 ≤ mp.groupsNb := by
    unfold Priv.groupsNb
    split <;> omega
  unfold statsPlace InRange
  unfold Known at known
  by_cases mcs : rate.mcs = true
  · rw [if_pos mcs] at known ⊢
    dsimp only [maxStreams]
    omega
  rw [if_neg mcs] at known ⊢
  by_cases vht : rate.vhtMcs = true
  · obtain ⟨build,_,_,widths⟩ := known vht
    have widths : rate.width40.toNat + 2 * rate.width80.toNat ≤ 2 := by
      revert widths
      cases rate.width40 <;> cases rate.width80 <;> decide
    rw [if_pos vht]
    unfold Priv.groupsNb Priv.groupRates
    rw [if_pos build,if_pos build]
    dsimp only [maxStreams,vhtGroup0]
    omega
  rw [if_neg vht]
  have four : ((List.range 4).find? fun i => rate.idx == mp.cckRates i).getD 4 < 4 := by
    unfold txstatValid at valid
    rw [if_neg (by omega)] at valid
    split at valid
    · cases valid
    rw [if_neg (by simp [mcs,vht])] at valid
    have some_ : ∃ i < 4, (rate.idx == mp.cckRates i) = true := by
      rcases Bool.or_eq_true_iff.mp valid with rest | three
      · rcases Bool.or_eq_true_iff.mp rest with rest | two
        · rcases Bool.or_eq_true_iff.mp rest with zero | one
          · exact ⟨0,by decide,zero⟩
          · exact ⟨1,by decide,one⟩
        · exact ⟨2,by decide,two⟩
      · exact ⟨3,by decide,three⟩
    obtain ⟨i,low,here⟩ := some_
    cases found : (List.range 4).find? fun i => rate.idx == mp.cckRates i with
    | none => exact absurd here (List.find?_eq_none.mp found i (mem_range.mpr low))
    | some => exact mem_range.mp (List.mem_of_find?_eq_some found)
  refine ⟨Nat.lt_of_lt_of_le (Nat.lt_succ_self 12) groups,?_⟩
  dsimp only
  split <;> omega

theorem count_inRange (rates : List TxRate) (known : ∀ rate ∈ rates, Known mp rate) : ∀ use ∈ countUses mp mi rates, InRange mp use := by
  induction rates with
  | nil => exact nofun
  | cons rate rest ih =>
    unfold countUses
    split
    · exact nofun
    · rename_i valid
      refine forall_mem_cons.mpr ⟨known_inRange (known rate (List.mem_cons_self ..)) (by simpa using valid),?_⟩
      exact ih fun rate member => known rate (List.mem_cons_of_mem _ member)

theorem downgrade_inRange (supported : Nat → Nat) (orig : Nat) (n : Nat) (below : n ≤ mp.groupsNb) :
    ∀ use ∈ downgradeUses supported orig n, InRange mp use := by
  induction n with
  | zero => exact nofun
  | succ n ih =>
    refine forall_mem_cons.mpr ⟨group_inRange (by omega),?_⟩
    split
    · exact ih (by omega)
    · exact nofun

theorem check_inRange (within : Within mp i) : ∀ use ∈ checkUses mp mi i, InRange mp use := by
  refine forall_mem_cons.mpr ⟨whole_inRange within,?_⟩
  split
  · exact forall_mem_cons.mpr ⟨⟨within,groupRates_zero mp⟩,downgrade_inRange _ _ _ (Nat.le_of_lt within)⟩
  · exact nofun

theorem table_inRange (held : Held mp mi) : ∀ use ∈ (updateRates mp mi).map (whole mp), InRange mp use := by
  intro _ member
  obtain ⟨_,programmed,rfl⟩ := List.mem_map.mp member
  refine whole_inRange ?_
  unfold updateRates at programmed
  simp only [List.mem_append,mem_singleton] at programmed
  rcases programmed with (rfl | second) | third
  · exact within_getD held.tpRate 0
  · split at second
    · cases mem_singleton.mp second
      exact within_getD held.tpRate 1
    · cases second
  · split at third
    · cases mem_singleton.mp third
      exact held.probRate
    · cases third

theorem status_inRange (held : Held mp mi) (info : TxStatus) (known : ∀ rate ∈ info.rates.take 4, Known mp rate) :
    (∀ use ∈ statusUses mp mi info, InRange mp use) ↔ Careful mp mi info := by
  have counted := held.counted info
  unfold statusUses Careful
  by_cases aggregated : (info.ctlAmpdu && !info.statAmpdu) = true
  · rw [if_pos aggregated]
    exact iff_of_true nofun fun other => absurd (aggregated.symm.trans other) (by decide)
  rw [if_neg aggregated]
  rw [forall_mem_append,forall_mem_append,forall_mem_append,forall_mem_append,and_iff_right (count_inRange _ known),
    and_iff_right (check_inRange (within_getD counted.tpRate 0)),and_iff_right (check_inRange (within_getD (counted.checked 0 true).tpRate 1))]
  rw [and_iff_left]
  · by_cases late : info.late = true
    · rw [if_pos late,update_inRange (held.twiceChecked info)]
      exact ⟨fun careful _ _ => careful,fun careful => careful (by simpa using aggregated) late⟩
    · rw [if_neg late]
      exact iff_of_true nofun fun _ on => absurd on late
  · split
    · exact table_inRange (held.txStatus info)
    · exact nofun

theorem idle_careful (idle : Idle acc.1) : carefulRate mp group acc i := by
  intro _ throughput
  unfold hasThroughput at throughput
  rw [(countedRate_idle idle group i group i).2] at throughput
  exact absurd (tpAvg_zero _ group i) throughput

theorem idle_group (idle : Idle acc.1) (stray : Nat → Nat → Nat) :
    carefulGroup mp stray acc group ∧ Idle (updateGroup mp stray acc group).1 := by
  refine ⟨fun _ => ?_,?_⟩
  · exact foldAll_of (fun acc => Idle acc.1) _ idle fun acc i _ idle => ⟨idle_careful idle,(updateRate_idle idle mp stray group i).1⟩
  · have start : Idle (groupStart acc group).1 := idle
    have out := (updateAll_idle start mp stray group (List.range mp.groupRates)).1
    unfold updateGroup
    dsimp only
    split
    · exact idle
    · exact idle_setGroup out group (out group)

def capsUses (mp : Priv) (caps : Caps) (stray : Nat → Nat → Nat) : List (Nat × Nat) :=
  updateUses mp stray (cleared mp caps) ++ (updateRates mp (updateCaps mp caps stray)).map (whole mp)

theorem caps_inRange (mp : Priv) (caps : Caps) (stray : Nat → Nat → Nat) : ∀ use ∈ capsUses mp caps stray, InRange mp use := by
  have held := cleared_held mp caps
  have careful : CarefulUpdate mp stray (cleared mp caps) :=
    foldAll_of (fun acc => Idle acc.1) _ (fun _ _ => ⟨rfl,rfl⟩) fun acc group _ idle => idle_group idle stray
  exact forall_mem_append.mpr ⟨(update_inRange held stray).mpr careful,table_inRange (held.updateStats stray)⟩

end uses

theorem ht_indices_safe (mp : Priv) (caps : Caps) :
    (∀ stray, ∀ use ∈ capsUses mp caps stray, InRange mp use) ∧
      ∀ mi, Reach mp caps mi → ∀ info : TxStatus, (∀ rate ∈ info.rates.take 4, Known mp rate) →
        ((∀ use ∈ statusUses mp mi info, InRange mp use) ↔ Careful mp mi info) :=
  ⟨caps_inRange mp caps,fun _ reach info known => status_inRange (reach_held reach) info known⟩

-- A rate of the second group was sent twice and acknowledged once.
def plainBuild : Priv := {vhtBuild with vht := false,vhtOnly := false}

def twoStreams : Caps := {vhtStation with vhtSupported := false,rxMask := fun nss => if nss < 2 then 0xff else 0}

def halfSent (idx : Int) (late : Bool) : TxStatus where
  ctlAmpdu := false
  statAmpdu := false
  ack := true
  probe := false
  ampduAckLen := 0
  ampduLen := 0
  rates := [⟨idx,2,true,false,false,false,false⟩]
  late := late
  stray := fun _ _ => 0

theorem ht_indices_safe_sample : (∀ use ∈ statusUses plainBuild (updateCaps plainBuild twoStreams fun _ _ => 0) (halfSent 9 false),
      InRange plainBuild use) ↔ Careful plainBuild (updateCaps plainBuild twoStreams fun _ _ => 0) (halfSent 9 false) := by
  refine (ht_indices_safe plainBuild twoStreams).2 _ (.init fun _ _ => 0) (halfSent 9 false) fun rate member => ?_
  cases mem_singleton.mp member
  unfold Known
  decide

theorem stray_index : ∃ mi, Reach plainBuild twoStreams mi ∧ (∀ rate ∈ (halfSent 10 true).rates, Known plainBuild rate) ∧
    ¬∀ use ∈ statusUses plainBuild mi (halfSent 10 true), InRange plainBuild use := by
  refine ⟨_,.status (.init fun _ _ => 0) (halfSent 9 false),fun rate member => ?_,fun safe => ?_⟩
  · cases mem_singleton.mp member
    unfold Known
    decide
  · exact absurd (safe (1,9) (by decide +kernel)).2 (by decide)

end Mac80211.MinstrelHt

import Mac80211.MinstrelHt

namespace Mac80211.Minstrel
open Function (update update_apply)
open MinstrelHt (RateStats calcRateStats u8 s32 minstrelFrac maxThrRates)

-- Without bitrate and ack_time, and with two retry counts of its stats.
structure Rate where
  rix : Int
  retryCountCts : Nat
  retryCount : Nat
  retryCountRtscts : Nat
  adjustedRetryCount : Nat
  perfectTxTime : Nat
  sampleLimit : Int
  stats : RateStats

-- Rates are bits of a u32. Past the array r is what lies there.
structure Sta where
  size : Nat
  nRates : Nat
  r : Nat → Rate
  maxTpRate : List Nat
  maxProbRate : Nat
  lowestRix : Nat
  allocated : nRates ≤ size
  bits : nRates ≤ 32

def Rate.tpAvg (mr : Rate) (prob : Int) : Int :=
  let usecs := if s32 mr.perfectTxTime = 0 then 1000000 else s32 mr.perfectTxTime
  if mr.stats.probEwma < minstrelFrac 10 100 then 0
  else s32 (100000 * s32 (Int.tdiv (if prob > minstrelFrac 90 100 then minstrelFrac 90 100 else prob) usecs)) / 65536

def Rate.tp (mr : Rate) : Int := mr.tpAvg (s32 mr.stats.probEwma)

-- tmp_mrs starts at rate 3 of the station, not at the last of the list.
def listedTp (r : Nat → Rate) (tpList : List Nat) (j : Nat) : Int :=
  let mr := r (tpList.getD (j - 1) 0)
  mr.tpAvg (s32 (if j = maxThrRates then r (maxThrRates - 1) else mr).stats.probEwma)

def sortScan (r : Nat → Rate) (i : Nat) (tpList : List Nat) : Nat → Nat
  | 0 => 0
  | j + 1 => if (r i).tp > listedTp r tpList (j + 1) then sortScan r i tpList j else j + 1

def sortBestTpRates (r : Nat → Rate) (i : Nat) (tpList : List Nat) : List Nat :=
  let j := sortScan r i tpList maxThrRates
  if j < maxThrRates then (tpList.take j ++ u8 i :: tpList.drop j).take maxThrRates else tpList

def Rate.counted (mr : Rate) : Rate :=
  let mrs := calcRateStats mr.stats
  let seldom := decide (mrs.probEwma > minstrelFrac 95 100) || decide (mrs.probEwma < minstrelFrac 10 100)
  let count := if seldom then min (mr.retryCount / 2) 2 else mr.retryCount
  {mr with stats := mrs,sampleLimit := if seldom then 4 else -1,adjustedRetryCount := if count = 0 then 2 else count}

structure Round where
  r : Nat → Rate
  tpList : List Nat
  probRate : Nat

def Round.next (s : Round) (i : Nat) : Round :=
  let r := update s.r i (s.r i).counted
  let better :=
    if (r i).stats.probEwma ≥ minstrelFrac 95 100 then decide ((r i).tp ≥ (r s.probRate).tp)
    else decide ((r i).stats.probEwma ≥ (r s.probRate).stats.probEwma)
  ⟨r,sortBestTpRates r i s.tpList,if better then u8 i else s.probRate⟩

def rounds (r : Nat → Rate) : Nat → Round
  | 0 => ⟨r,List.replicate maxThrRates 0,0⟩
  | i + 1 => (rounds r i).next i

def updateStats (mi : Sta) : Sta :=
  let s := rounds mi.r mi.nRates
  {mi with r := s.r,maxTpRate := s.tpList,maxProbRate := s.probRate}

structure TableRate where
  idx : Int
  count : Nat
  countCts : Nat
  countRts : Nat

def setRate (mi : Sta) (idx : Nat) : TableRate :=
  let r := mi.r idx
  ⟨r.rix,r.adjustedRetryCount,r.retryCountCts,r.retryCountRtscts⟩

-- The rates put into the table, where there is memory for one, and the table.
def ratesSet (maxRates : Nat) (mi : Sta) : List Nat :=
  mi.maxTpRate.getD 0 0 :: (if maxRates ≥ 3 then [mi.maxTpRate.getD 1 0] else []) ++ if maxRates ≥ 2 then [mi.maxProbRate] else []

def updateRates (maxRates maxRetry : Nat) (mi : Sta) : List TableRate :=
  (ratesSet maxRates mi).map (setRate mi) ++ [⟨mi.lowestRix,maxRetry,maxRetry,maxRetry⟩]

-- A read of tp_list[], by its place in C, or of r[].
inductive Read where
  | entry (place : Int)
  | rate (index : Nat)
deriving DecidableEq

def Read.Valid (size : Nat) : Read → Prop
  | .entry place => 0 ≤ place ∧ place < maxThrRates
  | .rate index => index < size

def scanReads (r : Nat → Rate) (i : Nat) (tpList : List Nat) : Nat → List Read
  | 0 => []
  | j + 1 =>
    .entry j :: .rate (tpList.getD j 0) ::
      if (r i).tp > listedTp r tpList (j + 1) then .entry (j - 1) :: scanReads r i tpList j else []

def Round.reads (s : Round) (i : Nat) : List Read :=
  let r := (s.next i).r
  let j := sortScan r i s.tpList maxThrRates
  [.rate i,.rate s.probRate,.rate (maxThrRates - 1)] ++ scanReads r i s.tpList maxThrRates ++
    (List.range (maxThrRates - (j + 1))).map fun k => .entry (j + k : Nat)

def updateReads (maxRates : Nat) (mi : Sta) : List Read :=
  (List.range mi.nRates).flatMap (fun i => (rounds mi.r i).reads i) ++ (ratesSet maxRates (updateStats mi)).map .rate

def Round.Best (s : Round) (i : Nat) : Prop := sortScan (s.next i).r i s.tpList maxThrRates = 0

structure Picked (mi after : Sta) : Prop where
  sorted : after.maxTpRate.Pairwise fun a b => (after.r b).tp ≤ (after.r a).tp
  rate : after.maxTpRate.getD 0 0 < mi.nRates
  best : ∀ i < mi.nRates, (after.r i).tp ≤ (after.r (after.maxTpRate.getD 0 0)).tp

section

theorem sort_cases (byte : i < 256) :
    let sorted := sortBestTpRates r i [a,b,c,d]
    let j := sortScan r i [a,b,c,d] maxThrRates
    j ≠ 0 ∧ sorted = [a,b,c,d] ∨ j ≠ 0 ∧ sorted = [a,b,c,i] ∧ (r i).tp ≤ (r c).tp ∨
      j ≠ 0 ∧ sorted = [a,b,i,c] ∧ (r c).tp < (r i).tp ∧ (r i).tp ≤ (r b).tp ∨
        j ≠ 0 ∧ sorted = [a,i,b,c] ∧ (r b).tp < (r i).tp ∧ (r i).tp ≤ (r a).tp ∨
          j = 0 ∧ sorted = [i,a,b,c] ∧ (r a).tp < (r i).tp := by
  have same : u8 i = i := Nat.mod_eq_of_lt byte
  have third : listedTp r [a,b,c,d] 3 = (r c).tp := rfl
  have second : listedTp r [a,b,c,d] 2 = (r b).tp := rfl
  have first : listedTp r [a,b,c,d] 1 = (r a).tp := rfl
  simp only [sortBestTpRates,maxThrRates,sortScan,same,third,second,first,Nat.zero_add,Nat.reduceAdd]
  split <;> rename_i fourthBeats
  · split <;> rename_i thirdBeats
    · split <;> rename_i secondBeats
      · split <;> rename_i firstBeats
        · exact .inr (.inr (.inr (.inr ⟨rfl,rfl,firstBeats⟩)))
        · exact .inr (.inr (.inr (.inl ⟨nofun,rfl,secondBeats,Int.not_lt.mp firstBeats⟩)))
      · exact .inr (.inr (.inl ⟨nofun,rfl,thirdBeats,Int.not_lt.mp secondBeats⟩))
    · exact .inr (.inl ⟨nofun,rfl,Int.not_lt.mp thirdBeats⟩)
  · exact .inl ⟨nofun,rfl⟩

theorem scan_valid (entries : ∀ k, tpList.getD k 0 < size) (j : Nat) (bound : j ≤ maxThrRates) :
    (∀ read ∈ scanReads r i tpList j, read.Valid size) ↔ j = 0 ∨ sortScan r i tpList j ≠ 0 := by
  induction j with
  | zero => exact iff_of_true nofun (.inl rfl)
  | succ j ih =>
    have place : (Read.entry j).Valid size := ⟨Int.natCast_nonneg j,Int.ofNat_lt.mpr bound⟩
    have rate : (Read.rate (tpList.getD j 0)).Valid size := entries j
    rw [scanReads,sortScan,List.forall_mem_cons,List.forall_mem_cons]
    split
    · have below : (Read.entry (j - 1)).Valid size ↔ j ≠ 0 := by
        simp only [Read.Valid]
        omega
      rw [List.forall_mem_cons,below,ih (by omega)]
      cases j with
      | zero => exact ⟨fun valid => absurd rfl valid.2.2.1,fun reached => absurd rfl (reached.resolve_left nofun)⟩
      | succ j =>
        rw [and_iff_right place,and_iff_right rate,and_iff_right j.succ_ne_zero,or_iff_right j.succ_ne_zero,or_iff_right (j + 1).succ_ne_zero]
    · exact iff_of_true ⟨place,rate,nofun⟩ (.inr j.succ_ne_zero)

def countedTp (r : Nat → Rate) (k : Nat) : Int := (r k).counted.tp

-- Only the rates counted or the placeholder 0 are listed.
structure Listed (r : Nat → Rate) (i : Nat) (s : Round) : Prop where
  rates : ∀ k, s.r k = if k < i then (r k).counted else r k
  prob : s.probRate < max 1 i
  below : ∀ k ∈ s.tpList, k < max 1 i
  four : ∃ a b c d, s.tpList = [a,b,c,d]
  sorted : s.tpList.Pairwise fun a b => countedTp r b ≤ countedTp r a

theorem Listed.of_four (rates : ∀ k, s.r k = if k < i + 1 then (r k).counted else r k) (list : s.tpList = [a,b,c,d])
    (below : s.probRate < i + 1 ∧ a < i + 1 ∧ b < i + 1 ∧ c < i + 1 ∧ d < i + 1)
    (sorted : countedTp r b ≤ countedTp r a ∧ countedTp r c ≤ countedTp r b ∧ countedTp r d ≤ countedTp r c) : Listed r (i + 1) s := by
  refine ⟨rates,by omega,?_,⟨a,b,c,d,list⟩,?_⟩
  · rw [list]
    simp only [List.forall_mem_cons]
    exact ⟨by omega,by omega,by omega,by omega,nofun⟩
  · rw [list]
    simp only [List.pairwise_cons,List.forall_mem_cons]
    refine ⟨⟨sorted.1,?_,?_,nofun⟩,⟨sorted.2.1,?_,nofun⟩,⟨sorted.2.2,nofun⟩,nofun,.nil⟩ <;> omega

theorem Listed.after (listed : Listed r i s) (k : Nat) : (s.next i).r k = if k < i + 1 then (r k).counted else r k := by
  simp only [Round.next,update_apply,listed.rates]
  grind

theorem Listed.tp (listed : Listed r i s) (member : k < i + 1) : ((s.next i).r k).tp = countedTp r k := by
  rw [listed.after,if_pos member,countedTp]

theorem Listed.turn (listed : Listed r i s) (byte : i < 256) : Listed r (i + 1) (s.next i) ∧
      (¬s.Best i ∧ (s.next i).tpList.getD 0 0 = s.tpList.getD 0 0 ∨
        s.Best i ∧ countedTp r (s.tpList.getD 0 0) < countedTp r i) := by
  obtain ⟨a,b,c,d,shape⟩ := listed.four
  have below := listed.below
  have sorted := listed.sorted
  simp only [shape,List.forall_mem_cons,List.pairwise_cons] at below sorted
  have cases := sort_cases (r := (s.next i).r) (a := a) (b := b) (c := c) (d := d) byte
  rw [listed.tp (by omega : a < i + 1),listed.tp (by omega : b < i + 1),listed.tp (by omega : c < i + 1),
    listed.tp i.lt_succ_self] at cases
  have best : s.Best i ↔ sortScan (s.next i).r i [a,b,c,d] maxThrRates = 0 := by rw [Round.Best,shape]
  have list : (s.next i).tpList = sortBestTpRates (s.next i).r i [a,b,c,d] := by rw [← shape]; rfl
  have chosen : (s.next i).probRate = u8 i ∨ (s.next i).probRate = s.probRate := ite_eq_or_eq ..
  have same : u8 i = i := Nat.mod_eq_of_lt byte
  have prob := listed.prob
  rw [best,shape]
  simp only [← list] at cases
  rcases cases with ⟨kept,next⟩ | ⟨kept,next,_⟩ | ⟨kept,next,_⟩ | ⟨kept,next,_⟩ | ⟨first,next,beaten⟩
  · exact ⟨.of_four listed.after next (by omega) (by omega),.inl ⟨kept,by rw [next]⟩⟩
  · exact ⟨.of_four listed.after next (by omega) (by omega),.inl ⟨kept,by rw [next]; rfl⟩⟩
  · exact ⟨.of_four listed.after next (by omega) (by omega),.inl ⟨kept,by rw [next]; rfl⟩⟩
  · exact ⟨.of_four listed.after next (by omega) (by omega),.inl ⟨kept,by rw [next]; rfl⟩⟩
  · exact ⟨.of_four listed.after next (by omega) (by omega),.inr ⟨first,beaten⟩⟩

theorem rounds_listed (bits : i ≤ 256) : Listed r i (rounds r i) := by
  induction i with
  | zero =>
    have zeros : ∀ k ∈ [0,0,0,0], k < max 1 0 := by decide
    refine ⟨fun k => rfl,Nat.one_pos,zeros,⟨0,0,0,0,rfl⟩,?_⟩
    simp [rounds,maxThrRates,List.replicate]
  | succ i ih => exact (Listed.turn (ih (by omega)) (by omega)).1

theorem Listed.entry (listed : Listed r i s) (k : Nat) : s.tpList.getD k 0 < max 1 i := by
  rw [List.getD_eq_getElem?_getD]
  cases found : s.tpList[k]? with
  | none => exact Nat.lt_of_lt_of_le Nat.one_pos (Nat.le_max_left ..)
  | some rate => exact listed.below rate (List.mem_of_getElem? found)

theorem Listed.reads_valid (listed : Listed r i s) (room : i < size) :
    (∀ read ∈ s.reads i, read.Valid size) ↔ maxThrRates ≤ size ∧ ¬s.Best i := by
  have here : (Read.rate i).Valid size := room
  have prob : (Read.rate s.probRate).Valid size := Nat.lt_of_lt_of_le listed.prob (by omega)
  have entries (k : Nat) : s.tpList.getD k 0 < size := Nat.lt_of_lt_of_le (listed.entry k) (by omega)
  have moved (j : Nat) : ∀ read ∈ (List.range (maxThrRates - (j + 1))).map fun k => Read.entry (j + k : Nat), read.Valid size := by
    refine List.forall_mem_map.mpr fun k member => ⟨Int.natCast_nonneg _,Int.ofNat_lt.mpr ?_⟩
    have := List.mem_range.mp member
    omega
  simp only [Round.reads,List.forall_mem_append,List.forall_mem_cons,scan_valid entries maxThrRates le_rfl,and_iff_left (moved _)]
  have none : ∀ read ∈ ([] : List Read), read.Valid size := nofun
  rw [and_iff_right here,and_iff_right prob,and_iff_left none,or_iff_right (by decide)]
  exact Iff.rfl

theorem head_kept (bits : n ≤ 256) (behind : ∀ i < n, ¬(rounds r i).Best i) : (rounds r n).tpList.getD 0 0 = 0 := by
  induction n with
  | zero => rfl
  | succ n ih =>
    have head := ih (by omega) fun i below => behind i (Nat.lt_succ_of_lt below)
    rcases ((rounds_listed (by omega)).turn (r := r) (i := n) (by omega)).2 with ⟨_,same⟩ | ⟨best,_⟩
    · exact same.trans head
    · exact absurd best (behind n n.lt_succ_self)

theorem none_best (bits : n ≤ 256) (behind : ∀ i < n, countedTp r i ≤ countedTp r 0) : ∀ i < n, ¬(rounds r i).Best i := by
  induction n with
  | zero => nofun
  | succ n ih =>
    have before := ih (by omega) fun i below => behind i (Nat.lt_succ_of_lt below)
    intro i below
    rcases Nat.lt_succ_iff_lt_or_eq.mp below with earlier | rfl
    · exact before i earlier
    · rcases ((rounds_listed (by omega)).turn (r := r) (i := i) (by omega)).2 with ⟨behind,_⟩ | ⟨_,beaten⟩
      · exact behind
      · rw [head_kept (by omega) before] at beaten
        exact absurd (behind i below) (Int.not_le.mpr beaten)
end

theorem updated_listed (mi : Sta) : Listed mi.r mi.nRates (rounds mi.r mi.nRates) := rounds_listed (by have := mi.bits; omega)

section
variable (maxRates : Nat) (mi : Sta) (rated : 1 ≤ mi.nRates)
include rated

theorem set_valid (member : rate ∈ ratesSet maxRates (updateStats mi)) : rate < mi.nRates := by
  have listed := updated_listed mi
  have head := listed.entry 0
  have second := listed.entry 1
  have prob := listed.prob
  simp only [ratesSet,updateStats] at member
  grind

theorem reads_valid_iff :
    (∀ read ∈ updateReads maxRates mi, read.Valid mi.size) ↔ maxThrRates ≤ mi.size ∧ ∀ i < mi.nRates, ¬(rounds mi.r i).Best i := by
  have allocated := mi.allocated
  have each (i : Nat) (below : i < mi.nRates) :
      (∀ read ∈ (rounds mi.r i).reads i, read.Valid mi.size) ↔ maxThrRates ≤ mi.size ∧ ¬(rounds mi.r i).Best i :=
    (rounds_listed (by have := mi.bits; omega)).reads_valid (by omega)
  constructor
  · intro valid
    have round (i : Nat) (below : i < mi.nRates) := (each i below).mp fun read member =>
      valid read (List.mem_append_left _ (List.mem_flatMap.mpr ⟨i,List.mem_range.mpr below,member⟩))
    exact ⟨(round 0 rated).1,fun i below => (round i below).2⟩
  · intro ⟨room,behind⟩ read member
    rcases List.mem_append.mp member with loop | table
    · obtain ⟨i,below,member⟩ := List.mem_flatMap.mp loop
      have below := List.mem_range.mp below
      exact (each i below).mpr ⟨room,behind i below⟩ read member
    · obtain ⟨_,chosen,rfl⟩ := List.mem_map.mp table
      exact Nat.lt_of_lt_of_le (set_valid maxRates mi rated chosen) allocated
end

theorem best_rates_picked_iff (maxRates : Nat) (mi : Sta) (rated : 1 ≤ mi.nRates) :
    Picked mi (updateStats mi) ∧ (∀ read ∈ updateReads maxRates mi, read.Valid mi.size) ↔
      maxThrRates ≤ mi.size ∧ ∀ i < mi.nRates, (mi.r i).counted.tp ≤ (mi.r 0).counted.tp := by
  have bits := mi.bits
  have listed := updated_listed mi
  have tp (k : Nat) (below : k < mi.nRates) : ((updateStats mi).r k).tp = countedTp mi.r k := by
    have here : (updateStats mi).r k = if k < mi.nRates then (mi.r k).counted else mi.r k := listed.rates k
    rw [here,if_pos below,countedTp]
  have sorted : (updateStats mi).maxTpRate.Pairwise fun a b => ((updateStats mi).r b).tp ≤ ((updateStats mi).r a).tp := by
    refine listed.sorted.imp_of_mem fun {a b} first second order => ?_
    have := listed.below a first
    have := listed.below b second
    rw [tp a (by omega),tp b (by omega)]
    exact order
  rw [reads_valid_iff maxRates mi rated]
  constructor
  · intro ⟨picked,room,behind⟩
    have zero : (updateStats mi).maxTpRate.getD 0 0 = 0 := head_kept (by omega) behind
    refine ⟨room,fun i below => ?_⟩
    have best := picked.best i below
    rw [zero,tp i below,tp 0 rated] at best
    exact best
  · intro ⟨room,behind⟩
    have none := none_best (by omega) behind
    have zero : (updateStats mi).maxTpRate.getD 0 0 = 0 := head_kept (by omega) none
    refine ⟨⟨sorted,?_,fun i below => ?_⟩,room,none⟩
    · rw [zero]
      exact rated
    · rw [zero,tp i below,tp 0 rated]
      exact behind i below

def pair (first second : Nat) : Sta where
  size := 4
  nRates := 2
  r i := ⟨i,2,2,2,2,100,-1,⟨0,0,0,if i = 0 then first else second,0,false⟩⟩
  maxTpRate := [0,0,0,0]
  maxProbRate := 0
  lowestRix := 0
  allocated := by decide
  bits := by decide

theorem best_rates_picked_sample :
    let mi := pair 60000 0
    1 ≤ mi.nRates ∧ Picked mi (updateStats mi) ∧ ∀ read ∈ updateReads 4 mi, read.Valid mi.size :=
  ⟨by decide,(best_rates_picked_iff 4 (pair 60000 0) (by decide)).mpr ⟨by decide,by decide⟩⟩

theorem second_best_overruns :
    let mi := pair 0 60000
    1 ≤ mi.nRates ∧ ¬(Picked mi (updateStats mi) ∧ ∀ read ∈ updateReads 4 mi, read.Valid mi.size) := by
  refine ⟨by decide,fun ⟨_,valid⟩ => ?_⟩
  have before : Read.entry (-1) ∈ updateReads 4 (pair 0 60000) := by decide
  have place := (valid _ before).1
  exact absurd place (by decide)
end Mac80211.Minstrel

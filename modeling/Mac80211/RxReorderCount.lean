import Mac80211.RxReorder

namespace Mac80211.RxReorder
open Loops
open Function (update update_eq_self update_of_ne update_self)

variable {s : TidAmpduRx α}

def readySlots (s : TidAmpduRx α) : Finset Nat :=
  (Finset.range s.bufSize).filter fun i => rxReorderReady (s.reorderBuf i) = true

structure Counted (s : TidAmpduRx α) : Prop where
  positive : 0 < s.bufSize
  small : s.bufSize ≤ ieee80211MaxAmpduBuf
  head : s.headSeqNum < 4096
  count : s.storedMpduNum = (readySlots s).card

def Timed (s : TidAmpduRx α) : Prop :=
  0 < s.storedMpduNum → s.removed = false → s.reorderTimer.isSome = true

-- What a release keeps: all but the slots, the head and how many frames are stored.
structure Fewer (s t : TidAmpduRx α) : Prop where
  bufSize : t.bufSize = s.bufSize
  removed : t.removed = s.removed
  reorderTimer : t.reorderTimer = s.reorderTimer
  autoSeq : t.autoSeq = s.autoSeq
  stored : t.storedMpduNum ≤ s.storedMpduNum

theorem Fewer.refl (s : TidAmpduRx α) : Fewer s s := ⟨rfl,rfl,rfl,rfl,Nat.le_refl _⟩

theorem Fewer.trans (one : Fewer s t) (two : Fewer t u) : Fewer s u :=
  ⟨two.bufSize.trans one.bufSize,two.removed.trans one.removed,two.reorderTimer.trans one.reorderTimer,
    two.autoSeq.trans one.autoSeq,Nat.le_trans two.stored one.stored⟩

theorem Fewer.timed (fewer : Fewer s t) (timed : Timed s) : Timed t := by
  intro stored kept
  rw [fewer.reorderTimer]
  rw [fewer.removed] at kept
  exact timed (Nat.lt_of_lt_of_le stored fewer.stored) kept

theorem snInc_lt (sn : Nat) : snInc sn < 4096 := Nat.mod_lt _ (by decide)

theorem snAdd_lt (sn1 sn2 : Nat) : snAdd sn1 sn2 < 4096 := Nat.mod_lt _ (by decide)

theorem seqNum_eq (skb : Mpdu α) : skb.seqNum = skb.seqCtrl.toNat / 16 := by
  have word := skb.seqCtrl.toNat_lt
  show (skb.seqCtrl.toNat &&& 65520) >>> 4 = _
  rw [Nat.shiftRight_and_distrib,show (65520 >>> 4 : Nat) = 2 ^ 12 - 1 from rfl,Nat.and_two_pow_sub_one_eq_mod,
    Nat.shiftRight_eq_div_pow]
  omega

theorem seqNum_lt (skb : Mpdu α) : skb.seqNum < 4096 := by
  have word := skb.seqCtrl.toNat_lt
  rw [seqNum_eq]
  omega

theorem barStart_lt (startSeqNum : UInt16) : (startSeqNum >>> 4).toNat < 4096 := by
  have bound : (startSeqNum >>> 4).toNat = startSeqNum.toNat / 16 := by simp [Nat.shiftRight_eq_div_pow]
  have word := startSeqNum.toNat_lt
  omega

theorem timeAfter_self (hz : UInt16) (t : Jiffies) : timeAfter t (t + htRxReorderBufTimeout hz) = false := by
  have short : (hz / 10).toNat ≤ hz.toNat := by
    exact Nat.div_le_self _ _
  have word := hz.toNat_lt
  have span : t + htRxReorderBufTimeout hz - t = htRxReorderBufTimeout hz := by
    rw [UInt64.add_comm,UInt64.add_sub_cancel]
  unfold timeAfter
  rw [span,decide_eq_false_iff_not,UInt64.le_iff_toNat_le,htRxReorderBufTimeout,UInt16.toNat_toUInt64]
  show ¬9223372036854775808 ≤ _
  omega

@[simp] theorem ready_nil : rxReorderReady ([] : List (Mpdu α)) = false := rfl

@[simp] theorem ready_append (frames : List (Mpdu α)) (skb : Mpdu α) :
    rxReorderReady (frames ++ [skb]) = !skb.amsduMore := by
  simp [rxReorderReady]

theorem release_unready (unready : rxReorderReady (s.reorderBuf index) = false) :
    releaseReorderFrame index (s,frames) = ({s.skbQueuePurge index with headSeqNum := snInc s.headSeqNum},frames) := by
  unfold releaseReorderFrame
  cases empty : (s.reorderBuf index).isEmpty with
  | true =>
    have same : update s.reorderBuf index [] = s.reorderBuf := by
      rw [← List.isEmpty_iff.mp empty]
      exact update_eq_self _ _
    simp [empty,TidAmpduRx.skbQueuePurge,same]
  | false => simp [empty,unready,TidAmpduRx.skbQueuePurge]

theorem release_ready (ready : rxReorderReady (s.reorderBuf index) = true) :
    releaseReorderFrame index (s,frames) = ({s.skbQueuePurge index with
      headSeqNum := snInc s.headSeqNum,storedMpduNum := (s.storedMpduNum + 65535) % 65536},
      frames ++ s.reorderBuf index) := by
  have filled : (s.reorderBuf index).isEmpty = false := by
    cases empty : (s.reorderBuf index).isEmpty with
    | false => rfl
    | true => rw [List.isEmpty_iff.mp empty] at ready; cases ready
  simp [releaseReorderFrame,filled,ready,TidAmpduRx.skbQueuePurge]

theorem mem_readySlots : i ∈ readySlots s ↔ i < s.bufSize ∧ rxReorderReady (s.reorderBuf i) = true := by
  simp [readySlots]

theorem purge_slots (s : TidAmpduRx α) (index : Nat) : readySlots (s.skbQueuePurge index) = (readySlots s).erase index := by
  ext i
  by_cases same : i = index
  · subst same
    simp [mem_readySlots,TidAmpduRx.skbQueuePurge]
  · simp [mem_readySlots,TidAmpduRx.skbQueuePurge,same]

theorem readySlots_le (s : TidAmpduRx α) : (readySlots s).card ≤ s.bufSize := by
  calc (readySlots s).card ≤ (Finset.range s.bufSize).card := Finset.card_filter_le _ _
    _ = s.bufSize := Finset.card_range _

theorem Counted.purge (counted : Counted s) (unready : rxReorderReady (s.reorderBuf index) = false) :
    Counted (s.skbQueuePurge index) := by
  refine ⟨counted.positive,counted.small,counted.head,?_⟩
  have out : index ∉ readySlots s := by simp [mem_readySlots,unready]
  rw [purge_slots,Finset.erase_eq_of_notMem out]
  exact counted.count

theorem Counted.move (counted : Counted s) (small : sn < 4096) : Counted {s with headSeqNum := sn} :=
  ⟨counted.positive,counted.small,small,counted.count⟩

theorem release_counted (counted : Counted s) (inside : index < s.bufSize) (frames : List (Mpdu α)) :
    Counted (releaseReorderFrame index (s,frames)).1 ∧ Fewer s (releaseReorderFrame index (s,frames)).1 ∧
    (rxReorderReady (s.reorderBuf index) = true →
      (releaseReorderFrame index (s,frames)).1.storedMpduNum < s.storedMpduNum) := by
  cases ready : rxReorderReady (s.reorderBuf index) with
  | false =>
    rw [release_unready ready]
    refine ⟨(counted.purge ready).move (snInc_lt _),⟨rfl,rfl,rfl,rfl,Nat.le_refl _⟩,?_⟩
    intro held
    cases held
  | true =>
    rw [release_ready ready]
    have held : index ∈ readySlots s := mem_readySlots.mpr ⟨inside,ready⟩
    have least : 0 < (readySlots s).card := Finset.card_pos.mpr ⟨index,held⟩
    have most := readySlots_le s
    have small := counted.small
    have count := counted.count
    unfold ieee80211MaxAmpduBuf at small
    have lower : (s.storedMpduNum + 65535) % 65536 = s.storedMpduNum - 1 := by omega
    refine ⟨⟨counted.positive,counted.small,snInc_lt _,?_⟩,⟨rfl,rfl,rfl,rfl,?_⟩,fun _ => ?_⟩
    · show (s.storedMpduNum + 65535) % 65536 = (readySlots (s.skbQueuePurge index)).card
      rw [purge_slots,Finset.card_erase_of_mem held,lower,count]
    · show (s.storedMpduNum + 65535) % 65536 ≤ s.storedMpduNum
      omega
    · show (s.storedMpduNum + 65535) % 65536 < s.storedMpduNum
      omega

@[simp] theorem release_head (index : Nat) (w : Work α) :
    (releaseReorderFrame index w).1.headSeqNum = snInc w.1.headSeqNum := by
  obtain ⟨s,_⟩ := w
  cases ready : rxReorderReady (s.reorderBuf index) with
  | false => rw [release_unready ready]
  | true => rw [release_ready ready]

@[simp] theorem release_buf (index : Nat) (w : Work α) :
    (releaseReorderFrame index w).1.reorderBuf = update w.1.reorderBuf index [] := by
  obtain ⟨s,_⟩ := w
  cases ready : rxReorderReady (s.reorderBuf index) with
  | false =>
    rw [release_unready ready]
    rfl
  | true =>
    rw [release_ready ready]
    rfl

def ahead (headSeqNum sn : Nat) : Nat := (((sn : Int) - headSeqNum) % 4096).toNat

theorem ahead_lt (headSeqNum sn : Nat) : ahead headSeqNum sn < 4096 := by
  unfold ahead
  omega

theorem ahead_next (less : snLess headSeqNum sn = true) : ahead headSeqNum sn = ahead (snInc headSeqNum) sn + 1 := by
  simp only [snLess,decide_eq_true_eq] at less
  unfold ahead snInc snAdd
  omega

theorem slot_inside (counted : Counted s) (sn : Nat) : sn % s.bufSize < s.bufSize := Nat.mod_lt _ counted.positive

theorem releaseReorderFrames_counted (counted : Counted w.1) (fuelled : enough ≤ fuel) (headSeqNum : Nat) :
    ∃ u, releaseReorderFrames fuel headSeqNum w = some u ∧ Counted u.1 ∧ Fewer w.1 u.1 := by
  have returns := whileM_returns (fun w => snLess w.1.headSeqNum headSeqNum)
    (fun w => some (releaseReorderFrame (w.1.headSeqNum % w.1.bufSize) w)) fuel
    (fun u => Counted u.1 ∧ Fewer w.1 u.1) (fun u => ahead u.1.headSeqNum headSeqNum) ⟨counted,Fewer.refl _⟩ ?_ ?_
  · obtain ⟨u,ran,holds,_⟩ := returns
    exact ⟨u,ran,holds⟩
  · rintro ⟨s,frames⟩ ⟨counted,fewer⟩ less
    obtain ⟨next,lower,_⟩ := release_counted counted (slot_inside counted s.headSeqNum) frames
    have closer : ahead s.headSeqNum headSeqNum = ahead (snInc s.headSeqNum) headSeqNum + 1 := ahead_next less
    refine ⟨_,rfl,⟨next,fewer.trans lower⟩,?_⟩
    rw [release_head]
    show ahead (snInc s.headSeqNum) headSeqNum < ahead s.headSeqNum headSeqNum
    omega
  · have bound := ahead_lt w.1.headSeqNum headSeqNum
    unfold enough at fuelled
    omega

theorem releaseReady_counted (counted : Counted w.1) (fuelled : enough ≤ fuel) :
    ∃ u : Work α, releaseReady fuel w = some u ∧ (Counted u.1 ∧ Fewer w.1 u.1) ∧
      rxReorderReady (u.1.reorderBuf (u.1.headSeqNum % u.1.bufSize)) = false := by
  refine whileM_returns _ _ _ (fun (u : Work α) => Counted u.1 ∧ Fewer w.1 u.1) (fun u => u.1.storedMpduNum)
    ⟨counted,Fewer.refl _⟩ ?_ ?_
  · rintro ⟨s,frames⟩ ⟨counted,fewer⟩ ready
    obtain ⟨next,lower,less⟩ := release_counted counted (slot_inside counted s.headSeqNum) frames
    exact ⟨_,rfl,⟨next,fewer.trans lower⟩,less ready⟩
  · have most := readySlots_le w.1
    have small := counted.small
    rw [counted.count]
    unfold ieee80211MaxAmpduBuf at small
    unfold enough at fuelled
    omega

theorem purgeSkipped_slots (fuel index : Nat) (low : 1 ≤ k) (high : k < s.bufSize) (fuelled : s.bufSize ≤ fuel) :
    ∃ buf, purgeSkipped fuel index ((index + k) % s.bufSize) s = some {s with reorderBuf := buf} ∧
      (∀ m, 1 ≤ m → m < k → buf ((index + m) % s.bufSize) = []) ∧
      ∀ i, (∀ m, 1 ≤ m → m < k → i ≠ (index + m) % s.bufSize) → buf i = s.reorderBuf i := by
  have walk := whileM_rounds (fun (p : TidAmpduRx α × Nat) => p.2 != (index + k) % s.bufSize)
    (fun p => some (p.1.skbQueuePurge p.2,(p.2 + 1) % p.1.bufSize)) fuel (s := (s,(index + 1) % s.bufSize)) (k - 1)
    (fun r p => p.2 = (index + (1 + r)) % s.bufSize ∧ ∃ buf, p.1 = {s with reorderBuf := buf} ∧
      (∀ m, 1 ≤ m → m < 1 + r → buf ((index + m) % s.bufSize) = []) ∧
      ∀ i, (∀ m, 1 ≤ m → m < 1 + r → i ≠ (index + m) % s.bufSize) → buf i = s.reorderBuf i)
    ⟨rfl,s.reorderBuf,rfl,fun m low high => by omega,fun _ _ => rfl⟩ ?_ ?_ (by omega)
  · obtain ⟨r,⟨t,i⟩,_,ran,⟨place,buf,rfl,gone,left⟩,stopped⟩ := walk
    have there : r = k - 1 := by
      by_contra early
      have apart : (index + (1 + r)) % s.bufSize ≠ (index + k) % s.bufSize := ring_inj (by omega) (by omega) index
      simp only [bne_eq_false_iff_eq] at stopped
      exact apart (place.symm.trans stopped)
    subst there
    rw [show 1 + (k - 1) = k by omega] at gone left
    refine ⟨buf,?_,gone,left⟩
    unfold purgeSkipped
    rw [ran]
    rfl
  · rintro r ⟨t,i⟩ _ ⟨place,buf,rfl,gone,left⟩ _
    cases place
    refine ⟨_,rfl,ring_next _ _ _,update buf ((index + (1 + r)) % s.bufSize) [],rfl,?_,?_⟩
    · intro m low high
      by_cases last : m = 1 + r
      · rw [last,update_self]
      · rw [update_of_ne (ring_inj (by omega) (by omega) index)]
        exact gone m low (by omega)
    · intro i other
      rw [update_of_ne (other (1 + r) (by omega) (by omega))]
      exact left i fun m low high => other m low (by omega)
  · rintro ⟨t,i⟩ ⟨place,_⟩
    rw [show 1 + (k - 1) = k by omega] at place
    simpa using place

theorem Counted.purged (counted : Counted s)
    (unready : ∀ m, 1 ≤ m → m < k → rxReorderReady (s.reorderBuf ((index + m) % s.bufSize)) = false)
    (gone : ∀ m, 1 ≤ m → m < k → buf ((index + m) % s.bufSize) = [])
    (left : ∀ i, (∀ m, 1 ≤ m → m < k → i ≠ (index + m) % s.bufSize) → buf i = s.reorderBuf i) :
    Counted {s with reorderBuf := buf} := by
  refine ⟨counted.positive,counted.small,counted.head,counted.count.trans (congrArg Finset.card ?_)⟩
  ext i
  rw [mem_readySlots,mem_readySlots]
  show i < s.bufSize ∧ _ ↔ i < s.bufSize ∧ rxReorderReady (buf i) = true
  refine and_congr_right fun place => ?_
  by_cases met : ∃ m, 1 ≤ m ∧ m < k ∧ i = (index + m) % s.bufSize
  · obtain ⟨m,low,high,rfl⟩ := met
    rw [gone m low high,unready m low high]
    rfl
  · rw [left i fun m low high same => met ⟨m,low,high,same⟩]

theorem scanBody_release (ready : rxReorderReady (s.reorderBuf j) = true)
    (due : ¬(skipped != 0 && !timeAfter jiffies (s.reorderTime j + htRxReorderBufTimeout hz)) = true)
    (purged : purgeSkipped fuel index j s = some t) (frames : List (Mpdu α)) : scanBody fuel hz jiffies index ⟨(s,frames),skipped,j,false⟩ =
      some ⟨({(releaseReorderFrame j (t,frames)).1 with
          headSeqNum := snAdd (releaseReorderFrame j (t,frames)).1.headSeqNum skipped},
        (releaseReorderFrame j (t,frames)).2),0,(j + 1) % t.bufSize,false⟩ := by
  refine (if_neg (by simp [ready])).trans ((if_neg due).trans ?_)
  show (purgeSkipped fuel index j s).bind _ = _
  rw [purged]
  rfl

-- Out of the loop, or k slots after the head, with no complete frame in between.
def Scanned (s : TidAmpduRx α) (index k : Nat) (scan : Scan α) : Prop :=
  Counted scan.work.1 ∧ Fewer s scan.work.1 ∧ (scan.out = true ∨ scan.j = (index + (1 + k)) % s.bufSize ∧
    ∀ m, 1 ≤ m → m < 1 + k → rxReorderReady (scan.work.1.reorderBuf ((index + m) % s.bufSize)) = false)

theorem scanBody_counted (small : k + 1 < s.bufSize) (fuelled : enough ≤ fuel)
    (hz : UInt16) (jiffies : Jiffies) (scanned : Scanned s index k scan) (going : scan.out = false) :
    ∃ next, scanBody fuel hz jiffies index scan = some next ∧ Scanned s index (k + 1) next := by
  obtain ⟨⟨u,frames⟩,skipped,j,out⟩ := scan
  obtain ⟨(counted : Counted u),(fewer : Fewer s u),place⟩ := scanned
  cases going
  obtain ⟨place,unready⟩ := place.resolve_left (fun out => nomatch out)
  subst place
  have size : u.bufSize = s.bufSize := fewer.bufSize
  cases ready : rxReorderReady (u.reorderBuf ((index + (1 + k)) % s.bufSize)) with
  | false =>
    refine ⟨_,if_pos (by simp [ready]),counted,fewer,.inr ⟨?_,?_⟩⟩
    · show ((index + (1 + k)) % s.bufSize + 1) % u.bufSize = _
      rw [size,ring_next,Nat.add_assoc]
    · intro m low _
      by_cases last : m = 1 + k
      · rw [last]
        exact ready
      · exact unready m low (by omega)
  | true =>
    by_cases wait : (skipped != 0 && !timeAfter jiffies
        (u.reorderTime ((index + (1 + k)) % s.bufSize) + htRxReorderBufTimeout hz)) = true
    · refine ⟨_,(if_neg (by simp [ready])).trans (if_pos wait),counted,fewer,.inl rfl⟩
    rw [← size] at small unready ready wait ⊢
    have bound := counted.small
    unfold ieee80211MaxAmpduBuf at bound
    unfold enough at fuelled
    obtain ⟨buf,ran,gone,left⟩ := purgeSkipped_slots (s := u) fuel index (k := 1 + k) (by omega) (by omega) (by omega)
    have purged := counted.purged unready gone left
    obtain ⟨next,lower,_⟩ := release_counted purged (slot_inside purged (index + (1 + k))) frames
    refine ⟨_,scanBody_release ready wait ran _,next.move (snAdd_lt _ _),?_,.inr ⟨?_,?_⟩⟩
    · exact fewer.trans {lower with}
    · show ((index + (1 + k)) % u.bufSize + 1) % u.bufSize = _
      rw [ring_next,Nat.add_assoc,size]
    · intro m low _
      rw [release_buf,← size]
      by_cases last : m = 1 + k
      · rw [last,update_self]
        rfl
      · rw [update_of_ne (ring_inj (by omega) (by omega) index)]
        show rxReorderReady (buf _) = false
        rw [gone m low (by omega)]
        rfl

theorem scanTimedOut_counted (counted : Counted w.1) (fuelled : enough ≤ fuel) (hz : UInt16)
    (jiffies : Jiffies) (inside : index < w.1.bufSize) :
    ∃ scan, scanTimedOut fuel hz jiffies index w = some scan ∧ Counted scan.work.1 ∧ Fewer w.1 scan.work.1 := by
  have bound := counted.small
  unfold ieee80211MaxAmpduBuf at bound
  have walk := whileM_rounds (fun scan => scan.j != index && !scan.out) (scanBody fuel hz jiffies index) fuel
    (s := Scan.mk w 1 ((index + 1) % w.1.bufSize) false) (w.1.bufSize - 1)
    (Scanned w.1 index) ⟨counted,Fewer.refl _,.inr ⟨rfl,fun m low high => by omega⟩⟩ ?_ ?_
    (Nat.le_trans (by unfold enough; omega) fuelled)
  · obtain ⟨k,scan,_,ran,⟨counted,fewer,_⟩,_⟩ := walk
    exact ⟨scan,ran,counted,fewer⟩
  · intro k _ _ scanned going
    simp only [Bool.and_eq_true,Bool.not_eq_true'] at going
    exact scanBody_counted (by omega) fuelled hz jiffies scanned going.2
  · rintro _ ⟨_,_,out | ⟨place,_⟩⟩
    · simp [out]
    · rw [show 1 + (w.1.bufSize - 1) = w.1.bufSize by omega,Nat.add_mod_right,Nat.mod_eq_of_lt inside] at place
      simp [place]

theorem searchTimer_returns (counted : Counted s) (held : s.storedMpduNum ≠ 0) (fuelled : enough ≤ fuel)
    (inside : index < s.bufSize) : ∃ j, searchTimer fuel index s = some j := by
  have bound := counted.small
  unfold ieee80211MaxAmpduBuf at bound
  rw [counted.count] at held
  obtain ⟨_,ready⟩ := Finset.card_ne_zero.mp held
  obtain ⟨place,ready⟩ := mem_readySlots.mp ready
  obtain ⟨n,_,rfl⟩ := ring_cover inside place
  have walk := whileM_rounds
    (fun (j : Nat) => (j : Int) != Int.tmod ((index : Int) - 1) s.bufSize && !rxReorderReady (s.reorderBuf j))
    (fun j => some ((j + 1) % s.bufSize)) fuel (s := index) n (fun k j => j = (index + k) % s.bufSize)
    (Nat.mod_eq_of_lt inside).symm ?_ ?_ (Nat.le_trans (by unfold enough; omega) fuelled)
  · obtain ⟨_,j,_,ran,_⟩ := walk
    exact ⟨j,ran⟩
  · rintro k j _ rfl _
    exact ⟨_,congrArg some (ring_next _ _ _),rfl⟩
  · rintro j rfl
    simp [ready]

theorem setReleaseTimer_counted (counted : Counted s) (hz : UInt16) (j : Nat) :
    Counted (setReleaseTimer hz j s) ∧ Timed (setReleaseTimer hz j s) ∧ (setReleaseTimer hz j s).removed = s.removed := by
  unfold setReleaseTimer
  cases removed : s.removed with
  | true =>
    refine ⟨counted,?_,removed⟩
    intro _ kept
    exact nomatch removed.symm.trans kept
  | false => exact ⟨{counted with},fun _ _ => rfl,rfl⟩

theorem setTimer_counted (counted : Counted w.1) (fuelled : enough ≤ fuel) (hz : UInt16) :
    ∃ u, setTimer fuel hz w = some u ∧ Counted u.1 ∧ Timed u.1 ∧ u.1.removed = w.1.removed := by
  unfold setTimer
  by_cases held : w.1.storedMpduNum = 0
  · refine ⟨_,if_neg (by simp [held]),{counted with},?_,rfl⟩
    intro stored
    change 0 < w.1.storedMpduNum at stored
    omega
  · obtain ⟨j,ran⟩ := searchTimer_returns counted held fuelled (slot_inside counted w.1.headSeqNum)
    rw [if_pos (by simp [held]),ran]
    exact ⟨_,rfl,setReleaseTimer_counted counted hz j⟩

theorem staReorderRelease_counted (counted : Counted w.1) (fuelled : enough ≤ fuel) (hz : UInt16)
    (jiffies : Jiffies) : ∃ u, staReorderRelease fuel hz jiffies w = some u ∧ Counted u.1 ∧ Timed u.1 ∧
      u.1.removed = w.1.removed := by
  unfold staReorderRelease
  simp only
  split
  · obtain ⟨scan,ran,counted,fewer⟩ := scanTimedOut_counted counted fuelled hz jiffies (slot_inside counted w.1.headSeqNum)
    rw [ran]
    cases out : scan.out with
    | true =>
      obtain ⟨next,timed,removed⟩ := setReleaseTimer_counted counted hz scan.j
      exact ⟨_,if_pos out,next,timed,removed.trans fewer.removed⟩
    | false =>
      obtain ⟨u,set,next,timed,removed⟩ := setTimer_counted counted fuelled hz
      exact ⟨u,(if_neg (by simp [out])).trans set,next,timed,removed.trans fewer.removed⟩
  · obtain ⟨v,ran,⟨counted,fewer⟩,_⟩ := releaseReady_counted counted fuelled
    obtain ⟨u,set,next,timed,removed⟩ := setTimer_counted counted fuelled hz
    rw [ran]
    exact ⟨u,set,next,timed,removed.trans fewer.removed⟩

theorem queueTail_slots (skb : Mpdu α) (inside : index < s.bufSize) (unready : rxReorderReady (s.reorderBuf index) = false) :
    readySlots (s.queueTail index skb) = if skb.amsduMore then readySlots s else insert index (readySlots s) := by
  ext i
  by_cases same : i = index
  · subst same
    cases more : skb.amsduMore with
    | true => simp [mem_readySlots,TidAmpduRx.queueTail,more,unready]
    | false => simp [mem_readySlots,TidAmpduRx.queueTail,more,inside]
  · cases more : skb.amsduMore with
    | true | false => simp [mem_readySlots,TidAmpduRx.queueTail,same]

theorem queueTail_counted (counted : Counted s) (inside : index < s.bufSize)
    (unready : rxReorderReady (s.reorderBuf index) = false) (skb : Mpdu α) (jiffies : Jiffies) :
    if skb.amsduMore then Counted (s.queueTail index skb) else Counted ((s.queueTail index skb).countStored index jiffies) := by
  have slots := queueTail_slots skb inside unready
  cases more : skb.amsduMore with
  | true =>
    rw [more,if_pos rfl] at slots
    exact ⟨counted.positive,counted.small,counted.head,counted.count.trans (congrArg Finset.card slots.symm)⟩
  | false =>
    rw [more,if_neg (by decide)] at slots
    refine ⟨counted.positive,counted.small,counted.head,?_⟩
    have most := readySlots_le s
    have small := counted.small
    have count := counted.count
    unfold ieee80211MaxAmpduBuf at small
    have fresh : index ∉ readySlots s := by simp [mem_readySlots,unready]
    show (s.storedMpduNum + 1) % 65536 = (readySlots (s.queueTail index skb)).card
    rw [slots,Finset.card_insert_of_notMem fresh]
    omega

theorem placeFrame_cases (ran : placeFrame fuel hz jiffies skb (s,frames) = some r) :
    (rxReorderReady (s.reorderBuf (skb.seqNum % s.bufSize)) = true ∧ r = ((s,frames),.alreadyStored)) ∨
    rxReorderReady (s.reorderBuf (skb.seqNum % s.bufSize)) = false ∧ ((skb.seqNum = s.headSeqNum ∧ s.storedMpduNum = 0) ∧
        r = ((if skb.amsduMore then s else {s with headSeqNum := snInc s.headSeqNum},frames),.process) ∨
      ¬(skb.seqNum = s.headSeqNum ∧ s.storedMpduNum = 0) ∧
        (skb.amsduMore = true ∧ r = ((s.queueTail (skb.seqNum % s.bufSize) skb,frames),.stored) ∨
        skb.amsduMore = false ∧ ∃ u, staReorderRelease fuel hz jiffies
          ((s.queueTail (skb.seqNum % s.bufSize) skb).countStored (skb.seqNum % s.bufSize) jiffies,frames) = some u ∧
          r = (u,.stored))) := by
  unfold placeFrame at ran
  cases ready : rxReorderReady (s.reorderBuf (skb.seqNum % s.bufSize)) with
  | true =>
    rw [if_pos ready] at ran
    cases ran
    exact .inl ⟨rfl,rfl⟩
  | false =>
    refine .inr ⟨rfl,?_⟩
    rw [if_neg (by simp [ready])] at ran
    by_cases direct : skb.seqNum = s.headSeqNum ∧ s.storedMpduNum = 0
    · rw [if_pos (by simp [direct])] at ran
      refine .inl ⟨direct,?_⟩
      cases more : skb.amsduMore with
      | true =>
        rw [if_neg (by simp [more])] at ran
        cases ran
        rfl
      | false =>
        rw [if_pos (by simp [more])] at ran
        cases ran
        rfl
    rw [if_neg (by simpa using direct)] at ran
    refine .inr ⟨direct,?_⟩
    cases more : skb.amsduMore with
    | true =>
      rw [if_neg (by simp [more])] at ran
      cases ran
      exact .inl ⟨rfl,rfl⟩
    | false =>
      rw [if_pos (by simp [more])] at ran
      obtain ⟨u,released,rfl⟩ := Option.map_eq_some_iff.mp ran
      exact .inr ⟨rfl,u,released,rfl⟩

theorem placeFrame_counted (counted : Counted w.1) (timed : Timed w.1) (fuelled : enough ≤ fuel)
    (hz : UInt16) (jiffies : Jiffies) (skb : Mpdu α) :
    ∃ r, placeFrame fuel hz jiffies skb w = some r ∧ Counted r.1.1 ∧ Timed r.1.1 ∧ r.1.1.removed = w.1.removed := by
  obtain ⟨s,frames⟩ := w
  have inside := slot_inside counted skb.seqNum
  unfold placeFrame
  cases ready : rxReorderReady (s.reorderBuf (skb.seqNum % s.bufSize)) with
  | true => exact ⟨_,if_pos ready,counted,timed,rfl⟩
  | false =>
    simp only [ready]
    have fits := queueTail_counted (s := s) counted inside ready skb jiffies
    by_cases direct : (skb.seqNum == s.headSeqNum && s.storedMpduNum == 0) = true
    · rw [if_neg (by decide),if_pos direct]
      cases more : skb.amsduMore with
      | true => exact ⟨_,rfl,counted,timed,rfl⟩
      | false => exact ⟨_,rfl,counted.move (snInc_lt _),timed,rfl⟩
    · rw [if_neg (by decide),if_neg direct]
      cases more : skb.amsduMore with
      | true =>
        rw [more,if_pos rfl] at fits
        exact ⟨_,rfl,fits,timed,rfl⟩
      | false =>
        rw [more,if_neg (by decide)] at fits
        obtain ⟨u,ran,counted,timed,removed⟩ := staReorderRelease_counted (w := (_,frames)) fits fuelled hz jiffies
        exact ⟨(u,.stored),congrArg (Option.map _) ran,counted,timed,removed⟩

theorem pickStart_counted (counted : Counted s) (timed : Timed s) (skb : Mpdu α) :
    Counted (pickStart skb.seqNum s) ∧ Timed (pickStart skb.seqNum s) ∧ (pickStart skb.seqNum s).removed = s.removed := by
  unfold pickStart
  split
  · exact ⟨⟨counted.positive,counted.small,seqNum_lt skb,counted.count⟩,timed,rfl⟩
  · exact ⟨counted,timed,rfl⟩

theorem makeRoom_counted (counted : Counted w.1) (fuelled : enough ≤ fuel) (sn : Nat) :
    ∃ u, makeRoom fuel sn w = some u ∧ Counted u.1 ∧ Fewer w.1 u.1 := by
  unfold makeRoom
  split
  · exact releaseReorderFrames_counted counted fuelled _
  · exact ⟨w,rfl,counted,Fewer.refl _⟩

theorem mpdu_counted (counted : Counted s) (timed : Timed s) (fuelled : enough ≤ fuel) (hz : UInt16) (jiffies : Jiffies)
    (skb : Mpdu α) : ∃ r, staManageReorderBuf fuel hz jiffies s skb = some r ∧ Counted r.1.1 ∧ Timed r.1.1 ∧
      r.1.1.removed = s.removed := by
  obtain ⟨picked,still,removed⟩ := pickStart_counted counted timed skb
  unfold staManageReorderBuf
  simp only
  split
  · exact ⟨_,rfl,picked,still,removed⟩
  · obtain ⟨u,made,room,fewer⟩ := makeRoom_counted (w := (pickStart skb.seqNum s,[])) picked fuelled skb.seqNum
    obtain ⟨r,placed,holds,pending,same⟩ := placeFrame_counted room (fewer.timed still) fuelled hz jiffies skb
    refine ⟨r,?_,holds,pending,same.trans (fewer.removed.trans removed)⟩
    rw [made]
    exact placed

theorem step_counted (counted : Counted s) (timed : Timed s) (fuelled : enough ≤ fuel) (hz : UInt16) (e : Event α) :
    ∃ u, step fuel hz e s = some u ∧ Counted u.1 ∧ Timed u.1 ∧ (u.1.removed = true → s.removed = true ∨ e = .stop) := by
  cases e with
  | mpdu jiffies skb =>
    obtain ⟨r,ran,holds,pending,removed⟩ := mpdu_counted counted timed fuelled hz jiffies skb
    refine ⟨_,congrArg (Option.map _) ran,holds,pending,?_⟩
    intro gone
    exact .inl (removed.symm.trans gone)
  | bar startSeqNum =>
    obtain ⟨u,ran,holds,fewer⟩ := releaseReorderFrames_counted (w := (s,[])) counted fuelled (startSeqNum >>> 4).toNat
    refine ⟨u,ran,holds,fewer.timed timed,?_⟩
    intro gone
    exact .inl (fewer.removed.symm.trans gone)
  | timeout jiffies =>
    have fired : Counted {s with reorderTimer := none} := {counted with}
    obtain ⟨u,ran,holds,pending,removed⟩ := staReorderRelease_counted (w := ({s with reorderTimer := none},[])) fired
      fuelled hz jiffies
    refine ⟨u,ran,holds,pending,?_⟩
    intro gone
    exact .inl (removed.symm.trans gone)
  | stop =>
    refine ⟨_,rfl,{counted with},?_,fun _ => .inr rfl⟩
    intro _ kept
    cases kept

section
variable {hw : Hw} {req : AddbaReq} {memory : TidAmpduRx α} (started : startRxBaSession hw req memory = some s)
include hw req memory started

theorem start_cases :
    (0 < s.bufSize ∧ s.bufSize ≤ ieee80211MaxAmpduBuf) ∧ s.headSeqNum = (req.startSeqNum >>> 4).toNat ∧
      s.reorderBuf = (fun _ => []) ∧ s.storedMpduNum = 0 ∧ s.removed = memory.removed ∧ s.reorderTimer = none := by
  have positive := hw.positive
  unfold startRxBaSession at started
  simp only at started
  split at started
  · cases started
  split at started
  · cases started
  split at started
  · cases started
  rename_i fits
  split at started
  · cases started
  split at started
  · cases started
  · cases started
    simp only [Bool.or_eq_true,decide_eq_true_eq,not_or,gt_iff_lt,not_lt] at fits
    unfold ieee80211MaxAmpduBuf at fits ⊢
    refine ⟨⟨?_,?_⟩,rfl,rfl,rfl,rfl,rfl⟩
    · show 0 < ite _ _ _
      split <;> split <;> omega
    · show ite _ _ _ ≤ _
      split <;> split <;> omega

theorem start_counted : Counted s ∧ Timed s := by
  obtain ⟨⟨positive,small⟩,head,empty,stored,_⟩ := start_cases started
  refine ⟨⟨positive,small,?_,?_⟩,?_⟩
  · rw [head]
    exact barStart_lt _
  · rw [stored]
    simp [readySlots,empty]
  · intro _
    omega

end

theorem run_counted (counted : Counted s) (timed : Timed s) (fuelled : enough ≤ fuel) (hz : UInt16)
    (events : List (Event α)) : ∃ u, run fuel hz events s = some u ∧ Counted u.1 ∧ Timed u.1 ∧
      (u.1.removed = true → s.removed = true ∨ .stop ∈ events) := by
  induction events generalizing s with
  | nil => exact ⟨_,rfl,counted,timed,.inl⟩
  | cons e events ih =>
    obtain ⟨u,first,counted,timed,removed⟩ := step_counted counted timed fuelled hz e
    obtain ⟨v,rest,counted,timed,later⟩ := ih counted timed
    refine ⟨(v.1,u.2 ++ v.2),?_,counted,timed,?_⟩
    · simp only [run,first,rest,Option.bind_some,Option.map_some]
    · intro gone
      rcases later gone with before | after
      · rcases removed before with start | stopped
        · exact .inl start
        · exact .inr (stopped ▸ List.mem_cons_self)
      · exact .inr (List.mem_cons_of_mem _ after)

end Mac80211.RxReorder

import Mac80211.RxReorderTimer
import Mac80211.RxReorderWindow

namespace Mac80211.RxReorder
open Loops
open Function (update update_eq_self_iff update_of_ne update_self)

variable {s : TidAmpduRx α}

def stored (n : Nat) (jiffies : Jiffies) (skb : Mpdu α) (w : Work α) : TidAmpduRx α :=
  ((advance n w).1.queueTail (skb.seqNum % (advance n w).1.bufSize) skb).countStored
    (skb.seqNum % (advance n w).1.bufSize) jiffies

-- No complete frame passes by the parts of an A-MSDU with its number, and no later frame is released over
-- them.
def Tidy (hz : UInt16) : Event α → TidAmpduRx α → Prop
  | .mpdu jiffies skb,s =>
    let s := pickStart skb.seqNum s
    let d := ahead s.headSeqNum skb.seqNum
    (skb.amsduMore = true → ¬(s.bufSize = 1 ∧ d = 2048)) ∧
    (skb.amsduMore = false →
      (d = 0 → s.storedMpduNum = 0 → s.reorderBuf (slotAt s 0) = []) ∧
      ((d < s.bufSize → rxReorderReady (s.reorderBuf (slotAt s d)) = false) →
        ¬DueBehind hz jiffies s (d + 1 - s.bufSize) (min d s.bufSize)))
  | .bar _,_ => True
  | .timeout jiffies,s => ¬DueBehind hz jiffies s 0 s.bufSize
  | .stop,_ => True

theorem current_ahead (current : snLess sn headSeqNum = false) : ahead headSeqNum sn ≤ 2048 := by
  simp only [snLess,decide_eq_false_iff_not] at current
  unfold ahead
  omega

theorem stored_far (counted : Counted s) (divides : s.bufSize ∣ 4096) (far : s.bufSize ≤ n) (hz : UInt16)
    (jiffies : Jiffies) (skb : Mpdu α) (frames : List (Mpdu α)) : (stored n jiffies skb (s,frames)).storedMpduNum = 1 ∧
      ¬Due hz jiffies (stored n jiffies skb (s,frames)) 0 s.bufSize := by
  obtain ⟨size,_,_,_⟩ := advance_frame n (s,frames)
  obtain ⟨moved,_⟩ := advance_counted (w := (s,frames)) counted n
  have positive := counted.positive
  have empty : ∀ i, i < s.bufSize → (advance n (s,frames)).1.reorderBuf i = [] :=
    fun i inside => advance_far (w := (s,frames)) counted divides far inside
  constructor
  · have none_left : (advance n (s,frames)).1.storedMpduNum = 0 := by
      rw [moved.count,Finset.card_eq_zero]
      refine Finset.eq_empty_of_forall_notMem fun i slot => ?_
      obtain ⟨inside,ready⟩ := mem_readySlots.mp slot
      rw [empty i (size ▸ inside)] at ready
      cases ready
    simp [stored,TidAmpduRx.countStored,TidAmpduRx.queueTail,none_left]
  rintro ⟨k,_,_,ready,_,late⟩
  have inside : slotAt (stored n jiffies skb (s,frames)) k < s.bufSize := size ▸ Nat.mod_lt _ (size ▸ positive)
  by_cases new : slotAt (stored n jiffies skb (s,frames)) k = skb.seqNum % (advance n (s,frames)).1.bufSize
  · have time : (stored n jiffies skb (s,frames)).reorderTime (slotAt (stored n jiffies skb (s,frames)) k) = jiffies := by
      rw [new]
      exact update_self _ _ _
    rw [time,timeAfter_self] at late
    cases late
  · have slot : (stored n jiffies skb (s,frames)).reorderBuf (slotAt (stored n jiffies skb (s,frames)) k) = [] :=
      (update_of_ne new _ _).trans (empty _ inside)
    rw [slot] at ready
    cases ready

theorem due_before (counted : Counted s) (divides : s.bufSize ∣ 4096) (skb : Mpdu α) (whole : skb.amsduMore = false)
    (frames : List (Mpdu α))
    (due : DueBehind hz jiffies (stored (ahead s.headSeqNum skb.seqNum + 1 - s.bufSize) jiffies skb (s,frames)) 0 s.bufSize) :
    DueBehind hz jiffies s (ahead s.headSeqNum skb.seqNum + 1 - s.bufSize) (min (ahead s.headSeqNum skb.seqNum) s.bufSize) := by
  generalize moved : ahead s.headSeqNum skb.seqNum + 1 - s.bufSize = n at *
  obtain ⟨size,times,_,_⟩ := advance_frame n (s,frames)
  have positive := counted.positive
  have number := slot_of_number (s := s) divides (seqNum_lt skb)
  generalize distance : ahead s.headSeqNum skb.seqNum = d at *
  -- The new frame is n slots nearer to the start of the moved window.
  have places : ∀ m, slotAt (stored n jiffies skb (s,frames)) m = slotAt s (n + m) :=
    fun m => slotAt_advance (w := (s,frames)) counted.head divides n m
  have new : slotAt s (n + (d - n)) = skb.seqNum % s.bufSize := by
    rw [show n + (d - n) = d by omega,number]
  have here : rxReorderReady ((stored n jiffies skb (s,frames)).reorderBuf (slotAt s (n + (d - n)))) = true := by
    rw [new]
    simp [stored,TidAmpduRx.countStored,TidAmpduRx.queueTail,size,whole]
  have there : ∀ m, m < s.bufSize → m ≠ d - n → (stored n jiffies skb (s,frames)).reorderBuf (slotAt s (n + m)) =
      if n + m < s.bufSize then s.reorderBuf (slotAt s (n + m)) else [] := by
    intro m small other
    rw [← advance_slot (w := (s,frames)) counted divides small n]
    refine update_of_ne ?_ _ _
    rw [size,← new]
    exact slotAt_apart other small (by omega) n
  obtain ⟨filled,unready,k,_,high,ready,between,late⟩ := due
  simp only [places] at filled unready ready between late
  have after : 0 ≠ d - n := by
    intro same
    rw [same,here] at unready
    cases unready
  have older : k ≠ d - n := by
    rintro rfl
    have time : (stored n jiffies skb (s,frames)).reorderTime (slotAt s (n + (d - n))) = jiffies := by
      rw [new]
      simp [stored,TidAmpduRx.countStored,size]
    rw [time,timeAfter_self] at late
    cases late
  have front : k < d - n := by
    by_contra behind
    rw [between (d - n) (by omega) (by omega)] at here
    cases here
  have inside : n + k < s.bufSize := by
    by_contra outside
    rw [there k high older,if_neg outside] at ready
    cases ready
  have time : (stored n jiffies skb (s,frames)).reorderTime (slotAt s (n + k)) = s.reorderTime (slotAt s (n + k)) := by
    refine (update_of_ne ?_ _ _).trans (congrFun times _)
    rw [size,← new]
    exact slotAt_apart older high (by omega) n
  rw [there 0 positive after,if_pos (by omega)] at filled unready
  rw [there k high older,if_pos inside] at ready
  rw [time] at late
  refine ⟨filled,unready,n + k,by omega,by omega,ready,?_,late⟩
  intro m _ _
  have skipped := between (m - n) (by omega) (by omega)
  rw [there (m - n) (by omega) (by omega),if_pos (by omega),show n + (m - n) = m by omega] at skipped
  exact skipped

theorem pickStart_frame (sn : Nat) (s : TidAmpduRx α) : (pickStart sn s).bufSize = s.bufSize ∧
    (pickStart sn s).reorderBuf = s.reorderBuf ∧ (pickStart sn s).storedMpduNum = s.storedMpduNum ∧
    (pickStart sn s).autoSeq = false := by
  unfold pickStart
  cases auto : s.autoSeq with
  | true => exact ⟨rfl,rfl,rfl,rfl⟩
  | false =>
    exact ⟨rfl,rfl,rfl,auto⟩

theorem roomFor_near (bound : d ≤ 2048) (positive : 0 < size) (other : ¬(size = 1 ∧ d = 2048)) :
    roomFor size d = d + 1 - size := by
  unfold roomFor
  rw [if_pos (by omega)]

theorem roomFor_far : roomFor 1 2048 = 0 := rfl

theorem mpdu_cases (counted : Counted s) (timed : Timed s) (divides : s.bufSize ∣ 4096)
    (tidy : Tidy hz (.mpdu jiffies skb) s) (fuelled : enough ≤ fuel)
    (ran : staManageReorderBuf fuel hz jiffies s skb = some r) :
    ∃ start d w, start = pickStart skb.seqNum s ∧ d = ahead start.headSeqNum skb.seqNum ∧
      w = advance (roomFor start.bufSize d) (start,[]) ∧
      (2048 < d ∧ r = ((start,[]),.outOfDate) ∨ d ≤ 2048 ∧
        (rxReorderReady (w.1.reorderBuf (skb.seqNum % w.1.bufSize)) = true ∧ r = (w,.alreadyStored) ∨
        rxReorderReady (w.1.reorderBuf (skb.seqNum % w.1.bufSize)) = false ∧
          ((skb.seqNum = w.1.headSeqNum ∧ w.1.storedMpduNum = 0) ∧
            r = ((if skb.amsduMore then w.1 else {w.1 with headSeqNum := snInc w.1.headSeqNum},w.2),.process) ∨
          ¬(skb.seqNum = w.1.headSeqNum ∧ w.1.storedMpduNum = 0) ∧
            (skb.amsduMore = true ∧ r = ((w.1.queueTail (skb.seqNum % w.1.bufSize) skb,w.2),.stored) ∨
            skb.amsduMore = false ∧ ∃ k timer, (if start.bufSize = 1 ∧ d = 2048 then 0 < k else roomFor start.bufSize d + k ≤ 2048) ∧
              r = (withTimer timer (advance k (stored (roomFor start.bufSize d) jiffies skb (start,[]),w.2)),.stored))))) := by
  obtain ⟨picked,_,_⟩ := pickStart_counted counted timed skb
  obtain ⟨size,_,_,_⟩ := pickStart_frame skb.seqNum s
  simp only [Tidy] at tidy
  generalize chosen : pickStart skb.seqNum s = start at *
  refine ⟨start,_,_,rfl,rfl,rfl,?_⟩
  unfold staManageReorderBuf at ran
  simp only [chosen] at ran
  by_cases old : snLess skb.seqNum start.headSeqNum = true
  · rw [if_pos old] at ran
    cases ran
    refine .inl ⟨?_,rfl⟩
    simp only [snLess,decide_eq_true_eq] at old
    unfold ahead
    omega
  have current : snLess skb.seqNum start.headSeqNum = false := by simpa using old
  have bound := current_ahead current
  rw [if_neg old] at ran
  obtain ⟨_,made,placed⟩ := Option.bind_eq_some_iff.mp ran
  have moved := makeRoom_advance (w := (start,[])) picked (seqNum_lt skb) made
  subst moved
  obtain ⟨frame,_,_,_⟩ := advance_frame (roomFor start.bufSize (ahead start.headSeqNum skb.seqNum)) (start,([] : List (Mpdu α)))
  refine .inr ⟨bound,?_⟩
  rcases placeFrame_cases placed with duplicate | ⟨unready,direct | ⟨indirect,part | ⟨whole,u,released,same⟩⟩⟩
  · exact .inl duplicate
  · exact .inr ⟨unready,.inl direct⟩
  · exact .inr ⟨unready,.inr ⟨indirect,.inl part⟩⟩
  obtain ⟨counted',_⟩ := advance_counted (w := (start,([] : List (Mpdu α)))) picked
    (roomFor start.bufSize (ahead start.headSeqNum skb.seqNum))
  have fits := queueTail_counted counted' (slot_inside counted' skb.seqNum) unready skb jiffies
  rw [whole,if_neg (by decide)] at fits
  have divides' : start.bufSize ∣ 4096 := size ▸ divides
  have fresh : ¬DueBehind hz jiffies
      (stored (roomFor start.bufSize (ahead start.headSeqNum skb.seqNum)) jiffies skb (start,[])) 0 start.bufSize := by
    intro due
    by_cases single : start.bufSize = 1 ∧ ahead start.headSeqNum skb.seqNum = 2048
    · obtain ⟨_,_,k,_⟩ := due
      omega
    · rw [roomFor_near bound picked.positive single] at due unready frame
      have before := due_before picked divides' skb whole [] due
      refine (tidy.2 whole).2 ?_ before
      intro _
      rw [show ahead start.headSeqNum skb.seqNum + 1 - start.bufSize = 0 by omega] at unready frame
      rw [← slot_of_number divides' (seqNum_lt skb)]
      exact unready
  have width : (stored (roomFor start.bufSize (ahead start.headSeqNum skb.seqNum)) jiffies skb (start,[])).bufSize =
      start.bufSize := frame
  obtain ⟨k,timer,small,ahead_of,moved⟩ := staReorderRelease_advance
    (w := (stored (roomFor start.bufSize (ahead start.headSeqNum skb.seqNum)) jiffies skb (start,[]),_))
    fits (by rw [width]; exact divides') (by rw [width]; exact fresh) fuelled released
  rw [width] at small ahead_of
  refine .inr ⟨unready,.inr ⟨indirect,.inr ⟨whole,k,timer,?_,same.trans (congrArg (fun w => (w,Verdict.stored)) moved)⟩⟩⟩
  have positive := picked.positive
  have slots := picked.small
  unfold ieee80211MaxAmpduBuf at slots
  split
  case isTrue single =>
    have one := frame.trans single.1
    rw [if_pos] at ahead_of
    · exact ahead_of.1
    · simp [stored,TidAmpduRx.countStored,TidAmpduRx.queueTail,slotAt,one,Nat.mod_one,whole]
  case isFalse several =>
    rw [roomFor_near bound positive several] at ahead_of ⊢
    by_cases far : start.bufSize ≤ ahead start.headSeqNum skb.seqNum + 1 - start.bufSize
    · obtain ⟨alone,still⟩ := stored_far picked divides' far hz jiffies skb []
      split at ahead_of
      · have few : k ≤ 1 := Nat.le_trans ahead_of.2 (Nat.le_of_eq alone)
        omega
      · have rests := ahead_of still
        omega
    · omega

def Aligned (s : TidAmpduRx α) : Prop :=
  ∀ m, m < s.bufSize → ∀ f ∈ s.reorderBuf (slotAt s m), f.seqNum = (s.headSeqNum + m) % 4096

theorem advance_aligned (counted : Counted w.1) (divides : w.1.bufSize ∣ 4096) (aligned : Aligned w.1) (n : Nat) :
    Aligned (advance n w).1 := by
  intro m small f held
  rw [(advance_frame n w).1] at small
  rw [slotAt_advance counted.head divides,advance_slot counted divides small] at held
  split at held
  case isTrue inside =>
    rw [aligned (n + m) inside f held,advance_head counted.head]
    omega
  case isFalse => cases held

theorem queueTail_aligned (divides : s.bufSize ∣ 4096) (aligned : Aligned s) (skb : Mpdu α)
    (inside : ahead s.headSeqNum skb.seqNum < s.bufSize) : Aligned (s.queueTail (skb.seqNum % s.bufSize) skb) := by
  intro m (small : m < s.bufSize) f held
  change f ∈ update s.reorderBuf (skb.seqNum % s.bufSize) _ (slotAt s m) at held
  show f.seqNum = (s.headSeqNum + m) % 4096
  rw [slot_of_number divides (seqNum_lt skb)] at held
  by_cases same : m = ahead s.headSeqNum skb.seqNum
  · subst same
    rw [update_self] at held
    rcases List.mem_append.mp held with before | new
    · exact aligned _ small f before
    · rw [List.mem_singleton.mp new]
      have number := seqNum_lt skb
      unfold ahead
      omega
  · have apart := slotAt_apart same small inside 0
    rw [Nat.zero_add,Nat.zero_add] at apart
    rw [update_of_ne apart] at held
    exact aligned m small f held

theorem direct_aligned (counted : Counted s) (divides : s.bufSize ∣ 4096) (aligned : Aligned s)
    (empty : s.reorderBuf (slotAt s 0) = []) : Aligned {s with headSeqNum := snInc s.headSeqNum} := by
  have passed := advance_aligned (w := (s,[])) counted divides aligned 1
  have unready : rxReorderReady (s.reorderBuf (s.headSeqNum % s.bufSize)) = false := congrArg rxReorderReady empty
  have moved : (advance 1 (s,[])).1 = {s.skbQueuePurge (s.headSeqNum % s.bufSize) with headSeqNum := snInc s.headSeqNum} :=
    congrArg Prod.fst (release_unready unready)
  have same : update s.reorderBuf (s.headSeqNum % s.bufSize) [] = s.reorderBuf := by
    rw [update_eq_self_iff]
    exact empty.symm
  rw [moved] at passed
  unfold TidAmpduRx.skbQueuePurge at passed
  rwa [same] at passed

theorem advance_empty {w : Work α} (empty : ∀ i, w.1.reorderBuf i = []) (n : Nat) (i : Nat) :
    (advance n w).1.reorderBuf i = [] := by
  induction n with
  | zero => exact empty i
  | succ n ih =>
    rw [advance_succ]
    show (releaseReorderFrame _ _).1.reorderBuf i = []
    rw [release_buf]
    by_cases same : i = (advance n w).1.headSeqNum % (advance n w).1.bufSize
    · rw [same,update_self]
    · rw [update_of_ne same,ih]

theorem aligned_empty (empty : ∀ i, s.reorderBuf i = []) : Aligned s := by
  intro m _ f held
  rw [empty] at held
  cases held

theorem moved_ahead (counted : Counted w.1) (bound : ahead w.1.headSeqNum sn ≤ 2048) :
    ahead (advance (roomFor w.1.bufSize (ahead w.1.headSeqNum sn)) w).1.headSeqNum sn =
      ahead w.1.headSeqNum sn - roomFor w.1.bufSize (ahead w.1.headSeqNum sn) := by
  have small := counted.small
  have positive := counted.positive
  rw [advance_head counted.head]
  unfold roomFor ahead at *
  split <;> omega

structure Settled (s : TidAmpduRx α) : Prop where
  counted : Counted s
  timed : Timed s
  aligned : Aligned s
  unknown : s.autoSeq = true → ∀ i, s.reorderBuf i = []

theorem pickStart_settled (settled : Settled s) (skb : Mpdu α) : Settled (pickStart skb.seqNum s) := by
  obtain ⟨counted,timed,_⟩ := pickStart_counted settled.counted settled.timed skb
  obtain ⟨_,_,_,known⟩ := pickStart_frame skb.seqNum s
  refine ⟨counted,timed,?_,fun unknown => nomatch known.symm.trans unknown⟩
  unfold pickStart
  cases auto : s.autoSeq with
  | true => exact aligned_empty (settled.unknown auto)
  | false => exact settled.aligned

theorem stored_frame (n : Nat) (jiffies : Jiffies) (skb : Mpdu α) (w : Work α) :
    (stored n jiffies skb w).bufSize = w.1.bufSize ∧ (stored n jiffies skb w).autoSeq = w.1.autoSeq :=
  ⟨(advance_frame n w).1,(advance_frame n w).2.2.2⟩

theorem stored_counted (counted : Counted s)
    (unready : rxReorderReady ((advance n (s,frames)).1.reorderBuf (skb.seqNum % (advance n (s,frames)).1.bufSize)) = false)
    (whole : skb.amsduMore = false) (jiffies : Jiffies) : Counted (stored n jiffies skb (s,frames)) := by
  obtain ⟨moved,_⟩ := advance_counted (w := (s,frames)) counted n
  have fits := queueTail_counted moved (slot_inside moved skb.seqNum) unready skb jiffies
  rwa [whole,if_neg (by decide)] at fits

theorem stored_aligned (counted : Counted s) (divides : s.bufSize ∣ 4096) (aligned : Aligned s)
    (bound : ahead s.headSeqNum skb.seqNum ≤ 2048) (several : ¬(s.bufSize = 1 ∧ ahead s.headSeqNum skb.seqNum = 2048))
    (jiffies : Jiffies) (frames : List (Mpdu α)) :
    Aligned (stored (roomFor s.bufSize (ahead s.headSeqNum skb.seqNum)) jiffies skb (s,frames)) := by
  have positive := counted.positive
  have size := (advance_frame (roomFor s.bufSize (ahead s.headSeqNum skb.seqNum)) (s,frames)).1
  have moved := advance_aligned (w := (s,frames)) counted divides aligned (roomFor s.bufSize (ahead s.headSeqNum skb.seqNum))
  have place := moved_ahead (w := (s,frames)) counted bound
  exact queueTail_aligned (by rw [size]; exact divides) moved skb (by
    rw [place,size]
    show ahead s.headSeqNum skb.seqNum - roomFor s.bufSize (ahead s.headSeqNum skb.seqNum) < s.bufSize
    rw [roomFor_near bound positive several]
    omega)

theorem lone_aligned (counted : Counted s) (only : s.bufSize = 1) (moved : 0 < k) : Aligned (advance k (s,frames)).1 := by
  have gone := advance_buf (w := (s,frames)) counted.head (only ▸ Nat.one_dvd _) counted.positive k
  rw [if_pos moved] at gone
  intro m _ f held
  have slot : slotAt (advance k (s,frames)).1 m = slotAt s 0 := by
    unfold slotAt
    rw [(advance_frame k (s,frames)).1]
    rw [only,Nat.mod_one,Nat.mod_one]
  rw [slot] at held
  exact absurd (gone ▸ held) List.not_mem_nil

theorem mpdu_aligned (settled : Settled s) (divides : s.bufSize ∣ 4096)
    (tidy : Tidy hz (.mpdu jiffies skb) s) (fuelled : enough ≤ fuel)
    (ran : staManageReorderBuf fuel hz jiffies s skb = some r) :
    Aligned r.1.1 ∧ r.1.1.autoSeq = false ∧ r.1.1.bufSize = s.bufSize := by
  obtain ⟨start,d,w,chosen,distance,room,cases⟩ := mpdu_cases settled.counted settled.timed divides tidy fuelled ran
  have picked := pickStart_settled settled skb
  obtain ⟨size,_,_,known⟩ := pickStart_frame skb.seqNum s
  simp only [Tidy] at tidy
  rw [← chosen] at picked size known tidy
  have divides' : start.bufSize ∣ 4096 := size ▸ divides
  have positive := picked.counted.positive
  obtain ⟨width,_,_,auto⟩ := advance_frame (roomFor start.bufSize d) (start,([] : List (Mpdu α)))
  obtain ⟨moved,_⟩ := advance_counted (w := (start,([] : List (Mpdu α)))) picked.counted (roomFor start.bufSize d)
  have aligned := advance_aligned (w := (start,([] : List (Mpdu α)))) picked.counted divides' picked.aligned (roomFor start.bufSize d)
  rw [← room] at width auto moved aligned
  have divides'' : w.1.bufSize ∣ 4096 := by
    rw [width]
    exact divides'
  have place : d ≤ 2048 → ahead w.1.headSeqNum skb.seqNum = d - roomFor start.bufSize d := by
    intro bound
    rw [room,distance]
    exact moved_ahead (w := (start,[])) picked.counted (distance ▸ bound)
  rcases cases with ⟨_,rfl⟩ | ⟨bound,⟨_,rfl⟩ | ⟨unready,⟨⟨number,left⟩,rfl⟩ | ⟨_,⟨part,rfl⟩ | ⟨whole,k,_,far,rfl⟩⟩⟩⟩
  · exact ⟨picked.aligned,known,size⟩
  · exact ⟨aligned,auto.trans known,width.trans size⟩
  · cases more : skb.amsduMore with
    | true => exact ⟨aligned,auto.trans known,width.trans size⟩
    | false =>
      refine ⟨direct_aligned moved divides'' aligned ?_,auto.trans known,width.trans size⟩
      have first : d - roomFor start.bufSize d = 0 := by
        rw [← place bound,number]
        simp [ahead]
      by_cases still : roomFor start.bufSize d = 0
      · rw [still] at room first
        subst room
        exact (tidy.2 more).1 (by omega) left
      · -- Only a single slot is at the start of a window that moved for it.
        have single : ¬roomFor start.bufSize d + 0 < start.bufSize := by
          unfold roomFor at still first ⊢
          split at still <;> omega
        have gone := advance_slot (w := (start,([] : List (Mpdu α)))) picked.counted divides' positive (roomFor start.bufSize d)
        rw [← slotAt_advance (w := (start,([] : List (Mpdu α)))) picked.counted.head divides',if_neg single,← room] at gone
        exact gone
  · refine ⟨queueTail_aligned divides'' aligned skb ?_,auto.trans known,width.trans size⟩
    have other := tidy.1 part
    rw [place bound,width]
    unfold roomFor
    show _ < start.bufSize
    split <;> omega
  rw [room] at unready
  have fits := stored_counted picked.counted unready whole jiffies
  have same := stored_frame (roomFor start.bufSize d) jiffies skb (start,([] : List (Mpdu α)))
  refine ⟨?_,((advance_frame k _).2.2.2).trans (same.2.trans known),(advance_frame k _).1.trans (same.1.trans size)⟩
  by_cases single : start.bufSize = 1 ∧ d = 2048
  · -- The frame is released again, and the only slot is empty.
    rw [if_pos single] at far
    exact lone_aligned fits (same.1.trans single.1) far
  · rw [distance] at single bound same fits ⊢
    exact advance_aligned (w := (stored _ jiffies skb (start,[]),_)) fits (by rw [same.1]; exact divides')
      (stored_aligned picked.counted divides' picked.aligned bound single jiffies _) k

theorem step_settled (settled : Settled s) (divides : s.bufSize ∣ 4096) (tidy : Tidy hz e s)
    (fuelled : enough ≤ fuel) (ran : step fuel hz e s = some u) : Settled u.1 ∧ u.1.bufSize = s.bufSize := by
  obtain ⟨v,same,counted,timed,_⟩ := step_counted settled.counted settled.timed fuelled hz e
  cases same.symm.trans ran
  cases e with
  | mpdu =>
    obtain ⟨r,managed,rfl⟩ := Option.map_eq_some_iff.mp ran
    obtain ⟨aligned,known,size⟩ := mpdu_aligned settled divides tidy fuelled managed
    exact ⟨⟨counted,timed,aligned,fun unknown => nomatch known.symm.trans unknown⟩,size⟩
  | bar =>
    obtain ⟨n,rfl⟩ : ∃ n, u = advance n (s,[]) :=
      ⟨_,releaseReorderFrames_advance (w := (s,[])) settled.counted.head ran⟩
    obtain ⟨size,_,_,auto⟩ := advance_frame n (s,([] : List (Mpdu α)))
    exact ⟨⟨counted,timed,advance_aligned (w := (s,_)) settled.counted divides settled.aligned n,
      fun unknown => advance_empty (settled.unknown (auto.symm.trans unknown)) n⟩,size⟩
  | timeout =>
    have fired : Counted {s with reorderTimer := none} :=
      ⟨settled.counted.positive,settled.counted.small,settled.counted.head,settled.counted.count⟩
    obtain ⟨n,_,_,_,rfl⟩ := staReorderRelease_advance (w := ({s with reorderTimer := none},[])) fired divides tidy fuelled ran
    obtain ⟨size,_,_,auto⟩ := advance_frame n ({s with reorderTimer := none},([] : List (Mpdu α)))
    exact ⟨⟨counted,timed,advance_aligned (w := (_,_)) fired divides settled.aligned n,
      fun unknown => advance_empty (w := ({s with reorderTimer := none},[])) (settled.unknown (auto.symm.trans unknown)) n⟩,
      size⟩
  | stop =>
    cases ran
    exact ⟨⟨counted,timed,settled.aligned,settled.unknown⟩,rfl⟩

def TidyRun (fuel : Nat) (hz : UInt16) : List (Event α) → TidAmpduRx α → Prop
  | [],_ => True
  | e :: events,s => Tidy hz e s ∧ ∀ u, step fuel hz e s = some u → TidyRun fuel hz events u.1

theorem run_settled (settled : Settled s) (divides : s.bufSize ∣ 4096) (fuelled : enough ≤ fuel)
    (tidy : TidyRun fuel hz events s) : ∃ u, run fuel hz events s = some u ∧ Settled u.1 ∧ u.1.bufSize = s.bufSize := by
  induction events generalizing s with
  | nil => exact ⟨_,rfl,settled,rfl⟩
  | cons e events ih =>
    obtain ⟨first,later⟩ := tidy
    obtain ⟨u,ran,_⟩ := step_counted settled.counted settled.timed fuelled hz e
    obtain ⟨next,size⟩ := step_settled settled divides first fuelled ran
    obtain ⟨v,rest,last,width⟩ := ih next (size ▸ divides) (later u ran)
    exact ⟨_,run_cons ran rest,last,width.trans size⟩

theorem start_settled
    (started : startRxBaSession hw req memory = some s) : Settled s := by
  obtain ⟨counted,timed⟩ := start_counted started
  obtain ⟨_,_,empty,_⟩ := start_cases started
  have nothing : ∀ i, s.reorderBuf i = [] := fun i => congrFun empty i
  exact ⟨counted,timed,aligned_empty nothing,fun _ => nothing⟩

def Homogeneous (s : TidAmpduRx α) : Prop :=
  ∀ i, i < s.bufSize → ∃ sn, (∀ f ∈ s.reorderBuf i, f.seqNum = sn) ∧ ahead s.headSeqNum sn < s.bufSize ∧ sn % s.bufSize = i

theorem aligned_homogeneous (counted : Counted s) (divides : s.bufSize ∣ 4096) (aligned : Aligned s) : Homogeneous s := by
  intro i inside
  obtain ⟨m,small,rfl⟩ := ring_cover (Nat.mod_lt s.headSeqNum counted.positive) inside
  rw [Nat.mod_add_mod]
  refine ⟨(s.headSeqNum + m) % 4096,aligned m small,?_,slot_mod divides _⟩
  unfold ahead
  omega

theorem slots_homogeneous {hw : Hw} {req : AddbaReq} {memory : TidAmpduRx α}
    (started : startRxBaSession hw req memory = some s) (divides : s.bufSize ∣ 4096) (fuelled : enough ≤ fuel)
    (tidy : TidyRun fuel hz events s) : ∃ u, run fuel hz events s = some u ∧ Homogeneous u.1 := by
  obtain ⟨u,ran,settled,size⟩ := run_settled (start_settled started) divides fuelled tidy
  exact ⟨u,ran,aligned_homogeneous settled.counted (size ▸ divides) settled.aligned⟩

def partMpdu (sn : Nat) (data : α) : Mpdu α := ⟨UInt16.ofNat (16 * sn),true,data⟩

namespace Sample

def passedBy : List (Event Unit) := [.mpdu 0 (partMpdu 1 ()),.mpdu 0 (wholeMpdu 0 ()),.mpdu 0 (wholeMpdu 1 ())]

def together : List (Event Unit) := [.mpdu 0 (partMpdu 1 ()),.mpdu 0 (wholeMpdu 1 ())]

end Sample

theorem part_left_behind : ∃ u, run enough 250 Sample.passedBy (Sample.session 64 0 false) = some u ∧ ¬Homogeneous u.1 := by
  refine ⟨_,rfl,?_⟩
  intro homogeneous
  obtain ⟨sn,same,inside,_⟩ := homogeneous 1 (by decide)
  have number : (partMpdu 1 ()).seqNum = sn := same _ List.mem_cons_self
  subst number
  exact absurd inside (by decide)

theorem slots_homogeneous_sample :
    ∃ u, run enough 250 Sample.together (Sample.session 64 0 false) = some u ∧ Homogeneous u.1 := by
  refine slots_homogeneous Sample.started (by decide) (Nat.le_refl _) ⟨⟨fun _ => by decide,fun whole => nomatch whole⟩,?_⟩
  intro u ran
  cases ran
  refine ⟨⟨fun part => (nomatch part),fun _ => ⟨fun first => ?_,fun _ => ?_⟩⟩,fun _ _ => trivial⟩
  · exact absurd first (by decide)
  · rintro ⟨_,_,k,low,high,_⟩
    change k < 1 at high
    change 0 < k at low
    omega

end Mac80211.RxReorder

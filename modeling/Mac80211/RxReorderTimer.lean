import Mac80211.RxReorderCount

namespace Mac80211.RxReorder
open Loops

variable {s : TidAmpduRx α}

def Lone (s : TidAmpduRx α) : Prop := s.bufSize = 1 ∧ s.storedMpduNum = 0

theorem lone_unready (counted : Counted s) (single : s.bufSize = 1)
    (unready : rxReorderReady (s.reorderBuf (s.headSeqNum % s.bufSize)) = false) : s.storedMpduNum = 0 := by
  rw [single,Nat.mod_one] at unready
  rw [counted.count,Finset.card_eq_zero]
  refine Finset.eq_empty_of_forall_notMem fun i slot => ?_
  obtain ⟨_,ready⟩ := mem_readySlots.mp slot
  rw [show i = 0 by omega,unready] at ready
  cases ready

theorem Lone.fewer (lone : Lone s) (fewer : Fewer s t) : Lone t :=
  ⟨fewer.bufSize.trans lone.1,Nat.le_zero.mp (Nat.le_trans fewer.stored (Nat.le_of_eq lone.2))⟩

theorem setTimer_lone (single : w.1.bufSize = 1) (none_left : w.1.storedMpduNum = 0)
    (ran : setTimer fuel hz w = some u) : Lone u.1 := by
  unfold setTimer at ran
  rw [if_neg (by simp [none_left])] at ran
  cases ran
  exact ⟨single,none_left⟩

theorem staReorderRelease_lone (counted : Counted w.1) (single : w.1.bufSize = 1) (fuelled : enough ≤ fuel)
    (ran : staReorderRelease fuel hz jiffies w = some u) : Lone u.1 := by
  unfold staReorderRelease at ran
  simp only at ran
  split at ran
  case isTrue scanned =>
    simp only [Bool.and_eq_true,Bool.not_eq_true',bne_iff_ne] at scanned
    exact absurd (lone_unready counted single scanned.1) scanned.2
  case isFalse =>
    obtain ⟨v,released,⟨counted,fewer⟩,unready⟩ := releaseReady_counted counted fuelled
    rw [released] at ran
    exact setTimer_lone (fewer.bufSize.trans single) (lone_unready counted (fewer.bufSize.trans single) unready) ran

theorem placeFrame_lone (counted : Counted w.1) (lone : Lone w.1)
    (fuelled : enough ≤ fuel) (ran : placeFrame fuel hz jiffies skb w = some r) : Lone r.1.1 := by
  obtain ⟨s,frames⟩ := w
  rcases placeFrame_cases ran with ⟨_,rfl⟩ | ⟨unready,⟨_,rfl⟩ | ⟨_,⟨_,rfl⟩ | ⟨more,u,released,rfl⟩⟩⟩
  · exact lone
  · cases more : skb.amsduMore with
    | true | false => exact lone
  · exact lone
  · have fits := queueTail_counted (s := s) counted (slot_inside counted skb.seqNum) unready skb jiffies
    rw [more,if_neg (by decide)] at fits
    exact staReorderRelease_lone (w := (_,frames)) fits lone.1 fuelled released

section
variable (counted : Counted s) (timed : Timed s) (lone : Lone s) (fuelled : enough ≤ fuel)
include counted timed lone fuelled

theorem step_lone (ran : step fuel hz e s = some u) : Lone u.1 := by
  cases e with
  | mpdu jiffies skb =>
    obtain ⟨picked,_,_⟩ := pickStart_counted counted timed skb
    have alone : Lone (pickStart skb.seqNum s) := by
      unfold pickStart
      split
      · exact lone
      · exact lone
    obtain ⟨r,managed,rfl⟩ := Option.map_eq_some_iff.mp ran
    unfold staManageReorderBuf at managed
    simp only at managed
    split at managed
    · cases managed
      exact alone
    · obtain ⟨v,made,room,fewer⟩ := makeRoom_counted (w := (pickStart skb.seqNum s,[])) picked fuelled skb.seqNum
      rw [made] at managed
      exact placeFrame_lone room (alone.fewer fewer) fuelled managed
  | bar startSeqNum =>
    obtain ⟨v,released,_,fewer⟩ := releaseReorderFrames_counted (w := (s,[])) counted fuelled (startSeqNum >>> 4).toNat
    cases released.symm.trans ran
    exact lone.fewer fewer
  | timeout =>
    have fired : Counted {s with reorderTimer := none} := {counted with}
    exact staReorderRelease_lone (w := (_,[])) fired lone.1 fuelled ran
  | stop =>
    cases ran
    exact lone

theorem run_lone (ran : run fuel hz events s = some u) : Lone u.1 := by
  induction events generalizing s u with
  | nil =>
    cases ran
    exact lone
  | cons e events ih =>
    obtain ⟨v,first,counted',timed',_⟩ := step_counted counted timed fuelled hz e
    simp only [run,first,Option.bind_some] at ran
    obtain ⟨v',rest,rfl⟩ := Option.map_eq_some_iff.mp ran
    exact ih (u := v') counted' timed' (step_lone counted timed lone fuelled first) rest

end

def wholeMpdu (sn : Nat) (data : α) : Mpdu α := ⟨UInt16.ofNat (16 * sn),false,data⟩

theorem wholeMpdu_seqNum (small : sn < 4096) (data : α) : (wholeMpdu sn data).seqNum = sn := by
  rw [seqNum_eq]
  show (UInt16.ofNat (16 * sn)).toNat / 16 = sn
  rw [UInt16.toNat_ofNat']
  omega

theorem snLess_self (sn : Nat) : snLess sn sn = false := by simp [snLess]

theorem snLess_window (sn head : Nat) (small : size ≤ 64) (positive : 0 < size)
    (offset : (sn + 4096 - head) % 4096 < size) (inside : head < 4096) : snLess sn head = false ∧ snLess sn (head + size) = true := by
  simp only [snLess,decide_eq_true_eq,decide_eq_false_iff_not]
  omega

theorem pickStart_at (head : s.autoSeq = true ∨ s.headSeqNum = sn) :
    ∃ ssn, pickStart sn s = {s with autoSeq := false,ssn := ssn,headSeqNum := sn} := by
  unfold pickStart
  cases auto : s.autoSeq with
  | true => exact ⟨_,rfl⟩
  | false =>
    rw [auto] at head
    rw [← head.resolve_left (nofun),← auto]
    exact ⟨_,if_neg (by simp [auto])⟩

theorem manage_inside (fuel : Nat) (hz : UInt16) (jiffies : Jiffies) (inside : snLess skb.seqNum (pickStart skb.seqNum s).headSeqNum = false)
    (fits : snLess skb.seqNum ((pickStart skb.seqNum s).headSeqNum + (pickStart skb.seqNum s).bufSize) = true) :
    staManageReorderBuf fuel hz jiffies s skb = placeFrame fuel hz jiffies skb (pickStart skb.seqNum s,[]) := by
  unfold staManageReorderBuf makeRoom
  rw [if_neg (by simp [inside]),if_neg (by simp [fits])]
  rfl

theorem mpdu_direct (fuel : Nat) (hz : UInt16) (data : α) (size : 0 < s.bufSize) (small : s.bufSize ≤ 64) (empty : s.reorderBuf = fun _ => [])
    (none_left : s.storedMpduNum = 0) (inside : sn < 4096) (head : s.autoSeq = true ∨ s.headSeqNum = sn) :
    ∃ ssn, rxReorderAmpdu fuel hz 0 s (wholeMpdu sn data) =
      some ({s with autoSeq := false,ssn := ssn,headSeqNum := snInc sn},[wholeMpdu sn data]) := by
  have number := wholeMpdu_seqNum inside data
  obtain ⟨ssn,picked⟩ := pickStart_at head
  obtain ⟨current,within⟩ := snLess_window sn sn small size (by omega) inside
  refine ⟨ssn,?_⟩
  have managed := @manage_inside _ s (wholeMpdu sn data) fuel hz 0
  rw [number,picked] at managed
  have placed : placeFrame fuel hz 0 (wholeMpdu sn data) ({s with autoSeq := false,ssn := ssn,headSeqNum := sn},[]) =
      some (({s with autoSeq := false,ssn := ssn,headSeqNum := snInc sn},[]),.process) :=
    (if_neg (by simp [empty])).trans ((if_pos (by simp [number,none_left])).trans (if_pos rfl))
  exact congrArg (Option.map _) ((managed current within).trans placed)

theorem mpdu_gap (hz : UInt16) (jiffies : Jiffies) (data : α) (size : 2 ≤ s.bufSize) (small : s.bufSize ≤ 64) (empty : s.reorderBuf = fun _ => [])
    (none_left : s.storedMpduNum = 0) (known : s.autoSeq = false) (inside : s.headSeqNum + 1 < 4096) (fuelled : enough ≤ fuel) :
    ∃ timer times, rxReorderAmpdu fuel hz jiffies s (wholeMpdu (s.headSeqNum + 1) data) = some ({s with
        reorderBuf := Function.update s.reorderBuf ((s.headSeqNum + 1) % s.bufSize) [wholeMpdu (s.headSeqNum + 1) data],
        reorderTime := times,
        storedMpduNum := 1,
        reorderTimer := timer},[]) ∧ (s.removed = true → timer = s.reorderTimer) := by
  have number := wholeMpdu_seqNum inside data
  generalize skb : wholeMpdu (s.headSeqNum + 1) data = frame at number
  have whole : frame.amsduMore = false := by
    rw [← skb]
    rfl
  obtain ⟨current,within⟩ :=
    snLess_window (s.headSeqNum + 1) s.headSeqNum small (by omega) (by omega) (by omega)
  have picked : pickStart frame.seqNum s = s := if_neg (by simp [known])
  have managed := @manage_inside _ s frame fuel hz jiffies
  rw [picked,number] at managed
  have next : (s.headSeqNum % s.bufSize + 1) % s.bufSize = (s.headSeqNum + 1) % s.bufSize := Nat.mod_add_mod _ _ _
  have apart : (s.headSeqNum + 0) % s.bufSize ≠ (s.headSeqNum + 1) % s.bufSize := ring_inj (by omega) (by omega) _
  rw [Nat.add_zero] at apart
  -- The frame goes into the slot beside the one of the number awaited.
  generalize place : (s.headSeqNum + 1) % s.bufSize = beside at *
  let t := (s.queueTail beside frame).countStored beside jiffies
  have slot : t.reorderBuf beside = [frame] := by simp [t,TidAmpduRx.countStored,TidAmpduRx.queueTail,empty]
  have hole : t.reorderBuf (s.headSeqNum % s.bufSize) = [] := by
    simp [t,TidAmpduRx.countStored,TidAmpduRx.queueTail,empty,apart]
  have time : t.reorderTime beside = jiffies := by simp [t,TidAmpduRx.countStored]
  have count : t.storedMpduNum = 1 := by simp [t,TidAmpduRx.countStored,TidAmpduRx.queueTail,none_left]
  have ready : rxReorderReady (t.reorderBuf beside) = true := by
    rw [slot]
    simp [rxReorderReady,whole]
  have waits : scanBody fuel hz jiffies (s.headSeqNum % s.bufSize) ⟨(t,[]),1,beside,false⟩ =
      some ⟨(t,[]),1,beside,true⟩ :=
    (if_neg (by simp [ready])).trans (if_pos (by simp [time,timeAfter_self]))
  have scan : scanTimedOut fuel hz jiffies (s.headSeqNum % s.bufSize) (t,[]) =
      some ⟨(t,[]),1,beside,true⟩ := by
    obtain ⟨more,rfl⟩ : ∃ more, fuel = more + 1 := ⟨fuel - 1,by unfold enough at fuelled; omega⟩
    show whileM _ _ _ (Scan.mk (t,[]) 1 ((s.headSeqNum % s.bufSize + 1) % s.bufSize) false) = _
    rw [next,whileM_next _ _ _ (by simpa using apart.symm) waits,whileM_stop _ _ _ (by simp)]
  have released : staReorderRelease fuel hz jiffies (t,[]) =
      some (setReleaseTimer hz beside t,[]) := by
    show ite ((!rxReorderReady (t.reorderBuf (s.headSeqNum % s.bufSize)) && t.storedMpduNum != 0) = true)
      ((scanTimedOut fuel hz jiffies (s.headSeqNum % s.bufSize) (t,[])).bind _) _ = _
    rw [if_pos (by simp [hole,count]),scan]
    rfl
  have placed : placeFrame fuel hz jiffies frame (s,[]) =
      some ((setReleaseTimer hz beside t,[]),.stored) := by
    unfold placeFrame
    simp only [number,place]
    rw [if_neg (by simp [empty]),if_neg (by simp),if_pos (by simp [whole])]
    exact congrArg (Option.map _) released
  have timed : ∃ timer, setReleaseTimer hz beside t = {t with reorderTimer := timer} ∧
      (s.removed = true → timer = s.reorderTimer) := by
    unfold setReleaseTimer
    split
    case isTrue going =>
      refine ⟨_,rfl,fun removed => ?_⟩
      simp [t,TidAmpduRx.countStored,TidAmpduRx.queueTail,removed] at going
    case isFalse => exact ⟨s.reorderTimer,rfl,fun _ => rfl⟩
  obtain ⟨timer,same,stays⟩ := timed
  refine ⟨timer,t.reorderTime,?_,stays⟩
  refine (congrArg (Option.map _) ((managed current within).trans placed)).trans ?_
  rw [same]
  simp [t,TidAmpduRx.countStored,TidAmpduRx.queueTail,none_left,empty]

theorem run_cons (first : step fuel hz e s = some u) (rest : run fuel hz events u.1 = some v) :
    run fuel hz (e :: events) s = some (v.1,u.2 ++ v.2) := by
  simp only [run,first,rest,Option.bind_some,Option.map_some]

section
variable {hw : Hw} {req : AddbaReq} (started : startRxBaSession hw req memory = some s)
include hw req started

theorem never_timed
    (garbage : memory.removed = true) (slots : s.bufSize ≠ 1) (fuelled : enough ≤ fuel) (hz : UInt16) (data : α) :
    ∃ events u, run fuel hz events s = some u ∧ (∀ e ∈ events, ∃ sn, e = .mpdu 0 (wholeMpdu sn data)) ∧
      0 < u.1.storedMpduNum ∧ u.1.reorderTimer = none := by
  obtain ⟨⟨positive,small⟩,head,empty,none_left,removed,timer⟩ := start_cases started
  have number : s.headSeqNum < 4096 := head ▸ barStart_lt _
  -- Direct frames take the window to a number after which the next one does
  -- not wrap.
  obtain ⟨_,first⟩ := mpdu_direct fuel hz data positive small empty none_left number (.inr rfl)
  by_cases last : snInc s.headSeqNum = 4095
  · obtain ⟨_,second⟩ := mpdu_direct fuel hz data (s := {s with autoSeq := false,ssn := _,headSeqNum := snInc s.headSeqNum})
      positive small empty none_left (by decide : 4095 < 4096) (.inr last)
    obtain ⟨pending,_,third,stays⟩ := mpdu_gap hz 0 data
      (s := {s with autoSeq := false,ssn := _,headSeqNum := snInc 4095}) (by show 2 ≤ s.bufSize; omega) small empty none_left rfl
      (by show snInc 4095 + 1 < 4096; decide) fuelled
    refine ⟨[.mpdu 0 _,.mpdu 0 _,.mpdu 0 _],_,run_cons first (run_cons second (run_cons third rfl)),?_,Nat.zero_lt_one,?_⟩
    · simp only [List.mem_cons,List.not_mem_nil,or_false]
      rintro e (rfl | rfl | rfl) <;> exact ⟨_,rfl⟩
    · exact (stays (removed.trans garbage)).trans timer
  have bound := snInc_lt s.headSeqNum
  obtain ⟨_,_,second,stays⟩ := mpdu_gap hz 0 data
    (s := {s with autoSeq := false,ssn := _,headSeqNum := snInc s.headSeqNum}) (by show 2 ≤ s.bufSize; omega) small empty
    none_left rfl (by show snInc _ + 1 < 4096; omega) fuelled
  refine ⟨[.mpdu 0 _,.mpdu 0 _],_,run_cons first (run_cons second rfl),?_,Nat.zero_lt_one,?_⟩
  · simp only [List.mem_cons,List.not_mem_nil,or_false]
    rintro e (rfl | rfl) <;> exact ⟨_,rfl⟩
  · exact (stays (removed.trans garbage)).trans timer

theorem reorder_counter_and_timer (fuelled : enough ≤ fuel) (hz : UInt16) (data : α) :
    (∀ events, ∃ u, run fuel hz events s = some u ∧ u.1.storedMpduNum = (readySlots u.1).card) ∧
    ((∀ events u, run fuel hz events s = some u → .stop ∉ events → 0 < u.1.storedMpduNum →
      u.1.reorderTimer.isSome = true) ↔ memory.removed = false ∨ s.bufSize = 1) := by
  obtain ⟨counted,timed⟩ := start_counted started
  obtain ⟨_,_,_,none_left,removed,_⟩ := start_cases started
  refine ⟨?_,?_,?_⟩
  · intro events
    obtain ⟨u,ran,counted,_⟩ := run_counted counted timed fuelled hz events
    exact ⟨u,ran,counted.count⟩
  · intro pending
    by_contra neither
    obtain ⟨garbage,slots⟩ := not_or.mp neither
    obtain ⟨events,u,ran,frames,held,timer⟩ := never_timed started (by simpa using garbage) slots fuelled hz data
    have going : .stop ∉ events := fun stopped => nomatch (frames _ stopped).choose_spec
    have armed := pending events u ran going held
    rw [timer] at armed
    cases armed
  intro condition events u ran going held
  obtain ⟨v,same,_,timed',later⟩ := run_counted counted timed fuelled hz events
  cases same.symm.trans ran
  rcases condition with clear | single
  · apply timed' held
    cases gone : u.1.removed with
    | false => rfl
    | true =>
      rcases later gone with before | stopped
      · exact nomatch (removed.trans clear).symm.trans before
      · exact absurd stopped going
  · have lone := run_lone counted timed ⟨single,none_left⟩ fuelled ran
    have empty := lone.2
    omega

end

namespace Sample

def hw : Hw := ⟨64,by decide⟩
def addba (bufSize : Nat) (startSeqNum : UInt16) : AddbaReq := ⟨true,false,false,1,bufSize,startSeqNum,false,true,true⟩
def memory (removed : Bool) : TidAmpduRx Unit := ⟨fun _ => [],fun _ => 0,none,0,0,0,0,false,removed⟩

def session (bufSize : Nat) (startSeqNum : UInt16) (removed : Bool) : TidAmpduRx Unit :=
  ⟨fun _ => [],fun _ => 0,none,(startSeqNum >>> 4).toNat,0,(startSeqNum >>> 4).toNat,bufSize,false,removed⟩

theorem started : startRxBaSession hw (addba 64 0) (memory false) = some (session 64 0 false) := rfl

end Sample

theorem timer_never_set : startRxBaSession Sample.hw (Sample.addba 64 0) (Sample.memory true) = some (Sample.session 64 0 true) ∧
    ∃ u, run enough 250 [.mpdu 0 (wholeMpdu 1 ())] (Sample.session 64 0 true) = some u ∧
      u.1.storedMpduNum = 1 ∧ u.1.reorderTimer = none := ⟨rfl,_,rfl,rfl,rfl⟩

theorem reorder_counter_and_timer_sample :
    (∀ events, ∃ u, run enough 250 events (Sample.session 64 0 false) = some u ∧
      u.1.storedMpduNum = (readySlots u.1).card) ∧
    ((∀ events u, run enough 250 events (Sample.session 64 0 false) = some u → .stop ∉ events → 0 < u.1.storedMpduNum →
      u.1.reorderTimer.isSome = true) ↔ (Sample.memory false).removed = false ∨ (Sample.session 64 0 false).bufSize = 1) :=
  reorder_counter_and_timer Sample.started (Nat.le_refl _) 250 ()

end Mac80211.RxReorder

import Mac80211.RxReorderOnce

namespace Mac80211.RxReorder
open Loops
open Function (update update_of_ne update_self)

variable {s : TidAmpduRx α}

def barStart (sn : Nat) : UInt16 := UInt16.ofNat (16 * sn)

theorem barStart_number (small : sn < 4096) : (barStart sn >>> 4).toNat = sn := by
  show (UInt16.ofNat (16 * sn) >>> 4).toNat = sn
  rw [UInt16.toNat_shiftRight,UInt16.toNat_ofNat',Nat.shiftRight_eq_div_pow]
  show 16 * sn % 65536 / 16 = sn
  omega

theorem snLess_next (sn : Nat) : snLess sn (snInc sn) = true := by
  rw [snLess_ahead]
  unfold ahead snInc snAdd
  omega

theorem run_append (first : run fuel hz events s = some u)
    (rest : run fuel hz later u.1 = some v) : run fuel hz (events ++ later) s = some (v.1,u.2 ++ v.2) := by
  induction events generalizing s u with
  | nil =>
    cases first
    exact rest
  | cons e events ih =>
    obtain ⟨t,now,next⟩ := Option.bind_eq_some_iff.mp first
    obtain ⟨w,ran,rfl⟩ := Option.map_eq_some_iff.mp next
    rw [List.cons_append,run_cons now (ih ran rest),List.append_assoc]

theorem bar_next (hz : UInt16) (empty : s.reorderBuf (s.headSeqNum % s.bufSize) = []) (fuelled : enough ≤ fuel) :
    step fuel hz (.bar (barStart (snInc s.headSeqNum))) s = some ({s with headSeqNum := snInc s.headSeqNum},[]) := by
  obtain ⟨more,rfl⟩ : ∃ more, fuel = more + 1 := ⟨fuel - 1,by unfold enough at fuelled; omega⟩
  have moved : releaseReorderFrame (s.headSeqNum % s.bufSize) (s,[]) = ({s with headSeqNum := snInc s.headSeqNum},[]) :=
    if_pos (by simp [empty])
  show releaseReorderFrames _ (barStart (snInc s.headSeqNum) >>> 4).toNat (s,[]) = _
  rw [barStart_number (snInc_lt _)]
  exact (whileM_next (fun w : Work α => snLess w.1.headSeqNum (snInc s.headSeqNum))
    (fun w => some (releaseReorderFrame (w.1.headSeqNum % w.1.bufSize) w)) more (snLess_next s.headSeqNum)
    (congrArg some moved)).trans (whileM_stop _ _ _ (snLess_self (snInc s.headSeqNum)))

theorem bars_move (hz : UInt16) (empty : s.reorderBuf = fun _ => []) (head : s.headSeqNum < 4096) (fuelled : enough ≤ fuel)
    (n : Nat) : ∃ events, run fuel hz events s = some ({s with headSeqNum := (s.headSeqNum + n) % 4096},[]) ∧
      (∀ e ∈ events, Plain e) ∧ .stop ∉ events := by
  induction n generalizing s with
  | zero =>
    refine ⟨[],?_,nofun,List.not_mem_nil⟩
    rw [Nat.add_zero,Nat.mod_eq_of_lt head]
    rfl
  | succ n ih =>
    have first := bar_next hz (congrFun empty _) fuelled
    obtain ⟨_,rest,plain,going⟩ := ih (s := {s with headSeqNum := snInc s.headSeqNum}) empty (snInc_lt _)
    have next : (snInc s.headSeqNum + n) % 4096 = (s.headSeqNum + (n + 1)) % 4096 := by
      unfold snInc snAdd
      omega
    simp only [next] at rest
    refine ⟨_,run_cons first rest,?_,?_⟩
    · simpa [Plain] using plain
    · simpa using going

theorem reach (started : startRxBaSession hw req memory = some s)
    (small : sn + 1 < 4096) (fuelled : enough ≤ fuel) (hz : UInt16) (data : α) :
    ∃ events t frames, run fuel hz events s = some (t,frames) ∧ (∀ e ∈ events, Plain e) ∧ .stop ∉ events ∧
      (∀ f ∈ frames, f.seqNum = sn) ∧ t.headSeqNum = sn + 1 ∧ t.bufSize = s.bufSize ∧ t.autoSeq = false ∧
      t.storedMpduNum = 0 ∧ t.reorderBuf = fun _ => [] := by
  obtain ⟨⟨positive,few⟩,head,empty,none_left,_⟩ := start_cases started
  cases auto : s.autoSeq with
  | true =>
    obtain ⟨_,first⟩ := mpdu_direct fuel hz data positive few empty none_left (show sn < 4096 by omega) (.inl auto)
    refine ⟨[.mpdu 0 (wholeMpdu sn data)],_,_,run_cons first rfl,?_,by simp,?_,?_,rfl,rfl,none_left,empty⟩
    · intro e held
      rw [List.mem_singleton.mp held]
      rfl
    · intro f held
      rw [List.append_nil,List.mem_singleton] at held
      rw [held]
      exact wholeMpdu_seqNum (by omega) data
    · show snInc sn = sn + 1
      exact Nat.mod_eq_of_lt small
  | false =>
    have number : s.headSeqNum < 4096 := head ▸ barStart_lt _
    obtain ⟨events,ran,plain,going⟩ := bars_move hz empty number fuelled (sn + 1 + 4096 - s.headSeqNum)
    refine ⟨events,_,_,ran,plain,going,nofun,?_,rfl,auto,none_left,empty⟩
    show (s.headSeqNum + (sn + 1 + 4096 - s.headSeqNum)) % 4096 = sn + 1
    omega

def clash (size : Nat) : Nat := 4096 - 4096 % size

theorem clash_slot (size : Nat) : clash size % size = 0 := by
  unfold clash
  have split := Nat.div_add_mod 4096 size
  rw [show 4096 - 4096 % size = size * (4096 / size) by omega]
  exact Nat.mul_mod_right _ _

theorem slots_clash (started : startRxBaSession hw req memory = some s)
    (uneven : ¬s.bufSize ∣ 4096) (fuelled : enough ≤ fuel) (hz : UInt16) (data : α) :
    ∃ events u, run fuel hz events s = some u ∧ (∀ e ∈ events, Plain e) ∧ .stop ∉ events ∧ ahead u.1.headSeqNum 0 < u.1.bufSize ∧
      (∀ f ∈ u.2 ++ buffered u.1, f.seqNum ≠ 0) ∧
      staManageReorderBuf fuel hz 0 u.1 (wholeMpdu 0 data) = some ((u.1,[]),.alreadyStored) := by
  obtain ⟨⟨positive,few⟩,_⟩ := start_cases started
  unfold ieee80211MaxAmpduBuf at few
  have less : 4096 % s.bufSize < s.bufSize := Nat.mod_lt _ positive
  have many : 2 ≤ s.bufSize := by omega
  obtain ⟨_,t,_,ran,plain,going,older,head,size,known,none_left,empty⟩ :=
    reach started (show clash s.bufSize - 2 + 1 < 4096 by unfold clash; omega) fuelled hz data
  have place : t.headSeqNum + 1 = clash s.bufSize := by
    rw [head]
    unfold clash
    omega
  obtain ⟨timer,times,stored,_⟩ := mpdu_gap hz 0 data (size.symm ▸ many) (size.symm ▸ few) empty none_left known
    (by rw [place]; unfold clash; omega) fuelled
  have slot : (t.headSeqNum + 1) % t.bufSize = 0 := by
    rw [place,size]
    exact clash_slot _
  rw [slot,place] at stored
  have hole : t.headSeqNum % t.bufSize ≠ 0 := by
    have apart : (t.headSeqNum + 0) % t.bufSize ≠ (t.headSeqNum + 1) % t.bufSize := ring_inj (by omega) (by omega) _
    rwa [slot,Nat.add_zero] at apart
  let v : TidAmpduRx α := {t with
    reorderBuf := update t.reorderBuf 0 [wholeMpdu (clash s.bufSize) data],
    reorderTime := times,
    storedMpduNum := 1,
    reorderTimer := timer}
  have open_slot : v.reorderBuf (v.headSeqNum % v.bufSize) = [] := by
    show update t.reorderBuf 0 _ (t.headSeqNum % t.bufSize) = []
    rw [update_of_ne hole,empty]
  have moved := bar_next hz open_slot fuelled
  have first : snInc v.headSeqNum = clash s.bufSize := by
    show (t.headSeqNum + 1) % 4096 = _
    rw [place]
    unfold clash
    omega
  rw [first] at moved
  have number : (wholeMpdu 0 data).seqNum = 0 := wholeMpdu_seqNum (by decide) data
  let w : TidAmpduRx α := {v with headSeqNum := clash s.bufSize}
  have picked : pickStart 0 w = w := if_neg (by simp [w,v,known])
  obtain ⟨current,within⟩ := snLess_window 0 (clash s.bufSize) few positive (by unfold clash; omega) (by unfold clash; omega)
  have managed := @manage_inside _ w (wholeMpdu 0 data) fuel hz 0
  rw [number,picked] at managed
  have filled : rxReorderReady (w.reorderBuf (0 % w.bufSize)) = true := by
    rfl
  have placed : placeFrame fuel hz 0 (wholeMpdu 0 data) (w,[]) = some ((w,[]),.alreadyStored) := by
    unfold placeFrame
    simp only [number]
    exact if_pos filled
  have taken : step fuel hz (.mpdu 0 (wholeMpdu (clash s.bufSize) data)) t = some (v,[]) := stored
  have last : run fuel hz [.mpdu 0 (wholeMpdu (clash s.bufSize) data),.bar (barStart (clash s.bufSize))] t = some (w,[]) :=
    run_cons (v := (w,[])) taken (run_cons (v := (w,[])) moved rfl)
  refine ⟨_,_,run_append ran last,?_,?_,?_,?_,?_⟩
  · intro e held
    rcases List.mem_append.mp held with before | after
    · exact plain e before
    · rcases List.mem_cons.mp after with rfl | last
      · rfl
      · rw [List.mem_singleton.mp last]
        trivial
  · simpa using going
  · show ahead (clash s.bufSize) 0 < t.bufSize
    unfold ahead clash
    omega
  · intro f held
    simp only [List.append_nil] at held
    rcases List.mem_append.mp held with out | left
    · rw [older f out]
      unfold clash
      omega
    · obtain ⟨i,_,slot⟩ := mem_buffered.mp left
      change f ∈ update t.reorderBuf 0 _ i at slot
      by_cases first : i = 0
      · rw [first,update_self,List.mem_singleton] at slot
        rw [slot,wholeMpdu_seqNum (by unfold clash; omega)]
        omega
      · rw [update_of_ne first,empty] at slot
        cases slot
  · exact (managed current (size.symm ▸ within)).trans placed

-- What is stored will be released.
structure Conserved (fuel : Nat) (hz : UInt16) (events : List (Event α)) (s : TidAmpduRx α) (u : Work α) : Prop where
  duplicate : ∀ jiffies skb r, skb.amsduMore = false → ahead u.1.headSeqNum skb.seqNum < u.1.bufSize →
    staManageReorderBuf fuel hz jiffies u.1 skb = some r → r.2 = .alreadyStored → ∃ f ∈ u.2 ++ buffered u.1, f.seqNum = skb.seqNum
  once : (accepted fuel hz events s).Perm (u.2 ++ buffered u.1)
  pending : buffered u.1 ≠ [] → u.1.reorderTimer.isSome = true
  flushed : ∀ jiffies, Late hz jiffies u.1 →
    ∃ v, run fuel hz [.timeout jiffies,.timeout jiffies] u.1 = some v ∧ buffered v.1 = [] ∧ v.2.Perm (buffered u.1)

theorem held_buffered (counted : Counted s) (held : 0 < s.storedMpduNum) : buffered s ≠ [] := by
  rw [counted.count,Finset.card_pos] at held
  obtain ⟨i,slot⟩ := held
  obtain ⟨inside,ready⟩ := mem_readySlots.mp slot
  intro empty
  rw [buffered_empty.mp empty i inside] at ready
  cases ready

section
variable {hw : Hw} {req : AddbaReq} (started : startRxBaSession hw req memory = some s)
include hw req started

theorem run_conserved
    (divides : s.bufSize ∣ 4096) (clear : memory.removed = false ∨ s.bufSize = 1) (fuelled : enough ≤ fuel)
    (plain : ∀ e ∈ events, Plain e) (going : .stop ∉ events) :
    ∃ u, run fuel hz events s = some u ∧ Conserved fuel hz events s u := by
  obtain ⟨counted,timed⟩ := start_counted started
  obtain ⟨_,_,empty,none_left,removed,_⟩ := start_cases started
  obtain ⟨u,ran,steady,size,once⟩ := run_conserves (start_steady started divides) plain fuelled hz
  have lone : u.1.bufSize = 1 → u.1.storedMpduNum = 0 := fun single =>
    (run_lone counted timed ⟨size.symm.trans single,none_left⟩ fuelled ran).2
  have nothing : buffered s = [] := buffered_empty.mpr fun i _ => congrFun empty i
  rw [nothing,List.nil_append] at once
  refine ⟨u,ran,?_,once,?_,fun jiffies late => timeouts_flush steady late fuelled⟩
  · intro _ _ r whole _ managed dropped
    obtain ⟨f,held,same⟩ := duplicate_stored steady lone whole fuelled managed dropped
    exact ⟨f,List.mem_append_right _ held,same⟩
  intro held
  have some_left : u.1.storedMpduNum ≠ 0 := fun none_left => held (buffered_none steady.counted steady.single none_left)
  apply steady.timed (Nat.pos_of_ne_zero some_left)
  cases gone : u.1.removed with
  | false => rfl
  | true =>
    rcases clear with clear | single
    · obtain ⟨v,same,_,_,later⟩ := run_counted counted timed fuelled hz events
      cases same.symm.trans ran
      rcases later gone with before | stopped
      · exact nomatch (removed.trans clear).symm.trans before
      · exact absurd stopped going
    · exact absurd (lone (size.trans single)) some_left

theorem reorder_loses_nothing (fuelled : enough ≤ fuel) (hz : UInt16) (data : α) :
    (∀ events, (∀ e ∈ events, Plain e) → .stop ∉ events →
      ∃ u, run fuel hz events s = some u ∧ Conserved fuel hz events s u) ↔
    s.bufSize ∣ 4096 ∧ (memory.removed = false ∨ s.bufSize = 1) := by
  constructor
  · intro conserved
    constructor
    · by_contra uneven
      obtain ⟨events,u,ran,plain,going,inside,other,dropped⟩ := slots_clash started uneven fuelled hz data
      obtain ⟨v,same,kept⟩ := conserved events plain going
      cases same.symm.trans ran
      have number : (wholeMpdu 0 data).seqNum = 0 := wholeMpdu_seqNum (by decide) data
      obtain ⟨f,held,zero⟩ := kept.duplicate 0 (wholeMpdu 0 data) _ rfl (by rw [number]; exact inside) dropped rfl
      exact other f held (zero.trans number)
    by_contra neither
    obtain ⟨garbage,slots⟩ := not_or.mp neither
    obtain ⟨events,u,ran,frames,held,timer⟩ := never_timed started (by simpa using garbage) slots fuelled hz data
    have plain : ∀ e ∈ events, Plain e := by
      intro e some_frame
      obtain ⟨_,rfl⟩ := frames e some_frame
      rfl
    obtain ⟨v,same,kept⟩ := conserved events plain fun stopped => nomatch (frames _ stopped).choose_spec
    cases same.symm.trans ran
    obtain ⟨counted,timed⟩ := start_counted started
    obtain ⟨w,again,good,_⟩ := run_counted counted timed fuelled hz events
    cases again.symm.trans ran
    have armed := kept.pending (held_buffered good held)
    rw [timer] at armed
    cases armed
  · rintro ⟨divides,clear⟩ _ plain going
    exact run_conserved started divides clear fuelled plain going

end

-- Number 4095 is at the head of three slots, and number 0 comes with its slot.
theorem new_frame_dropped : startRxBaSession Sample.hw (Sample.addba 3 65504) (Sample.memory false) = some (Sample.session 3 65504 false) ∧
    ∃ u, run enough 250 [.mpdu 0 (wholeMpdu 4095 ()),.bar 65520] (Sample.session 3 65504 false) = some u ∧
      ahead u.1.headSeqNum (wholeMpdu 0 ()).seqNum < u.1.bufSize ∧
      (∃ w, staManageReorderBuf enough 250 0 u.1 (wholeMpdu 0 ()) = some (w,.alreadyStored)) ∧
      (u.2 ++ buffered u.1).map Mpdu.seqNum = [4095] :=
  ⟨rfl,_,rfl,by decide,⟨_,rfl⟩,rfl⟩

theorem reorder_loses_nothing_sample :
    (∀ events, (∀ e ∈ events, Plain e) → .stop ∉ events →
      ∃ u, run enough 250 events (Sample.session 64 0 false) = some u ∧ Conserved enough 250 events (Sample.session 64 0 false) u) ↔
    (Sample.session 64 0 false).bufSize ∣ 4096 ∧ ((Sample.memory false).removed = false ∨ (Sample.session 64 0 false).bufSize = 1) :=
  reorder_loses_nothing Sample.started (Nat.le_refl _) 250 ()

end Mac80211.RxReorder

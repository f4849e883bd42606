import Mac80211.RxReorderPlain

namespace Mac80211.RxReorder
open Loops
open Function (update update_idem update_of_ne update_self)
open List (append_assoc append_nil)

variable {s : TidAmpduRx α}

def buffered (s : TidAmpduRx α) : List (Mpdu α) := (List.range s.bufSize).flatMap s.reorderBuf

theorem flatMap_update (inside : i < n) (f : Nat → List β) :
    ((List.range n).flatMap f).Perm (f i ++ (List.range n).flatMap (update f i [])) := by
  have first := List.perm_cons_erase (List.mem_range.mpr inside)
  have rest : ((List.range n).erase i).flatMap f = ((List.range n).erase i).flatMap (update f i []) := by
    refine List.flatMap_congr fun j held => ?_
    rw [update_of_ne]
    rintro rfl
    exact List.Nodup.not_mem_erase List.nodup_range held
  have one : ((List.range n).flatMap f).Perm (f i ++ ((List.range n).erase i).flatMap f) := first.flatMap_right f
  have two := first.flatMap_right (update f i [])
  rw [List.flatMap_cons,update_self,List.nil_append] at two
  rw [rest] at one
  exact one.trans (two.symm.append_left _)

theorem mem_buffered : f ∈ buffered s ↔ ∃ i, i < s.bufSize ∧ f ∈ s.reorderBuf i := by
  simp [buffered]

theorem buffered_empty : buffered s = [] ↔ ∀ i, i < s.bufSize → s.reorderBuf i = [] := by
  simp [buffered,List.flatMap_eq_nil_iff]

theorem release_conserves (single : Single w.1) (inside : index < w.1.bufSize) :
    (w.2 ++ buffered w.1).Perm ((releaseReorderFrame index w).2 ++ buffered (releaseReorderFrame index w).1) := by
  obtain ⟨size,_⟩ := release_frame index w
  have out : (releaseReorderFrame index w).2 = w.2 ++ w.1.reorderBuf index := by
    rw [release_out]
    cases ready : rxReorderReady (w.1.reorderBuf index) with
    | false => rw [(ready_single single index).mp ready,ite_self]
    | true => rfl
  have rest : buffered (releaseReorderFrame index w).1 =
      (List.range w.1.bufSize).flatMap (update w.1.reorderBuf index []) := by
    unfold buffered
    rw [size,release_buf]
  rw [out,rest,append_assoc]
  exact (flatMap_update inside w.1.reorderBuf).append_left _

theorem advance_conserves (counted : Counted w.1) (single : Single w.1) (n : Nat) :
    (w.2 ++ buffered w.1).Perm ((advance n w).2 ++ buffered (advance n w).1) := by
  induction n with
  | zero => exact .refl _
  | succ n ih =>
    rw [advance_succ]
    exact ih.trans (release_conserves (advance_single single n) (slot_inside (advance_counted counted n).1 _))

theorem queueTail_conserves (inside : index < s.bufSize) (skb : Mpdu α) :
    (buffered s ++ [skb]).Perm (buffered (s.queueTail index skb)) := by
  have before := flatMap_update inside s.reorderBuf
  have after := flatMap_update inside (s.queueTail index skb).reorderBuf
  have slot : (s.queueTail index skb).reorderBuf index = s.reorderBuf index ++ [skb] := update_self _ _ _
  have rest : update (s.queueTail index skb).reorderBuf index [] = update s.reorderBuf index [] :=
    update_idem _ _ _
  rw [slot,rest] at after
  refine (before.append_right [skb]).trans (.trans ?_ after.symm)
  rw [append_assoc,append_assoc]
  exact (List.perm_append_comm).append_left _

-- A frame that is dropped is not taken in; one that is stored or passed on is.
def taken (fuel : Nat) (hz : UInt16) : Event α → TidAmpduRx α → List (Mpdu α)
  | .mpdu jiffies skb,s =>
    match staManageReorderBuf fuel hz jiffies s skb with
    | some (_,.process) => [skb]
    | some (_,.stored) => [skb]
    | _ => []
  | _,_ => []

theorem pickStart_buffered (sn : Nat) (s : TidAmpduRx α) : buffered (pickStart sn s) = buffered s := by
  obtain ⟨size,buf,_⟩ := pickStart_frame sn s
  unfold buffered
  rw [size,buf]

theorem step_conserves (steady : Steady s) (plain : Plain e) (fuelled : enough ≤ fuel)
    (ran : step fuel hz e s = some u) : (buffered s ++ taken fuel hz e s).Perm (u.2 ++ buffered u.1) := by
  have tidy := plain_tidy steady.counted steady.timed steady.single hz plain
  cases e with
  | mpdu jiffies skb =>
    obtain ⟨r,managed,rfl⟩ := Option.map_eq_some_iff.mp ran
    obtain ⟨start,d,w,chosen,_,room,cases⟩ := mpdu_cases steady.counted steady.timed steady.divides tidy fuelled managed
    have picked := (pickStart_settled steady.toSettled skb).counted
    have alone := pickStart_single steady.single skb.seqNum
    rw [← chosen] at picked alone
    have moved := (advance_counted (w := (start,([] : List (Mpdu α)))) picked (roomFor start.bufSize d)).1
    have slots := advance_single (w := (start,([] : List (Mpdu α)))) alone (roomFor start.bufSize d)
    have conserved := advance_conserves (w := (start,([] : List (Mpdu α)))) picked alone (roomFor start.bufSize d)
    rw [← room] at moved slots conserved
    rw [← pickStart_buffered skb.seqNum s,← chosen]
    simp only [taken,managed]
    rcases cases with ⟨_,rfl⟩ | ⟨_,⟨_,rfl⟩ | ⟨unready,⟨_,rfl⟩ | ⟨_,⟨part,_⟩ | ⟨whole,k,_,_,rfl⟩⟩⟩⟩
    · exact .of_eq (append_nil _)
    · rw [append_nil]
      exact conserved
    · have whole : skb.amsduMore = false := plain
      rw [whole]
      show (buffered start ++ [skb]).Perm (w.2 ++ [skb] ++ buffered w.1)
      refine (conserved.append_right [skb]).trans ?_
      rw [append_assoc,append_assoc]
      exact (List.perm_append_comm).append_left _
    · exact nomatch (plain.symm.trans part : false = true)
    have queued := queueTail_conserves (slot_inside moved skb.seqNum) skb
    have single := queueTail_single slots unready skb whole
    rw [room] at unready
    have fits := stored_counted picked unready whole jiffies
    have same : buffered (stored (roomFor start.bufSize d) jiffies skb (start,[])) =
        buffered (w.1.queueTail (skb.seqNum % w.1.bufSize) skb) := by
      rw [room]
      rfl
    have held : Single (stored (roomFor start.bufSize d) jiffies skb (start,[])) := by
      subst room
      exact ⟨single.one,single.whole⟩
    have released := advance_conserves (w := (stored (roomFor start.bufSize d) jiffies skb (start,[]),w.2)) fits held k
    refine .trans ?_ released
    rw [same]
    refine (conserved.append_right [skb]).trans ?_
    rw [append_assoc]
    exact queued.append_left _
  | bar =>
    rw [releaseReorderFrames_advance (w := (s,[])) steady.counted.head ran]
    show (buffered s ++ []).Perm _
    rw [append_nil]
    exact advance_conserves (w := (s,[])) steady.counted steady.single _
  | timeout =>
    obtain ⟨n,_,_,_,rfl⟩ := staReorderRelease_advance (w := ({s with reorderTimer := none},[])) steady.fired steady.divides
      tidy fuelled ran
    show (buffered s ++ []).Perm _
    rw [append_nil]
    exact advance_conserves (w := ({s with reorderTimer := none},[])) steady.fired ⟨steady.single.one,steady.single.whole⟩ n
  | stop =>
    cases ran
    exact .of_eq (append_nil _)

def accepted (fuel : Nat) (hz : UInt16) : List (Event α) → TidAmpduRx α → List (Mpdu α)
  | [],_ => []
  | e :: events,s =>
    match step fuel hz e s with
    | none => []
    | some u => taken fuel hz e s ++ accepted fuel hz events u.1

theorem run_conserves (steady : Steady s) (plain : ∀ e ∈ events, Plain e) (fuelled : enough ≤ fuel) (hz : UInt16) :
    ∃ u, run fuel hz events s = some u ∧ Steady u.1 ∧ u.1.bufSize = s.bufSize ∧
      (buffered s ++ accepted fuel hz events s).Perm (u.2 ++ buffered u.1) := by
  induction events generalizing s with
  | nil => exact ⟨_,rfl,steady,rfl,.of_eq (append_nil _)⟩
  | cons e events ih =>
    have now := plain e List.mem_cons_self
    obtain ⟨u,ran,_⟩ := step_counted steady.counted steady.timed fuelled hz e
    obtain ⟨next,size⟩ := step_steady steady now fuelled ran
    obtain ⟨v,rest,last,same,later⟩ := ih next fun e held => plain e (List.mem_cons_of_mem _ held)
    have first := step_conserves steady now fuelled ran
    refine ⟨_,run_cons ran rest,last,same.trans size,?_⟩
    simp only [accepted,ran]
    rw [← append_assoc]
    refine (first.append_right _).trans ?_
    show (u.2 ++ buffered u.1 ++ _).Perm (u.2 ++ v.2 ++ _)
    rw [append_assoc,append_assoc]
    exact later.append_left _

theorem duplicate_stored (steady : Steady s) (lone : s.bufSize = 1 → s.storedMpduNum = 0)
    (whole : skb.amsduMore = false) (fuelled : enough ≤ fuel) (ran : staManageReorderBuf fuel hz jiffies s skb = some r)
    (dropped : r.2 = .alreadyStored) : ∃ f ∈ buffered s, f.seqNum = skb.seqNum := by
  have tidy := plain_tidy (e := .mpdu jiffies skb) steady.counted steady.timed steady.single hz whole
  obtain ⟨start,d,w,chosen,distance,room,cases⟩ := mpdu_cases steady.counted steady.timed steady.divides tidy fuelled ran
  have picked := pickStart_settled steady.toSettled skb
  have alone := pickStart_single steady.single skb.seqNum
  obtain ⟨size,_,left,_⟩ := pickStart_frame skb.seqNum s
  rw [← pickStart_buffered skb.seqNum s]
  rw [← chosen] at picked size left alone ⊢
  have divides : start.bufSize ∣ 4096 := size ▸ steady.divides
  have positive := picked.counted.positive
  rcases cases with ⟨_,rfl⟩ | ⟨bound,⟨ready,rfl⟩ | ⟨_,⟨_,rfl⟩ | ⟨_,⟨_,rfl⟩ | ⟨_,k,_,_,rfl⟩⟩⟩⟩
  · cases dropped
  · obtain ⟨width,_⟩ := advance_frame (roomFor start.bufSize d) (start,([] : List (Mpdu α)))
    by_cases single : start.bufSize = 1 ∧ d = 2048
    · -- The window did not move, and its only slot is empty.
      rw [room,single.1,single.2,roomFor_far] at ready
      have empty := single_empty picked.counted alone (left.trans (lone (size ▸ single.1))) (Nat.mod_lt skb.seqNum positive)
      change rxReorderReady (start.reorderBuf (skb.seqNum % start.bufSize)) = true at ready
      rw [empty] at ready
      cases ready
    have place := moved_ahead (w := (start,([] : List (Mpdu α)))) picked.counted (distance ▸ bound)
    have moved := advance_aligned (w := (start,([] : List (Mpdu α)))) picked.counted divides picked.aligned (roomFor start.bufSize d)
    have slot := slot_of_number (s := w.1) (by rw [room,width]; exact divides) (seqNum_lt skb)
    rw [← distance,← room] at place
    rw [← room] at moved width
    have inside : d - roomFor start.bufSize d < start.bufSize := by
      rw [roomFor_near bound positive single]
      omega
    rw [slot] at ready
    cases held : w.1.reorderBuf (slotAt w.1 (ahead w.1.headSeqNum skb.seqNum)) with
    | nil =>
      rw [held] at ready
      cases ready
    | cons f =>
      have found : f ∈ w.1.reorderBuf (slotAt w.1 (ahead w.1.headSeqNum skb.seqNum)) := held ▸ List.mem_cons_self
      have number := moved _ (by rw [place,width]; exact inside) f found
      have older : f ∈ (advance (roomFor start.bufSize d) (start,([] : List (Mpdu α)))).1.reorderBuf
          (slotAt start (roomFor start.bufSize d + (d - roomFor start.bufSize d))) := by
        rw [← slotAt_advance (w := (start,([] : List (Mpdu α)))) picked.counted.head divides,← room,← place]
        exact found
      rw [advance_slot (w := (start,([] : List (Mpdu α)))) picked.counted divides inside] at older
      split at older
      case isTrue =>
        refine ⟨f,mem_buffered.mpr ⟨_,Nat.mod_lt _ positive,older⟩,?_⟩
        have bound := seqNum_lt skb
        unfold ahead at number
        omega
      case isFalse => cases older
  · cases dropped
  · cases dropped
  · cases dropped

def Late (hz : UInt16) (jiffies : Jiffies) (s : TidAmpduRx α) : Prop :=
  ∀ i, i < s.bufSize → rxReorderReady (s.reorderBuf i) = true →
    timeAfter jiffies (s.reorderTime i + htRxReorderBufTimeout hz) = true

theorem scanBody_out (ran : scanBody fuel hz jiffies index scan = some next) (out : next.out = true)
    (going : scan.out = false) : rxReorderReady (scan.work.1.reorderBuf scan.j) = true ∧
      timeAfter jiffies (scan.work.1.reorderTime scan.j + htRxReorderBufTimeout hz) = false := by
  unfold scanBody at ran
  simp only at ran
  split at ran
  · cases ran
    exact nomatch going.symm.trans out
  · rename_i ready
    split at ran
    · rename_i wait
      simp only [Bool.and_eq_true,Bool.not_eq_true'] at wait
      exact ⟨by simpa using ready,wait.2⟩
    · obtain ⟨t,_,same⟩ := Option.bind_eq_some_iff.mp ran
      cases same
      exact nomatch going.symm.trans out

theorem buffered_nil_kept (empty : buffered w.1 = []) (n : Nat) : buffered (advance n w).1 = [] := by
  rw [buffered_empty] at empty ⊢
  intro i inside
  rw [(advance_frame n w).1] at inside
  rcases advance_either n w i with gone | same
  · exact gone
  · exact same.trans (empty i inside)

theorem scan_late (counted : Counted w.1) (divides : w.1.bufSize ∣ 4096) (single : Single w.1)
    (unready : rxReorderReady (w.1.reorderBuf (slotAt w.1 0)) = false) (late : Late hz jiffies w.1) (fuelled : enough ≤ fuel)
    (ran : scanTimedOut fuel hz jiffies (slotAt w.1 0) w = some scan) :
    buffered scan.work.1 = [] ∧ scan.out = false ∧ Counted scan.work.1 := by
  have bound := counted.small
  have positive := counted.positive
  unfold ieee80211MaxAmpduBuf at bound
  have empty := (ready_single single _).mp unready
  have around : slotAt w.1 (1 + (w.1.bufSize - 1)) = slotAt w.1 0 := by
    unfold slotAt
    rw [show 1 + (w.1.bufSize - 1) = w.1.bufSize by omega,Nat.add_mod_right]
    rfl
  have walk := whileM_rounds (fun scan => scan.j != slotAt w.1 0 && !scan.out)
    (scanBody fuel hz jiffies (slotAt w.1 0)) fuel (s := Scan.mk w 1 ((slotAt w.1 0 + 1) % w.1.bufSize) false)
    (w.1.bufSize - 1) (fun k scan => ScannedTo w k scan ∧ scan.out = false)
    ⟨⟨0,by omega,rfl,.inr ⟨slotAt_shift _ _,rfl,?_⟩⟩,rfl⟩ ?_ ?_ (Nat.le_trans (by unfold enough; omega) fuelled)
  · obtain ⟨k,_,small,walked,⟨⟨n,low,moved,place⟩,going⟩,stopped⟩ := walk
    cases walked.symm.trans ran
    obtain ⟨place,_,skips⟩ := place.resolve_left (by simp [going])
    have there : k = w.1.bufSize - 1 := by
      by_contra early
      simp only [place,going,Bool.not_false,Bool.and_true,bne_eq_false_iff_eq] at stopped
      exact slotAt_ne (by omega) (by omega) stopped.symm
    refine ⟨?_,going,moved ▸ (advance_counted counted n).1⟩
    rw [moved,buffered_empty]
    intro i inside
    rw [(advance_frame n w).1] at inside
    obtain ⟨m,small,rfl⟩ := ring_cover (Nat.mod_lt w.1.headSeqNum positive) inside
    rw [Nat.mod_add_mod]
    refine (advance_buf counted.head divides small n).trans ?_
    split
    · rfl
    · exact (ready_single single _).mp (skips m (by omega) (by omega))
  · intro m _ _
    rw [show m = 0 by omega]
    exact unready
  · rintro k _ _ ⟨scanned,going⟩ _
    obtain ⟨next,ran,moves⟩ := scanBody_moves counted divides empty (by omega) fuelled scanned going
    refine ⟨next,ran,moves,?_⟩
    cases out : next.out with
    | false => rfl
    | true =>
      obtain ⟨ready,fresh⟩ := scanBody_out ran out going
      obtain ⟨n,_,moved,place⟩ := scanned
      obtain ⟨place,_⟩ := place.resolve_left (by simp [going])
      rw [moved,place,advance_buf counted.head divides (by omega),if_neg (by omega)] at ready
      rw [moved,place,(advance_frame n w).2.1] at fresh
      exact nomatch (late _ (Nat.mod_lt _ positive) ready).symm.trans fresh
  · rintro _ ⟨⟨_,_,_,out | ⟨place,_⟩⟩,going⟩
    · exact nomatch going.symm.trans out
    · simp [place,around]

theorem buffered_none (counted : Counted s) (single : Single s) (none_left : s.storedMpduNum = 0) : buffered s = [] := by
  rw [buffered_empty]
  exact fun i inside => single_empty counted single none_left inside

theorem timeout_late (steady : Steady s) (late : Late hz jiffies s) (fuelled : enough ≤ fuel)
    (ran : step fuel hz (.timeout jiffies) s = some u) :
    if rxReorderReady (s.reorderBuf (slotAt s 0)) then rxReorderReady (u.1.reorderBuf (slotAt u.1 0)) = false ∧ Late hz jiffies u.1
    else buffered u.1 = [] := by
  have single : Single {s with reorderTimer := none} := ⟨steady.single.one,steady.single.whole⟩
  change staReorderRelease fuel hz jiffies ({s with reorderTimer := none},[]) = some u at ran
  unfold staReorderRelease at ran
  simp only at ran
  split at ran
  case isTrue scanned =>
    simp only [Bool.and_eq_true,Bool.not_eq_true'] at scanned
    have unready : rxReorderReady (s.reorderBuf (slotAt s 0)) = false := scanned.1
    obtain ⟨_,walked,rest⟩ := Option.bind_eq_some_iff.mp ran
    obtain ⟨nothing,going,_⟩ := scan_late (w := ({s with reorderTimer := none},[])) steady.fired steady.divides single
      scanned.1 late fuelled walked
    rw [if_neg (by simp [going])] at rest
    obtain ⟨_,rfl⟩ := setTimer_only rest
    rw [if_neg (by simp [unready])]
    exact nothing
  case isFalse direct =>
    obtain ⟨v,released,rest⟩ := Option.bind_eq_some_iff.mp ran
    obtain ⟨n,_,rfl,stopped⟩ := releaseReady_advance (w := ({s with reorderTimer := none},[])) steady.fired released
    obtain ⟨_,rfl⟩ := setTimer_only rest
    obtain ⟨size,times,_⟩ := advance_frame n ({s with reorderTimer := none},([] : List (Mpdu α)))
    cases ready : rxReorderReady (s.reorderBuf (slotAt s 0)) with
    | true =>
      refine ⟨stopped,fun i inside filled => ?_⟩
      change rxReorderReady ((advance n ({s with reorderTimer := none},[])).1.reorderBuf i) = true at filled
      show timeAfter jiffies ((advance n ({s with reorderTimer := none},[])).1.reorderTime i + _) = true
      rw [times]
      rcases advance_either n ({s with reorderTimer := none},[]) i with gone | same
      · rw [gone] at filled
        cases filled
      · rw [same] at filled
        exact late i (size ▸ inside) filled
    | false =>
      have unready : rxReorderReady (s.reorderBuf (s.headSeqNum % s.bufSize)) = false := ready
      have none_left : s.storedMpduNum = 0 := by simpa [unready] using direct
      have empty : buffered {s with reorderTimer := none} = [] := buffered_none steady.fired single none_left
      exact buffered_nil_kept (w := ({s with reorderTimer := none},[])) empty n

theorem timeouts_flush (steady : Steady s) (late : Late hz jiffies s) (fuelled : enough ≤ fuel) :
    ∃ u, run fuel hz [.timeout jiffies,.timeout jiffies] s = some u ∧ buffered u.1 = [] ∧ u.2.Perm (buffered s) := by
  obtain ⟨u,first,_⟩ := step_counted steady.counted steady.timed fuelled hz (.timeout jiffies)
  obtain ⟨next,_⟩ := step_steady (e := .timeout jiffies) steady trivial fuelled first
  obtain ⟨v,second,_⟩ := step_counted next.counted next.timed fuelled hz (.timeout jiffies)
  have one := timeout_late steady late fuelled first
  have conserved := step_conserves (e := .timeout jiffies) steady trivial fuelled first
  have conserved' := step_conserves (e := .timeout jiffies) next trivial fuelled second
  change (buffered s ++ []).Perm _ at conserved
  change (buffered u.1 ++ []).Perm _ at conserved'
  rw [append_nil] at conserved conserved'
  have empty : buffered v.1 = [] := by
    split at one
    · have two := timeout_late next one.2 fuelled second
      rwa [if_neg (by simp [one.1])] at two
    · rw [one] at conserved'
      exact (List.append_eq_nil_iff.mp conserved'.nil_eq.symm).2
  refine ⟨_,run_cons first (run_cons second rfl),empty,?_⟩
  rw [empty] at conserved'
  exact (conserved'.symm.append_left _).trans conserved.symm

end Mac80211.RxReorder

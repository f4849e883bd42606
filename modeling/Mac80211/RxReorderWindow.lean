import Mac80211.RxReorderCount

namespace Mac80211.RxReorder
open Loops
open Function (iterate_add_apply iterate_succ_apply' update update_of_ne update_self)

variable {s t u : TidAmpduRx α} {frames : List (Mpdu α)}

def releaseHead (w : Work α) : Work α := releaseReorderFrame (w.1.headSeqNum % w.1.bufSize) w

def advance (n : Nat) (w : Work α) : Work α := releaseHead^[n] w

def withTimer (timer : Option Jiffies) (w : Work α) : Work α := ({w.1 with reorderTimer := timer},w.2)

-- For a size that divides the number of sequence numbers.
def slotAt (s : TidAmpduRx α) (m : Nat) : Nat := (s.headSeqNum + m) % s.bufSize

theorem advance_succ (n : Nat) (w : Work α) : advance (n + 1) w = releaseHead (advance n w) :=
  iterate_succ_apply' _ _ _

theorem advance_add (m n : Nat) (w : Work α) : advance (m + n) w = advance m (advance n w) :=
  iterate_add_apply _ _ _ _

@[simp] theorem release_frame (index : Nat) (w : Work α) : (releaseReorderFrame index w).1.bufSize = w.1.bufSize ∧
    (releaseReorderFrame index w).1.reorderTime = w.1.reorderTime ∧
    (releaseReorderFrame index w).1.reorderTimer = w.1.reorderTimer ∧
    (releaseReorderFrame index w).1.autoSeq = w.1.autoSeq := by
  obtain ⟨s,_⟩ := w
  cases ready : rxReorderReady (s.reorderBuf index) with
  | false =>
    rw [release_unready ready]
    exact ⟨rfl,rfl,rfl,rfl⟩
  | true =>
    rw [release_ready ready]
    exact ⟨rfl,rfl,rfl,rfl⟩

theorem release_out (index : Nat) (w : Work α) : (releaseReorderFrame index w).2 =
    w.2 ++ if rxReorderReady (w.1.reorderBuf index) then w.1.reorderBuf index else [] := by
  obtain ⟨s,_⟩ := w
  cases ready : rxReorderReady (s.reorderBuf index) with
  | false =>
    rw [release_unready ready]
    simp
  | true =>
    rw [release_ready ready]
    simp

theorem advance_frame (n : Nat) (w : Work α) :
    (advance n w).1.bufSize = w.1.bufSize ∧ (advance n w).1.reorderTime = w.1.reorderTime ∧
    (advance n w).1.reorderTimer = w.1.reorderTimer ∧ (advance n w).1.autoSeq = w.1.autoSeq := by
  induction n with
  | zero => exact ⟨rfl,rfl,rfl,rfl⟩
  | succ n ih =>
    obtain ⟨size,times,timer,auto⟩ := release_frame ((advance n w).1.headSeqNum % (advance n w).1.bufSize) (advance n w)
    rw [advance_succ]
    exact ⟨size.trans ih.1,times.trans ih.2.1,timer.trans ih.2.2.1,auto.trans ih.2.2.2⟩

theorem advance_head (head : w.1.headSeqNum < 4096) (n : Nat) :
    (advance n w).1.headSeqNum = (w.1.headSeqNum + n) % 4096 := by
  induction n with
  | zero => exact (Nat.mod_eq_of_lt head).symm
  | succ n ih =>
    rw [advance_succ]
    show (releaseReorderFrame _ _).1.headSeqNum = _
    rw [release_head,ih]
    unfold snInc snAdd
    omega

theorem advance_counted (counted : Counted w.1) (n : Nat) : Counted (advance n w).1 ∧ Fewer w.1 (advance n w).1 := by
  induction n with
  | zero => exact ⟨counted,Fewer.refl _⟩
  | succ n ih =>
    obtain ⟨counted,fewer⟩ := ih
    obtain ⟨next,lower,_⟩ := release_counted counted (slot_inside counted (advance n w).1.headSeqNum) (advance n w).2
    rw [advance_succ]
    exact ⟨next,fewer.trans lower⟩

theorem slot_mod (divides : size ∣ 4096) (n : Nat) : n % 4096 % size = n % size := Nat.mod_mod_of_dvd _ divides

theorem advance_buf (head : w.1.headSeqNum < 4096) (divides : w.1.bufSize ∣ 4096) (small : m < w.1.bufSize)
    (n : Nat) : (advance n w).1.reorderBuf (slotAt w.1 m) = if m < n then [] else w.1.reorderBuf (slotAt w.1 m) := by
  induction n with
  | zero => rfl
  | succ n ih =>
    rw [advance_succ]
    show (releaseReorderFrame _ _).1.reorderBuf _ = _
    rw [release_buf,(advance_frame n w).1,advance_head head,slot_mod divides]
    by_cases same : m = n
    · subst same
      rw [if_pos (by omega)]
      exact update_self _ _ _
    · by_cases before : m < n
      · rw [if_pos before] at ih
        rw [if_pos (by omega)]
        by_cases met : slotAt w.1 m = (w.1.headSeqNum + n) % w.1.bufSize
        · rw [met,update_self]
        · rw [update_of_ne met,ih]
      · rw [if_neg before] at ih
        rw [if_neg (by omega),update_of_ne,ih]
        exact (ring_inj (by omega) (by omega) _).symm

theorem advance_out (positive : 0 < w.1.bufSize) (outside : w.1.bufSize ≤ i) (n : Nat) :
    (advance n w).1.reorderBuf i = w.1.reorderBuf i := by
  induction n with
  | zero => rfl
  | succ n ih =>
    rw [advance_succ]
    show (releaseReorderFrame _ _).1.reorderBuf _ = _
    rw [release_buf,update_of_ne,ih]
    have inside := Nat.mod_lt (advance n w).1.headSeqNum positive
    rw [(advance_frame n w).1]
    omega

theorem advance_either (n : Nat) (w : Work α) (i : Nat) :
    (advance n w).1.reorderBuf i = [] ∨ (advance n w).1.reorderBuf i = w.1.reorderBuf i := by
  induction n with
  | zero => exact .inr rfl
  | succ n ih =>
    rw [advance_succ]
    unfold releaseHead
    rw [release_buf]
    by_cases same : i = (advance n w).1.headSeqNum % (advance n w).1.bufSize
    · rw [same,update_self]
      exact .inl rfl
    · rw [update_of_ne same]
      exact ih

theorem advance_unready (head : s.headSeqNum < 4096) (divides : s.bufSize ∣ 4096) (n : Nat) (small : n ≤ s.bufSize)
    (unready : ∀ m, m < n → rxReorderReady (s.reorderBuf (slotAt s m)) = false) (frames : List (Mpdu α)) :
    ∃ buf, advance n (s,frames) = ({s with reorderBuf := buf,headSeqNum := (s.headSeqNum + n) % 4096},frames) := by
  induction n with
  | zero =>
    refine ⟨s.reorderBuf,?_⟩
    rw [Nat.add_zero,Nat.mod_eq_of_lt head]
    rfl
  | succ n ih =>
    obtain ⟨buf,moved⟩ := ih (by omega) fun m small => unready m (by omega)
    have slot := advance_buf (w := (s,frames)) (m := n) head divides (by show n < s.bufSize; omega) n
    rw [moved,if_neg (by omega)] at slot
    have place : (s.headSeqNum + n) % 4096 % s.bufSize = slotAt s n := slot_mod divides _
    rw [advance_succ,moved]
    unfold releaseHead
    rw [place,release_unready (slot ▸ unready n (by omega))]
    refine ⟨update buf (slotAt s n) [],?_⟩
    have next : snInc ((s.headSeqNum + n) % 4096) = (s.headSeqNum + (n + 1)) % 4096 := by
      unfold snInc snAdd
      omega
    rw [next]
    rfl

theorem snLess_ahead (headSeqNum sn : Nat) :
    snLess headSeqNum sn = true ↔ 0 < ahead headSeqNum sn ∧ ahead headSeqNum sn < 2048 := by
  simp only [snLess,decide_eq_true_eq]
  unfold ahead
  omega

theorem releaseReorderFrames_advance {w u : Work α} (head : w.1.headSeqNum < 4096)
    (ran : releaseReorderFrames fuel sn w = some u) :
    u = advance (if ahead w.1.headSeqNum sn < 2048 then ahead w.1.headSeqNum sn else 0) w := by
  by_cases near : ahead w.1.headSeqNum sn < 2048
  · rw [if_pos near]
    have walk := whileM_keeps (fun u => ∃ n, n ≤ ahead w.1.headSeqNum sn ∧ u = advance n w) ⟨0,Nat.zero_le _,rfl⟩ ?_ ran
    · obtain ⟨⟨n,bound,rfl⟩,stopped⟩ := walk
      have there : ¬(0 < ahead (advance n w).1.headSeqNum sn ∧ ahead (advance n w).1.headSeqNum sn < 2048) := by
        rw [← snLess_ahead]
        simpa using stopped
      rw [advance_head head] at there
      have all : n = ahead w.1.headSeqNum sn := by
        unfold ahead at there bound near ⊢
        omega
      rw [← all]
    · rintro _ _ ⟨n,bound,rfl⟩ going ran
      cases ran
      obtain ⟨left,_⟩ := (snLess_ahead _ _).mp going
      rw [advance_head head] at left
      refine ⟨n + 1,?_,(advance_succ n w).symm⟩
      unfold ahead at left bound ⊢
      omega
  · rw [if_neg near]
    have stopped : snLess w.1.headSeqNum sn = false := by
      have not_less := mt (snLess_ahead w.1.headSeqNum sn).mp (fun less => near less.2)
      simpa using not_less
    have still : releaseReorderFrames fuel sn w = some w := whileM_stop _ _ _ stopped
    exact Option.some.inj (ran.symm.trans still)

theorem releaseReady_advance {w u : Work α} (counted : Counted w.1) (ran : releaseReady fuel w = some u) :
    ∃ n, n ≤ w.1.storedMpduNum ∧ u = advance n w ∧ rxReorderReady (u.1.reorderBuf (slotAt u.1 0)) = false := by
  have walk := whileM_keeps (fun u => ∃ n, u = advance n w ∧ Counted u.1 ∧ n + u.1.storedMpduNum ≤ w.1.storedMpduNum)
    ⟨0,rfl,counted,Nat.le_of_eq (Nat.zero_add _)⟩ ?_ ran
  · obtain ⟨⟨n,moved,next,_⟩,stopped⟩ := walk
    exact ⟨n,by omega,moved,stopped⟩
  · rintro _ _ ⟨n,rfl,counted,_⟩ ready ran
    cases ran
    obtain ⟨next,_,less⟩ := release_counted counted (slot_inside counted _) (advance n w).2
    refine ⟨n + 1,(advance_succ n w).symm,next,?_⟩
    have lower : (releaseReorderFrame _ (advance n w)).1.storedMpduNum < _ := less ready
    omega

def Due (hz : UInt16) (jiffies : Jiffies) (s : TidAmpduRx α) (start upto : Nat) : Prop :=
  ∃ k, start < k ∧ k < upto ∧ rxReorderReady (s.reorderBuf (slotAt s k)) = true ∧
    (∀ m, start < m → m < k → rxReorderReady (s.reorderBuf (slotAt s m)) = false) ∧
    timeAfter jiffies (s.reorderTime (slotAt s k) + htRxReorderBufTimeout hz) = true

def DueBehind (hz : UInt16) (jiffies : Jiffies) (s : TidAmpduRx α) (start upto : Nat) : Prop :=
  s.reorderBuf (slotAt s start) ≠ [] ∧ rxReorderReady (s.reorderBuf (slotAt s start)) = false ∧ Due hz jiffies s start upto

theorem release_shift (ready : rxReorderReady (s.reorderBuf j) = true) (frames : List (Mpdu α)) (k : Nat) :
    ({(releaseReorderFrame j (s,frames)).1 with headSeqNum := snAdd (releaseReorderFrame j (s,frames)).1.headSeqNum k},
      (releaseReorderFrame j (s,frames)).2) =
    releaseReorderFrame j ({s with headSeqNum := (s.headSeqNum + k) % 4096},frames) := by
  have shift : snAdd (snInc s.headSeqNum) k = snInc ((s.headSeqNum + k) % 4096) := by
    unfold snInc snAdd
    omega
  rw [release_ready ready,release_ready (s := {s with headSeqNum := (s.headSeqNum + k) % 4096}) ready]
  simp only [shift]
  rfl

-- The window has moved by n slots, and those skipped hold no complete frame.
def ScannedTo (w : Work α) (k : Nat) (scan : Scan α) : Prop :=
  ∃ n, n ≤ 1 + k ∧ scan.work = advance n w ∧ (scan.out = true ∨ scan.j = slotAt w.1 (1 + k) ∧ n + scan.skipped = 1 + k ∧
    ∀ m, n ≤ m → m < 1 + k → rxReorderReady (w.1.reorderBuf (slotAt w.1 m)) = false)

theorem slotAt_ne (apart : m < n) (within : n < m + s.bufSize) : slotAt s m ≠ slotAt s n := ring_inj apart within _

theorem slotAt_apart (other : m ≠ n) (small : m < s.bufSize) (bound : n < s.bufSize) (k : Nat) :
    slotAt s (k + m) ≠ slotAt s (k + n) := by
  rcases Nat.lt_or_gt_of_ne other with _ | _
  · exact slotAt_ne (by omega) (by omega)
  · exact (slotAt_ne (by omega) (by omega)).symm

theorem purge_advance {buf : Nat → List (Mpdu α)} (head : w.1.headSeqNum < 4096) (divides : w.1.bufSize ∣ 4096)
    (positive : 0 < w.1.bufSize) (empty : w.1.reorderBuf (slotAt w.1 0) = []) (low : n ≤ k) (high : k < w.1.bufSize)
    (gone : ∀ m, 1 ≤ m → m < k → buf (slotAt w.1 m) = [])
    (left : ∀ i, (∀ m, 1 ≤ m → m < k → i ≠ slotAt w.1 m) → buf i = (advance n w).1.reorderBuf i) :
    buf = (advance k w).1.reorderBuf := by
  funext i
  by_cases inside : i < w.1.bufSize
  · obtain ⟨m,small,rfl⟩ := ring_cover (Nat.mod_lt w.1.headSeqNum positive) inside
    have slot : (w.1.headSeqNum % w.1.bufSize + m) % w.1.bufSize = slotAt w.1 m := Nat.mod_add_mod _ _ _
    rw [slot,advance_buf head divides small]
    by_cases before : m < k
    · rw [if_pos before]
      by_cases first : m = 0
      · subst first
        rw [left _ fun m low high => slotAt_ne (by omega) (by omega),advance_buf head divides positive,empty]
        exact ite_self _
      · exact gone m (by omega) before
    · rw [if_neg before,left _ fun m low high => (slotAt_ne (by omega) (by omega)).symm,advance_buf head divides small,
        if_neg (by omega)]
  · rw [left i,advance_out positive (by omega),advance_out positive (by omega)]
    intro m _ _
    have within : slotAt w.1 m < w.1.bufSize := Nat.mod_lt _ positive
    omega

theorem slotAt_advance (head : w.1.headSeqNum < 4096) (divides : w.1.bufSize ∣ 4096) (n m : Nat) :
    slotAt (advance n w).1 m = slotAt w.1 (n + m) := by
  unfold slotAt
  rw [(advance_frame n w).1,advance_head head,Nat.add_mod,slot_mod divides,← Nat.add_mod,Nat.add_assoc]

theorem slotAt_shift (s : TidAmpduRx α) (m : Nat) : (slotAt s 0 + m) % s.bufSize = slotAt s m := Nat.mod_add_mod _ _ _

theorem scanBody_moves (counted : Counted w.1) (divides : w.1.bufSize ∣ 4096)
    (empty : w.1.reorderBuf (slotAt w.1 0) = []) (small : k + 1 < w.1.bufSize) (fuelled : enough ≤ fuel)
    (scanned : ScannedTo w k scan) (going : scan.out = false) :
    ∃ next, scanBody fuel hz jiffies (slotAt w.1 0) scan = some next ∧ ScannedTo w (k + 1) next := by
  obtain ⟨_,skipped,j,out⟩ := scan
  obtain ⟨n,bound,(moved : _ = advance n w),going_on⟩ := scanned
  cases going
  obtain ⟨place,total,unready⟩ := going_on.resolve_left (fun out => nomatch out)
  change n + skipped = 1 + k at total
  subst moved place
  obtain ⟨size,_,_,_⟩ := advance_frame n w
  have slot := advance_buf (m := 1 + k) counted.head divides (by omega) n
  rw [if_neg (by omega)] at slot
  have next : (slotAt w.1 (1 + k) + 1) % (advance n w).1.bufSize = slotAt w.1 (1 + (k + 1)) := by
    rw [size]
    exact ring_next _ _ _
  cases ready : rxReorderReady (w.1.reorderBuf (slotAt w.1 (1 + k))) with
  | false =>
    refine ⟨_,if_pos (by simp [slot,ready]),n,by omega,rfl,.inr ⟨next,by show n + (skipped + 1) = _; omega,?_⟩⟩
    intro m low _
    by_cases last : m = 1 + k
    · rw [last]
      exact ready
    · exact unready m low (by omega)
  | true =>
    by_cases wait : (skipped != 0 && !timeAfter jiffies
        ((advance n w).1.reorderTime (slotAt w.1 (1 + k)) + htRxReorderBufTimeout hz)) = true
    · exact ⟨_,(if_neg (by simp [slot,ready])).trans (if_pos wait),n,by omega,rfl,.inl rfl⟩
    have bound := counted.small
    unfold ieee80211MaxAmpduBuf at bound
    unfold enough at fuelled
    obtain ⟨buf,ran,gone,left⟩ := purgeSkipped_slots (s := (advance n w).1) fuel (slotAt w.1 0) (k := 1 + k)
      (by omega) (by omega) (by omega)
    have shift : ∀ m, (slotAt w.1 0 + m) % (advance n w).1.bufSize = slotAt w.1 m := by
      intro m
      rw [size]
      exact slotAt_shift _ _
    simp only [shift] at ran gone left
    have purged := purge_advance counted.head divides counted.positive empty (by omega) (by omega) gone left
    have skips : ∀ m, m < skipped → rxReorderReady ((advance n w).1.reorderBuf (slotAt (advance n w).1 m)) = false := by
      intro m _
      rw [slotAt_advance counted.head divides,advance_buf counted.head divides (by omega),if_neg (by omega)]
      exact unready _ (by omega) (by omega)
    obtain ⟨buf',moved⟩ := advance_unready (s := (advance n w).1) (advance_head counted.head n ▸ Nat.mod_lt _ (by decide))
      (size ▸ divides) skipped (by omega) skips (advance n w).2
    have all : advance (1 + k) w =
        ({(advance n w).1 with reorderBuf := buf',headSeqNum := ((advance n w).1.headSeqNum + skipped) % 4096},
          (advance n w).2) := by
      rw [← moved,← total,Nat.add_comm,advance_add]
    have same : buf = buf' := purged.trans (congrArg (fun w => w.1.reorderBuf) all)
    subst same
    have place : slotAt (advance (1 + k) w).1 0 = slotAt w.1 (1 + k) := slotAt_advance counted.head divides _ _
    have filled : rxReorderReady (buf (slotAt w.1 (1 + k))) = true := by
      rw [purged,advance_buf counted.head divides (by omega),if_neg (by omega)]
      exact ready
    have shifted := release_shift (s := {(advance n w).1 with reorderBuf := buf}) filled (advance n w).2 skipped
    have released := scanBody_release (by rw [slot]; exact ready) wait ran (advance n w).2
    refine ⟨_,released,2 + k,by omega,?_,.inr ⟨?_,?_,?_⟩⟩
    · show _ = advance (2 + k) w
      have index : (advance (1 + k) w).1.headSeqNum % (advance (1 + k) w).1.bufSize = slotAt w.1 (1 + k) := place
      rw [show 2 + k = (1 + k) + 1 by omega,advance_succ]
      unfold releaseHead
      rw [index,all]
      exact shifted
    · exact next
    · show 2 + k + 0 = _
      omega
    · intro m _ _
      omega

def ScannedStill (w : Work α) (k : Nat) (scan : Scan α) : Prop :=
  scan.work = w ∧ (scan.out = true ∨ scan.j = slotAt w.1 (1 + k) ∧ scan.skipped = 1 + k ∧
    ∀ m, 0 < m → m < 1 + k → rxReorderReady (w.1.reorderBuf (slotAt w.1 m)) = false)

theorem scanBody_still (fresh : ¬Due hz jiffies w.1 0 w.1.bufSize) (small : k + 1 < w.1.bufSize) (scanned : ScannedStill w k scan) (going : scan.out = false) :
    ∃ next, scanBody fuel hz jiffies (slotAt w.1 0) scan = some next ∧ ScannedStill w (k + 1) next := by
  obtain ⟨work,_,j,out⟩ := scan
  obtain ⟨(same : work = w),going_on⟩ := scanned
  cases going
  obtain ⟨place,total,skips⟩ := going_on.resolve_left (fun out => nomatch out)
  subst same place total
  cases ready : rxReorderReady (work.1.reorderBuf (slotAt work.1 (1 + k))) with
  | false =>
    refine ⟨_,if_pos (by simp [ready]),rfl,.inr ⟨ring_next _ _ _,rfl,?_⟩⟩
    intro m low _
    by_cases last : m = 1 + k
    · rw [last]
      exact ready
    · exact skips m low (by omega)
  | true =>
    cases late : timeAfter jiffies (work.1.reorderTime (slotAt work.1 (1 + k)) + htRxReorderBufTimeout hz) with
    | true => exact absurd ⟨1 + k,by omega,by omega,ready,skips,late⟩ fresh
    | false => exact ⟨_,(if_neg (by simp [ready])).trans (if_pos (by simp [late])),rfl,.inl rfl⟩

theorem scan_advance {scan : Scan α} (counted : Counted w.1) (divides : w.1.bufSize ∣ 4096)
    (unready : rxReorderReady (w.1.reorderBuf (slotAt w.1 0)) = false) (fresh : ¬DueBehind hz jiffies w.1 0 w.1.bufSize)
    (fuelled : enough ≤ fuel) (ran : scanTimedOut fuel hz jiffies (slotAt w.1 0) w = some scan) :
    ∃ n, n ≤ w.1.bufSize ∧ (¬Due hz jiffies w.1 0 w.1.bufSize → n = 0) ∧ scan.work = advance n w := by
  have bound := counted.small
  have positive := counted.positive
  unfold ieee80211MaxAmpduBuf at bound
  have first : (slotAt w.1 0 + 1) % w.1.bufSize = slotAt w.1 (1 + 0) := slotAt_shift _ _
  have around : slotAt w.1 (1 + (w.1.bufSize - 1)) = slotAt w.1 0 := by
    unfold slotAt
    rw [show 1 + (w.1.bufSize - 1) = w.1.bufSize by omega,Nat.add_mod_right]
    rfl
  by_cases due : Due hz jiffies w.1 0 w.1.bufSize
  · have empty : w.1.reorderBuf (slotAt w.1 0) = [] := by
      by_contra filled
      exact fresh ⟨filled,unready,due⟩
    have walk := whileM_rounds (fun scan => scan.j != slotAt w.1 0 && !scan.out)
      (scanBody fuel hz jiffies (slotAt w.1 0)) fuel (s := Scan.mk w 1 ((slotAt w.1 0 + 1) % w.1.bufSize) false)
      (w.1.bufSize - 1) (ScannedTo w) ⟨0,by omega,rfl,.inr ⟨first,rfl,?_⟩⟩ ?_ ?_
      (Nat.le_trans (by unfold enough; omega) fuelled)
    · obtain ⟨k,_,small,walked,⟨n,low,moved,_⟩,_⟩ := walk
      cases walked.symm.trans ran
      exact ⟨n,by omega,fun still => absurd due still,moved⟩
    · intro m low high
      rw [show m = 0 by omega]
      exact unready
    · intro k scan _ scanned going
      simp only [Bool.and_eq_true,Bool.not_eq_true'] at going
      exact scanBody_moves counted divides empty (by omega) fuelled scanned going.2
    · rintro scan ⟨_,_,_,out | ⟨place,_⟩⟩
      · simp [out]
      · simp [place,around]
  have walk := whileM_rounds (fun scan => scan.j != slotAt w.1 0 && !scan.out)
    (scanBody fuel hz jiffies (slotAt w.1 0)) fuel (s := Scan.mk w 1 ((slotAt w.1 0 + 1) % w.1.bufSize) false)
    (w.1.bufSize - 1) (ScannedStill w) ⟨rfl,.inr ⟨first,rfl,fun m low high => by omega⟩⟩ ?_ ?_
    (Nat.le_trans (by unfold enough; omega) fuelled)
  · obtain ⟨k,_,_,walked,⟨same,_⟩,_⟩ := walk
    cases walked.symm.trans ran
    exact ⟨0,Nat.zero_le _,fun _ => rfl,same⟩
  · intro k _ _ scanned going
    simp only [Bool.and_eq_true,Bool.not_eq_true'] at going
    exact scanBody_still due (by omega) scanned going.2
  · rintro _ ⟨_,out | ⟨place,_⟩⟩
    · simp [out]
    · simp [place,around]

theorem setReleaseTimer_only (hz : UInt16) (j : Nat) (w : Work α) :
    ∃ timer, (setReleaseTimer hz j w.1,w.2) = withTimer timer w := by
  unfold setReleaseTimer
  split
  · exact ⟨_,rfl⟩
  · exact ⟨w.1.reorderTimer,rfl⟩

theorem setTimer_only {w u : Work α} (ran : setTimer fuel hz w = some u) : ∃ timer, u = withTimer timer w := by
  unfold setTimer at ran
  split at ran
  · obtain ⟨j,_,set⟩ := Option.bind_eq_some_iff.mp ran
    obtain ⟨timer,same⟩ := setReleaseTimer_only hz j w
    exact ⟨timer,(Option.some.inj set).symm.trans same⟩
  · exact ⟨none,(Option.some.inj ran).symm⟩

theorem staReorderRelease_advance {w u : Work α} (counted : Counted w.1) (divides : w.1.bufSize ∣ 4096)
    (fresh : ¬DueBehind hz jiffies w.1 0 w.1.bufSize) (fuelled : enough ≤ fuel)
    (ran : staReorderRelease fuel hz jiffies w = some u) : ∃ n timer, n ≤ w.1.bufSize ∧
      (if rxReorderReady (w.1.reorderBuf (slotAt w.1 0)) then 0 < n ∧ n ≤ w.1.storedMpduNum
        else ¬Due hz jiffies w.1 0 w.1.bufSize → n = 0) ∧ u = withTimer timer (advance n w) := by
  have most := readySlots_le w.1
  have count := counted.count
  unfold staReorderRelease at ran
  simp only at ran
  split at ran
  case isTrue scanned =>
    simp only [Bool.and_eq_true,Bool.not_eq_true'] at scanned
    have unready : rxReorderReady (w.1.reorderBuf (slotAt w.1 0)) = false := scanned.1
    obtain ⟨scan,walked,rest⟩ := Option.bind_eq_some_iff.mp ran
    obtain ⟨n,small,still,moved⟩ := scan_advance counted divides unready fresh fuelled walked
    simp only [unready,Bool.false_eq_true,if_false]
    cases out : scan.out with
    | true =>
      rw [if_pos out] at rest
      obtain ⟨timer,same⟩ := setReleaseTimer_only hz scan.j scan.work
      exact ⟨n,timer,small,still,(Option.some.inj rest).symm.trans (same.trans (congrArg _ moved))⟩
    | false =>
      rw [if_neg (by simp [out])] at rest
      obtain ⟨timer,same⟩ := setTimer_only rest
      exact ⟨n,timer,small,still,same.trans (congrArg _ moved)⟩
  case isFalse direct =>
    obtain ⟨v,released,rest⟩ := Option.bind_eq_some_iff.mp ran
    obtain ⟨n,few,moved,stopped⟩ := releaseReady_advance counted released
    obtain ⟨timer,same⟩ := setTimer_only rest
    refine ⟨n,timer,by omega,?_,same.trans (congrArg _ moved)⟩
    cases ready : rxReorderReady (w.1.reorderBuf (slotAt w.1 0)) with
    | true =>
      rw [if_pos rfl]
      refine ⟨Nat.pos_of_ne_zero ?_,few⟩
      rintro rfl
      cases moved
      exact nomatch ready.symm.trans stopped
    | false =>
      -- The loop is not entered because nothing is counted.
      rw [if_neg (by decide)]
      intro _
      have unready : rxReorderReady (w.1.reorderBuf (w.1.headSeqNum % w.1.bufSize)) = false := ready
      have none_left : w.1.storedMpduNum = 0 := by simpa [unready] using direct
      omega

def roomFor (size d : Nat) : Nat := if d + 1 - size < 2048 then d + 1 - size else 0

theorem makeRoom_advance {w u : Work α} (counted : Counted w.1) (number : sn < 4096) (ran : makeRoom fuel sn w = some u) :
    u = advance (roomFor w.1.bufSize (ahead w.1.headSeqNum sn)) w := by
  have small := counted.small
  have head := counted.head
  unfold ieee80211MaxAmpduBuf at small
  unfold makeRoom at ran
  split at ran
  case isTrue beyond =>
    have target : ahead w.1.headSeqNum (snInc (snSub sn w.1.bufSize)) = ahead w.1.headSeqNum sn + 1 - w.1.bufSize := by
      simp only [snLess,Bool.not_eq_true',decide_eq_false_iff_not] at beyond
      unfold ahead snInc snAdd snSub
      omega
    rw [releaseReorderFrames_advance head ran,target]
    rfl
  case isFalse within =>
    have stays : roomFor w.1.bufSize (ahead w.1.headSeqNum sn) = 0 := by
      simp only [snLess,Bool.not_eq_true',decide_eq_false_iff_not] at within
      unfold roomFor ahead
      split <;> omega
    rw [stays]
    exact (Option.some.inj ran).symm

theorem slotAt_mod (s : TidAmpduRx α) (m : Nat) : slotAt s (m % s.bufSize) = slotAt s m := Nat.add_mod_mod _ _ _

theorem advance_far (counted : Counted w.1) (divides : w.1.bufSize ∣ 4096) (far : w.1.bufSize ≤ n)
    (inside : i < w.1.bufSize) : (advance n w).1.reorderBuf i = [] := by
  obtain ⟨m,small,rfl⟩ := ring_cover (Nat.mod_lt w.1.headSeqNum counted.positive) inside
  rw [Nat.mod_add_mod]
  exact (advance_buf counted.head divides small n).trans (if_pos (by omega))

theorem advance_slot (counted : Counted w.1) (divides : w.1.bufSize ∣ 4096) (small : m < w.1.bufSize) (n : Nat) :
    (advance n w).1.reorderBuf (slotAt w.1 (n + m)) =
      if n + m < w.1.bufSize then w.1.reorderBuf (slotAt w.1 (n + m)) else [] := by
  by_cases inside : n + m < w.1.bufSize
  · rw [if_pos inside,advance_buf counted.head divides inside,if_neg (by omega)]
  · have place := Nat.mod_lt (n + m) counted.positive
    rw [if_neg inside,← slotAt_mod,advance_buf counted.head divides place,if_pos]
    by_cases far : w.1.bufSize ≤ n
    · omega
    · have around : n + m = n + m - w.1.bufSize + w.1.bufSize := by omega
      rw [around,Nat.add_mod_right,Nat.mod_eq_of_lt (by omega)]
      omega

theorem slot_of_number (divides : s.bufSize ∣ 4096) (number : sn < 4096) :
    sn % s.bufSize = slotAt s (ahead s.headSeqNum sn) := by
  have total : (s.headSeqNum + ahead s.headSeqNum sn) % 4096 = sn := by
    unfold ahead
    omega
  unfold slotAt
  rw [← slot_mod divides (s.headSeqNum + ahead s.headSeqNum sn),total]

end Mac80211.RxReorder

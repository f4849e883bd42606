import Mac80211.RxReorderPlain

namespace Mac80211.RxReorder
open Loops

variable {frames : List (Mpdu α)}

-- Counted on from low across the wraps: strictly increasing, and all before high.
def Numbered (low high : Nat) (sns : List Nat) : Prop :=
  ∃ ns : List Nat, ns.map (· % 4096) = sns ∧ ns.Pairwise (· < ·) ∧ ∀ n ∈ ns, low ≤ n ∧ n < high

theorem Numbered.nil (low high : Nat) : Numbered low high [] := ⟨[],rfl,.nil,fun _ held => nomatch held⟩

theorem Numbered.single (low : Nat) : Numbered low (low + 1) [low % 4096] :=
  ⟨[low],rfl,List.pairwise_singleton _ _,fun n held => by rw [List.mem_singleton.mp held]; omega⟩

theorem Numbered.append (one : Numbered low middle first) (two : Numbered middle high second)
    (before : low ≤ middle) (after : middle ≤ high) : Numbered low high (first ++ second) := by
  obtain ⟨ns,rfl,increasing,bounds⟩ := one
  obtain ⟨ms,rfl,increasing',bounds'⟩ := two
  refine ⟨ns ++ ms,List.map_append,List.pairwise_append.mpr ⟨increasing,increasing',?_⟩,?_⟩
  · intro n held m held'
    have upper := (bounds n held).2
    have lower := (bounds' m held').1
    omega
  · intro n held
    rcases List.mem_append.mp held with left | right
    · have := bounds n left
      omega
    · have := bounds' n right
      omega

theorem Numbered.shift (numbered : Numbered low high sns) (turns : more % 4096 = 0) : Numbered (low + more) (high + more) sns := by
  obtain ⟨ns,rfl,increasing,bounds⟩ := numbered
  refine ⟨ns.map (· + more),?_,?_,?_⟩
  · rw [List.map_map]
    refine List.map_congr_left fun n _ => ?_
    show (n + more) % 4096 = n % 4096
    omega
  · exact List.pairwise_map.mpr (increasing.imp fun less => Nat.add_lt_add_right less _)
  · intro n held
    obtain ⟨m,old,rfl⟩ := List.mem_map.mp held
    have := bounds m old
    omega

theorem head_numbered (counted : Counted s) (aligned : Aligned s) (single : Single s) (count : low % 4096 = s.headSeqNum) :
    Numbered low (low + 1)
      ((if rxReorderReady (s.reorderBuf (slotAt s 0)) then s.reorderBuf (slotAt s 0) else []).map Mpdu.seqNum) := by
  split
  · cases slot : s.reorderBuf (slotAt s 0) with
    | nil => exact .nil _ _
    | cons f rest =>
      have one := single.one (slotAt s 0)
      have number := aligned 0 counted.positive f (slot ▸ List.mem_cons_self)
      rw [slot] at one
      cases rest with
      | nil =>
        have same : f.seqNum = low % 4096 := by omega
        rw [List.map_singleton,same]
        exact .single _
      | cons => simp at one
  · exact .nil _ _

theorem advance_numbered (counted : Counted w.1) (divides : w.1.bufSize ∣ 4096) (aligned : Aligned w.1)
    (single : Single w.1) (count : low % 4096 = w.1.headSeqNum) (n : Nat) :
    ∃ out, (advance n w).2 = w.2 ++ out ∧ Numbered low (low + n) (out.map Mpdu.seqNum) := by
  induction n with
  | zero => exact ⟨[],(List.append_nil _).symm,.nil _ _⟩
  | succ n ih =>
    obtain ⟨_,before,numbered⟩ := ih
    obtain ⟨moved,_⟩ := advance_counted counted n
    have next := head_numbered moved (advance_aligned counted divides aligned n) (advance_single single n)
      (show (low + n) % 4096 = _ by rw [advance_head counted.head]; omega)
    rw [advance_succ]
    unfold releaseHead
    rw [release_out,before,List.append_assoc]
    refine ⟨_,rfl,?_⟩
    rw [List.map_append]
    exact numbered.append next (by omega) (by omega)

def base : Event α → TidAmpduRx α → TidAmpduRx α
  | .mpdu _ skb,s => pickStart skb.seqNum s
  | _,s => s

def Near : Event α → TidAmpduRx α → Prop
  | .mpdu _ skb,s => ¬(s.bufSize = 1 ∧ ahead (pickStart skb.seqNum s).headSeqNum skb.seqNum = 2048)
  | _,_ => True

theorem step_order {u : Work α} (steady : Steady s) (plain : Plain e) (near : Near e s) (fuelled : enough ≤ fuel)
    (ran : step fuel hz e s = some u) : ∃ n, n ≤ 2048 ∧ u.1.headSeqNum = ((base e s).headSeqNum + n) % 4096 ∧
      ∀ low, low % 4096 = (base e s).headSeqNum → Numbered low (low + n) (u.2.map Mpdu.seqNum) := by
  have tidy := plain_tidy steady.counted steady.timed steady.single hz plain
  have bound := steady.counted.small
  unfold ieee80211MaxAmpduBuf at bound
  cases e with
  | mpdu jiffies skb =>
    obtain ⟨r,managed,rfl⟩ := Option.map_eq_some_iff.mp ran
    obtain ⟨start,d,w,chosen,distance,room,cases⟩ := mpdu_cases steady.counted steady.timed steady.divides tidy fuelled managed
    have picked := pickStart_settled steady.toSettled skb
    have alone := pickStart_single steady.single skb.seqNum
    obtain ⟨size,_,_,_⟩ := pickStart_frame skb.seqNum s
    simp only [Near] at near
    show ∃ n, n ≤ 2048 ∧ _ = ((pickStart skb.seqNum s).headSeqNum + n) % 4096 ∧
      ∀ low, low % 4096 = (pickStart skb.seqNum s).headSeqNum → _
    rw [← chosen] at picked alone size near ⊢
    rw [← distance,← size] at near
    have divides : start.bufSize ∣ 4096 := size ▸ steady.divides
    have head := picked.counted.head
    have moved : w.1.headSeqNum = (start.headSeqNum + roomFor start.bufSize d) % 4096 := by
      rw [room]
      exact advance_head (w := (start,[])) head _
    have out := fun low (count : low % 4096 = start.headSeqNum) => advance_numbered (w := (start,([] : List (Mpdu α)))) picked.counted divides
      picked.aligned alone count (roomFor start.bufSize d)
    rw [← room] at out
    have short : d ≤ 2048 → roomFor start.bufSize d ≤ 2047 := by
      unfold roomFor
      split <;> omega
    rcases cases with ⟨_,rfl⟩ | ⟨bound,⟨_,rfl⟩ | ⟨unready,⟨⟨number,_⟩,rfl⟩ | ⟨_,⟨part,rfl⟩ | ⟨whole,k,_,far,rfl⟩⟩⟩⟩
    · exact ⟨0,by omega,(Nat.mod_eq_of_lt head).symm,fun _ _ => .nil _ _⟩
    · refine ⟨_,Nat.le_succ_of_le (short bound),moved,fun low count => ?_⟩
      obtain ⟨sent,released,numbered⟩ := out low count
      rwa [released]
    · have whole : skb.amsduMore = false := plain
      refine ⟨roomFor start.bufSize d + 1,by have := short bound; omega,?_,fun low count => ?_⟩
      · rw [whole]
        show snInc w.1.headSeqNum = _
        unfold snInc snAdd
        omega
      · obtain ⟨sent,released,numbered⟩ := out low count
        show Numbered _ _ ((w.2 ++ [skb]).map Mpdu.seqNum)
        have next : skb.seqNum = (low + roomFor start.bufSize d) % 4096 := by
          omega
        rw [released,List.map_append,List.map_singleton,next]
        exact numbered.append (.single _) (by omega) (by omega)
    · exact nomatch (plain.symm.trans part : false = true)
    rw [if_neg near] at far
    rw [room] at unready
    have fits := stored_counted picked.counted unready whole jiffies
    have queued := stored_aligned picked.counted divides picked.aligned (distance ▸ bound) (distance ▸ near) jiffies []
    rw [← distance] at queued
    have held : Single (stored (roomFor start.bufSize d) jiffies skb (start,[])) := by
      have slots := queueTail_single (advance_single (w := (start,[])) alone (roomFor start.bufSize d)) unready skb whole
      exact ⟨slots.one,slots.whole⟩
    have same := (stored_frame (roomFor start.bufSize d) jiffies skb (start,([] : List (Mpdu α)))).1
    have number : (stored (roomFor start.bufSize d) jiffies skb (start,[])).headSeqNum = w.1.headSeqNum := by
      rw [room]
      rfl
    refine ⟨_,far,?_,fun low count => ?_⟩
    · show (advance k (stored (roomFor start.bufSize d) jiffies skb (start,[]),w.2)).1.headSeqNum = _
      rw [advance_head (w := (stored _ jiffies skb (start,[]),_)) fits.head]
      show ((stored _ jiffies skb (start,[])).headSeqNum + k) % 4096 = _
      omega
    · obtain ⟨sent,released,numbered⟩ := out low count
      obtain ⟨_,later,next⟩ := advance_numbered (w := (stored (roomFor start.bufSize d) jiffies skb (start,[]),w.2))
        fits (by rw [same]; exact divides) queued held (show (low + roomFor start.bufSize d) % 4096 =
          (stored _ jiffies skb (start,[])).headSeqNum by omega) k
      show Numbered _ _ ((advance k (stored (roomFor start.bufSize d) jiffies skb (start,[]),w.2)).2.map Mpdu.seqNum)
      rw [later,List.map_append,released]
      rw [← Nat.add_assoc]
      exact numbered.append next (by omega) (by omega)
  | bar startSeqNum =>
    have moved := releaseReorderFrames_advance (w := (s,[])) steady.counted.head ran
    have short : (if ahead s.headSeqNum (startSeqNum >>> 4).toNat < 2048 then
        ahead s.headSeqNum (startSeqNum >>> 4).toNat else 0) ≤ 2048 := by split <;> omega
    subst moved
    refine ⟨_,short,advance_head (w := (s,[])) steady.counted.head _,fun low count => ?_⟩
    obtain ⟨_,released,numbered⟩ := advance_numbered (w := (s,([] : List (Mpdu α)))) steady.counted steady.divides
      steady.aligned steady.single count (if ahead s.headSeqNum (startSeqNum >>> 4).toNat < 2048 then
        ahead s.headSeqNum (startSeqNum >>> 4).toNat else 0)
    rw [released]
    exact numbered
  | timeout =>
    obtain ⟨n,_,small,_,rfl⟩ := staReorderRelease_advance (w := ({s with reorderTimer := none},[])) steady.fired steady.divides
      tidy fuelled ran
    refine ⟨n,by change n ≤ s.bufSize at small; omega,?_,fun low count => ?_⟩
    · exact advance_head (w := ({s with reorderTimer := none},[])) steady.counted.head n
    · obtain ⟨_,released,numbered⟩ := advance_numbered (w := ({s with reorderTimer := none},([] : List (Mpdu α))))
        steady.fired steady.divides steady.aligned ⟨steady.single.one,steady.single.whole⟩ count n
      show Numbered _ _ ((advance n _).2.map Mpdu.seqNum)
      rw [released]
      exact numbered
  | stop =>
    cases ran
    exact ⟨0,by omega,(Nat.mod_eq_of_lt steady.counted.head).symm,fun _ _ => .nil _ _⟩

theorem advance_silent {w : Work α} (empty : ∀ i, w.1.reorderBuf i = []) (n : Nat) : (advance n w).2 = w.2 := by
  induction n with
  | zero => rfl
  | succ n ih =>
    rw [advance_succ]
    unfold releaseHead
    rw [release_out,advance_empty empty,ih]
    simp

theorem unknown_silent {u : Work α} (steady : Steady s) (unknown : s.autoSeq = true) (other : base e s = s)
    (fuelled : enough ≤ fuel) (ran : step fuel hz e s = some u) : u.2 = [] ∧ u.1.autoSeq = true := by
  have empty := steady.unknown unknown
  cases e with
  | mpdu jiffies skb =>
    obtain ⟨_,_,_,known⟩ := pickStart_frame skb.seqNum s
    have same : (pickStart skb.seqNum s).autoSeq = s.autoSeq := congrArg _ other
    exact nomatch known.symm.trans (same.trans unknown)
  | bar =>
    rw [releaseReorderFrames_advance (w := (s,[])) steady.counted.head ran]
    exact ⟨advance_silent (w := (s,[])) empty _,(advance_frame _ (s,[])).2.2.2.trans unknown⟩
  | timeout =>
    obtain ⟨n,_,_,_,rfl⟩ := staReorderRelease_advance (w := ({s with reorderTimer := none},[])) steady.fired steady.divides
      (single_fresh ⟨steady.single.one,steady.single.whole⟩ _ _ _ _) fuelled ran
    exact ⟨advance_silent (w := ({s with reorderTimer := none},[])) empty n,
      (advance_frame n ({s with reorderTimer := none},([] : List (Mpdu α)))).2.2.2.trans unknown⟩
  | stop =>
    cases ran
    exact ⟨rfl,unknown⟩

def travelled (fuel : Nat) (hz : UInt16) : List (Event α) → TidAmpduRx α → Nat
  | [],_ => 0
  | e :: events,s =>
    match step fuel hz e s with
    | none => 0
    | some u => ahead (base e s).headSeqNum u.1.headSeqNum + travelled fuel hz events u.1

def Forward (fuel : Nat) (hz : UInt16) : List (Event α) → TidAmpduRx α → Prop
  | [],_ => True
  | e :: events,s => ∀ u, step fuel hz e s = some u →
    snLess u.1.headSeqNum (base e s).headSeqNum = false ∧ Forward fuel hz events u.1

def NearRun (fuel : Nat) (hz : UInt16) : List (Event α) → TidAmpduRx α → Prop
  | [],_ => True
  | e :: events,s => Near e s ∧ ∀ u, step fuel hz e s = some u → NearRun fuel hz events u.1

structure Counts (low far : Nat) (u : Work α) : Prop where
  head : (low + far) % 4096 = u.1.headSeqNum
  numbered : Numbered low (low + far) (u.2.map Mpdu.seqNum)

theorem Counts.cons (one : Counts low n u) (two : Counts (low + n) far v) :
    Counts low (n + far) (v.1,u.2 ++ v.2) := by
  refine ⟨by rw [← Nat.add_assoc]; exact two.head,?_⟩
  rw [List.map_append,← Nat.add_assoc]
  exact one.numbered.append two.numbered (by omega) (by omega)

theorem forward_ahead (short : n ≤ 2048) (moved : sn = (headSeqNum + n) % 4096) :
    ahead headSeqNum sn = n ∧ snLess sn headSeqNum = false := by
  unfold ahead
  simp only [snLess,decide_eq_false_iff_not]
  omega

theorem base_lt (steady : Steady s) (e : Event α) : (base e s).headSeqNum < 4096 := by
  cases e with
  | mpdu jiffies skb => exact (pickStart_counted steady.counted steady.timed skb).1.head
  | bar | timeout | stop => exact steady.counted.head

theorem step_counts (steady : Steady s) (plain : Plain e) (near : Near e s) (fuelled : enough ≤ fuel)
    (ran : step fuel hz e s = some u) : snLess u.1.headSeqNum (base e s).headSeqNum = false ∧
      ∀ low, low % 4096 = (base e s).headSeqNum → Counts low (ahead (base e s).headSeqNum u.1.headSeqNum) u := by
  obtain ⟨n,short,head,numbered⟩ := step_order steady plain near fuelled ran
  obtain ⟨far,forward⟩ := forward_ahead short head
  rw [far]
  refine ⟨forward,fun low count => ⟨?_,numbered low count⟩⟩
  omega

theorem step_known {u : Work α} (steady : Steady s) (plain : Plain e) (fuelled : enough ≤ fuel)
    (ran : step fuel hz e s = some u) (known : s.autoSeq = false) : u.1.autoSeq = false ∧ base e s = s := by
  have tidy := plain_tidy steady.counted steady.timed steady.single hz plain
  cases e with
  | mpdu =>
    obtain ⟨r,managed,rfl⟩ := Option.map_eq_some_iff.mp ran
    exact ⟨(mpdu_aligned steady.toSettled steady.divides tidy fuelled managed).2.1,if_neg (by simp [known])⟩
  | bar =>
    rw [releaseReorderFrames_advance (w := (s,[])) steady.counted.head ran]
    exact ⟨(advance_frame _ (s,[])).2.2.2.trans known,rfl⟩
  | timeout =>
    obtain ⟨n,_,_,_,rfl⟩ := staReorderRelease_advance (w := ({s with reorderTimer := none},[])) steady.fired steady.divides
      tidy fuelled ran
    exact ⟨(advance_frame n ({s with reorderTimer := none},([] : List (Mpdu α)))).2.2.2.trans known,rfl⟩
  | stop =>
    cases ran
    exact ⟨known,rfl⟩

theorem travelled_cons (ran : step fuel hz e s = some u) :
    travelled fuel hz (e :: events) s = ahead (base e s).headSeqNum u.1.headSeqNum + travelled fuel hz events u.1 := by
  simp only [travelled,ran]

theorem forward_cons (ran : step fuel hz e s = some u) (forward : snLess u.1.headSeqNum (base e s).headSeqNum = false)
    (rest : Forward fuel hz events u.1) : Forward fuel hz (e :: events) s := by
  intro v same
  cases ran.symm.trans same
  exact ⟨forward,rest⟩

theorem run_known (steady : Steady s) (known : s.autoSeq = false) (plain : ∀ e ∈ events, Plain e)
    (near : NearRun fuel hz events s) (fuelled : enough ≤ fuel) :
    ∃ u, run fuel hz events s = some u ∧ Steady u.1 ∧ Forward fuel hz events s ∧
      ∀ low, low % 4096 = s.headSeqNum → Counts low (travelled fuel hz events s) u := by
  induction events generalizing s with
  | nil => exact ⟨_,rfl,steady,trivial,fun low count => ⟨count,.nil _ _⟩⟩
  | cons e events ih =>
    obtain ⟨here,later⟩ := near
    have now := plain e List.mem_cons_self
    obtain ⟨u,ran,_⟩ := step_counted steady.counted steady.timed fuelled hz e
    obtain ⟨next,_⟩ := step_steady steady now fuelled ran
    obtain ⟨still,same⟩ := step_known steady now fuelled ran known
    obtain ⟨v,rest,last,forward,counts⟩ := ih next still (fun e held => plain e (List.mem_cons_of_mem _ held)) (later u ran)
    obtain ⟨moved,first⟩ := step_counts steady now here fuelled ran
    refine ⟨_,run_cons ran rest,last,forward_cons ran moved forward,fun low count => ?_⟩
    have one := first low (by rw [same]; exact count)
    rw [travelled_cons ran]
    exact one.cons (counts _ one.head)

theorem run_order (steady : Steady s) (plain : ∀ e ∈ events, Plain e) (near : NearRun fuel hz events s) (fuelled : enough ≤ fuel) :
    ∃ u, run fuel hz events s = some u ∧ Steady u.1 ∧ Forward fuel hz events s ∧
      ∃ low, (s.autoSeq = false → low % 4096 = s.headSeqNum) ∧ Counts low (travelled fuel hz events s) u := by
  induction events generalizing s with
  | nil =>
    have head := Nat.mod_eq_of_lt steady.counted.head
    exact ⟨_,rfl,steady,trivial,s.headSeqNum,fun _ => head,head,.nil _ _⟩
  | cons e events ih =>
    cases auto : s.autoSeq with
    | false =>
      obtain ⟨u,ran,last,forward,counts⟩ := run_known steady auto plain near fuelled
      have head := Nat.mod_eq_of_lt steady.counted.head
      exact ⟨u,ran,last,forward,s.headSeqNum,fun _ => head,counts _ head⟩
    | true =>
      obtain ⟨here,later⟩ := near
      have now := plain e List.mem_cons_self
      have rest := fun e held => plain e (List.mem_cons_of_mem _ held)
      obtain ⟨u,ran,_⟩ := step_counted steady.counted steady.timed fuelled hz e
      obtain ⟨next,_⟩ := step_steady steady now fuelled ran
      obtain ⟨moved,first⟩ := step_counts steady now here fuelled ran
      cases known : u.1.autoSeq with
      | false =>
        obtain ⟨v,after,last,forward,counts⟩ := run_known next known rest (later u ran) fuelled
        have head := Nat.mod_eq_of_lt (base_lt steady e)
        have one := first _ head
        refine ⟨_,run_cons ran after,last,forward_cons ran moved forward,(base e s).headSeqNum,fun given => (nomatch given),?_⟩
        rw [travelled_cons ran]
        exact one.cons (counts _ one.head)
      | true =>
        obtain ⟨v,after,last,forward,low,_,counts⟩ := ih next rest (later u ran)
        have same : base e s = s := by
          cases e with
          | mpdu =>
            have tidy := plain_tidy steady.counted steady.timed steady.single hz now
            obtain ⟨r,managed,rfl⟩ := Option.map_eq_some_iff.mp ran
            exact nomatch (mpdu_aligned steady.toSettled steady.divides tidy fuelled managed).2.1.symm.trans known
          | bar => rfl
          | timeout => rfl
          | stop => rfl
        obtain ⟨silent,_⟩ := unknown_silent steady auto same fuelled ran
        have short := ahead_lt (base e s).headSeqNum u.1.headSeqNum
        refine ⟨_,run_cons ran after,last,forward_cons ran moved forward,
          low + 4096 - ahead (base e s).headSeqNum u.1.headSeqNum,fun given => (nomatch given),?_,?_⟩
        · have head := counts.head
          rw [travelled_cons ran]
          show _ = v.1.headSeqNum
          omega
        · have numbered := (Numbered.nil (low + 4096 - ahead (base e s).headSeqNum u.1.headSeqNum) (low + 4096)).append
            (counts.numbered.shift (by decide : 4096 % 4096 = 0)) (by omega) (by omega)
          rw [silent,travelled_cons ran]
          have ends : low + 4096 - ahead (base e s).headSeqNum u.1.headSeqNum +
              (ahead (base e s).headSeqNum u.1.headSeqNum + travelled fuel hz events u.1) =
              low + travelled fuel hz events u.1 + 4096 := by omega
          rw [ends]
          exact numbered

theorem stored_inside (steady : Steady s) (held : f ∈ s.reorderBuf i) (inside : i < s.bufSize) :
    ahead s.headSeqNum f.seqNum < s.bufSize := by
  obtain ⟨_,same,near,_⟩ := aligned_homogeneous steady.counted steady.divides steady.aligned i inside
  rw [same f held]
  exact near

theorem released_in_order {hw : Hw} {req : AddbaReq} {memory : TidAmpduRx α}
    (started : startRxBaSession hw req memory = some s) (divides : s.bufSize ∣ 4096) (fuelled : enough ≤ fuel)
    (plain : ∀ e ∈ events, Plain e) (near : NearRun fuel hz events s) :
    ∃ u, run fuel hz events s = some u ∧ Forward fuel hz events s ∧
      (∀ i, i < u.1.bufSize → ∀ f ∈ u.1.reorderBuf i, ahead u.1.headSeqNum f.seqNum < u.1.bufSize) ∧
      ∃ low, (s.autoSeq = false → low % 4096 = s.headSeqNum) ∧ Counts low (travelled fuel hz events s) u := by
  obtain ⟨u,ran,steady,forward,counts⟩ := run_order (start_steady started divides) plain near fuelled
  exact ⟨u,ran,forward,fun i inside f held => stored_inside steady held inside,counts⟩

namespace Sample

def offloaded : TidAmpduRx Unit := {session 64 0 false with autoSeq := true}

def shuffled : List (Event Unit) := [.mpdu 0 (wholeMpdu 1 ()),.mpdu 0 (wholeMpdu 0 ()),.bar 160]

end Sample

theorem first_frame_backwards : ∃ u, run enough 250 [.mpdu 0 (wholeMpdu 3000 ())] Sample.offloaded = some u ∧
    snLess u.1.headSeqNum Sample.offloaded.headSeqNum = true := ⟨_,rfl,by decide⟩

theorem released_in_order_sample :
    ∃ u, run enough 250 Sample.shuffled (Sample.session 64 0 false) = some u ∧
      Forward enough 250 Sample.shuffled (Sample.session 64 0 false) ∧
      (∀ i, i < u.1.bufSize → ∀ f ∈ u.1.reorderBuf i, ahead u.1.headSeqNum f.seqNum < u.1.bufSize) ∧
      ∃ low, ((Sample.session 64 0 false).autoSeq = false → low % 4096 = (Sample.session 64 0 false).headSeqNum) ∧
        Counts low (travelled enough 250 Sample.shuffled (Sample.session 64 0 false)) u := by
  refine released_in_order Sample.started (by decide) (Nat.le_refl _) ?_ ⟨fun far => absurd far.1 (by decide),?_⟩
  · intro e held
    simp only [Sample.shuffled,List.mem_cons,List.not_mem_nil,or_false] at held
    rcases held with rfl | rfl | rfl
    · rfl
    · rfl
    · trivial
  · intro u ran
    cases ran
    refine ⟨fun far => absurd far.1 (by decide),?_⟩
    intro u ran
    cases ran
    exact ⟨trivial,fun _ _ => trivial⟩

end Mac80211.RxReorder

import Mac80211.TxqsLenQueue

namespace Mac80211.TxqsLen
open Tally
open Function (update update_of_ne update_self)
open List (mem_filter nodup_cons mem_cons)

section stations
variable {w after : World}

-- The counter of the interface the station is on now goes down, whoever its frames were charged to.
structure Cleaned (w : World) (s : Nat) (tids : List Nat) (after : World) : Prop where
  stations : after.stations = w.stations
  sta : after.sta = w.sta
  reached : after.reached = w.reached
  subqueue : after.subqueue = w.subqueue
  other : ∀ q, (∀ tid ∈ tids, q ≠ .sta s tid) → after.txqs q = w.txqs q
  len : ∀ d ac, after.txqsLen d ac = w.txqsLen d ac -
    if d = (w.sta s).sdata then total (fun tid => (w.size ac (.sta s tid) : Int)) tids else 0

theorem cleanup_cleaned (s : Nat) (tids : List Nat) (nodup : tids.Nodup) (w : World) : Cleaned w s tids (tids.foldl (cleanupTxq s) w) := by
  induction tids generalizing w with
  | nil =>
    refine ⟨rfl,rfl,rfl,rfl,fun _ _ => rfl,fun d ac => ?_⟩
    rw [total_nil,ite_self,Int.sub_zero]
    rfl
  | cons tid rest ih =>
    obtain ⟨apart,nodup⟩ := nodup_cons.mp nodup
    obtain ⟨stations,sta,reached,subqueue,other,len⟩ := ih nodup (cleanupTxq s w tid)
    rw [List.foldl_cons]
    refine ⟨stations,sta,reached,subqueue,fun q outside => ?_,fun d ac => ?_⟩
    · rw [other q fun i member => outside i (List.mem_cons_of_mem _ member)]
      exact setTxq_other w [] (outside tid List.mem_cons_self)
    have first : (cleanupTxq s w tid).txqsLen d ac = w.txqsLen d ac -
        if d = (w.sta s).sdata then (w.size ac (.sta s tid) : Int) else 0 := by
      unfold cleanupTxq
      rw [addLen_at,show (w.setTxq (.sta s tid) []).txqsLen = w.txqsLen from rfl]
      unfold World.size
      by_cases here : d = (w.sta s).sdata
      · rw [if_pos here]
        by_cases same : (Txq.sta s tid).ac = ac
        · rw [if_pos ⟨here,same.symm⟩,if_pos same,Int.sub_eq_add_neg]
        · rw [if_neg fun both => same both.2.symm,if_neg same]
          rfl
      · rw [if_neg here,if_neg fun both => here both.1]
        rfl
    have later : total (fun i => ((cleanupTxq s w tid).size ac (.sta s i) : Int)) rest =
        total (fun i => (w.size ac (.sta s i) : Int)) rest := by
      refine total_congr fun i member => congrArg _ ?_
      have differ : Txq.sta s i ≠ .sta s tid := by
        intro same
        exact apart ((Txq.sta.inj same).2 ▸ member)
      unfold World.size
      rw [show (cleanupTxq s w tid).txqs = (w.setTxq (.sta s tid) []).txqs from rfl,setTxq_other w [] differ]
    rw [len,first,later,total_cons]
    rw [show (cleanupTxq s w tid).sta = w.sta from rfl]
    split <;> omega

structure Gone (w : World) (gone : List Nat) (after : World) : Prop where
  perm : w.stations.Perm (gone ++ after.stations)
  sta : after.sta = w.sta
  reached : after.reached = w.reached
  subqueue : after.subqueue = w.subqueue
  other : ∀ q, (∀ s ∈ gone, ∀ tid, q ≠ .sta s tid) → after.txqs q = w.txqs q
  len : ∀ d ac, after.txqsLen d ac = w.txqsLen d ac - total (fun s => if d = (w.sta s).sdata then (w.waiting ac s : Int) else 0) gone

theorem destroyStation_gone (member : s ∈ w.stations) : Gone w [s] (destroyStation w s) := by
  have cleaned := cleanup_cleaned s (List.range 16) List.nodup_range w
  unfold destroyStation
  dsimp only
  generalize (List.range 16).foldl (cleanupTxq s) w = last at cleaned
  refine ⟨?_,cleaned.sta,cleaned.reached,cleaned.subqueue,fun q outside => ?_,fun d ac => ?_⟩
  · rw [cleaned.stations]
    exact List.perm_cons_erase member
  · exact cleaned.other q fun tid _ => outside s (List.mem_singleton_self s) tid
  · refine (cleaned.len d ac).trans ?_
    rw [total_cons,total_nil,Int.add_zero]
    unfold World.waiting
    rw [← total_natCast]

theorem Gone.trans (distinct : w.stations.Nodup) (first : Gone w [s] mid) (rest : Gone mid gone after) :
    Gone w (s :: gone) after := by
  have apart : ∀ i ∈ gone, i ≠ s := by
    intro i member same
    have inside : i ∈ mid.stations := rest.perm.mem_iff.mpr (List.mem_append_left _ member)
    have nodup := first.perm.nodup_iff.mp distinct
    rw [List.singleton_append,nodup_cons] at nodup
    exact nodup.1 (same ▸ inside)
  refine ⟨?_,rest.sta.trans first.sta,rest.reached.trans first.reached,rest.subqueue.trans first.subqueue,fun q outside => ?_,fun d ac => ?_⟩
  · exact first.perm.trans (rest.perm.cons s)
  · rw [rest.other q fun i member => outside i (List.mem_cons_of_mem _ member)]
    exact first.other q fun i member => outside i (mem_cons.mpr (.inl (List.mem_singleton.mp member)))
  have same : total (fun i => if d = (mid.sta i).sdata then (mid.waiting ac i : Int) else 0) gone =
      total (fun i => if d = (w.sta i).sdata then (w.waiting ac i : Int) else 0) gone := by
    refine total_congr fun i member => ?_
    have waiting : mid.waiting ac i = w.waiting ac i := by
      unfold World.waiting World.size
      refine congrArg List.sum (List.map_congr_left fun tid _ => ?_)
      rw [first.other (.sta i tid)]
      intro j inside _ differ
      exact apart i member ((Txq.sta.inj differ).1.trans (List.mem_singleton.mp inside))
    rw [waiting,first.sta]
  rw [rest.len,first.len,same,total_cons,total_cons,total_nil]
  omega

theorem destroyAll_gone (gone : List Nat) (nodup : gone.Nodup) (w : World) (distinct : w.stations.Nodup)
    (members : ∀ s ∈ gone, s ∈ w.stations) : Gone w gone (gone.foldl destroyStation w) := by
  induction gone generalizing w with
  | nil => exact ⟨List.Perm.refl _,rfl,rfl,rfl,fun _ _ => rfl,fun _ _ => (Int.sub_zero _).symm⟩
  | cons s rest ih =>
    obtain ⟨apart,nodup⟩ := nodup_cons.mp nodup
    have first := destroyStation_gone (members s List.mem_cons_self)
    have perm := first.perm
    refine Gone.trans distinct first (ih nodup _ (nodup_cons.mp (perm.nodup_iff.mp distinct)).2 fun i member => ?_)
    have inside := perm.mem_iff.mp (members i (List.mem_cons_of_mem _ member))
    rcases mem_cons.mp inside with same | there
    · exact absurd (same ▸ member) apart
    · exact there

theorem Gone.charged (went : Gone w gone after) (cfg : Config) (distinct : w.stations.Nodup) (d ac : Nat) :
    (after.charged cfg d ac : Int) = w.charged cfg d ac - total (w.held d ac) gone := by
  have vifs : total (fun i => (after.part d ac (.vif i) : Int)) cfg.interfaces =
      total (fun i => (w.part d ac (.vif i) : Int)) cfg.interfaces := by
    refine total_congr fun i _ => congrArg _ ?_
    unfold World.part
    rw [went.other (.vif i) fun s _ tid same => by cases same]
  have rest : total (after.held d ac) after.stations = total (w.held d ac) after.stations := by
    refine total_congr fun s member => total_congr fun tid _ => congrArg _ ?_
    unfold World.part
    rw [went.other]
    intro i inside _ same
    have nodup := went.perm.nodup_iff.mp distinct
    exact (List.nodup_append.mp nodup).2.2 i inside s member (Txq.sta.inj same).1.symm
  rw [charged_eq,charged_eq,vifs,rest,total_perm went.perm,total_append]
  omega

theorem Gone.kept (went : Gone w gone after) (kept : w.kept) : after.kept := by
  refine ⟨?_,fun d skb member => ?_,fun d ac => ?_⟩
  · exact (List.nodup_append.mp (went.perm.nodup_iff.mp kept.distinct)).2.1
  · rw [went.other (.vif d) fun s _ tid same => by cases same] at member
    exact kept.own d skb member
  · rw [went.reached,went.subqueue]
    exact kept.bits d ac

theorem destroy_sound (kept : w.kept) (sound : w.sound cfg) (s : Nat) :
    ((step cfg w (.destroyStation s)).sound cfg ↔ w.fair cfg (.destroyStation s)) ∧ (step cfg w (.destroyStation s)).kept := by
  unfold step World.fair
  dsimp only
  split
  · rename_i member
    have went := destroyStation_gone member
    refine ⟨?_,went.kept kept⟩
    have charged : ∀ d ac, ((destroyStation w s).charged cfg d ac : Int) = w.charged cfg d ac - w.held d ac s := by
      intro d ac
      rw [went.charged cfg kept.distinct,total_cons,total_nil,Int.add_zero]
    have len : ∀ d ac, (destroyStation w s).txqsLen d ac = w.charged cfg d ac - if d = (w.sta s).sdata then (w.waiting ac s : Int) else 0 := by
      intro d ac
      rw [went.len,(sound d ac).1,total_cons,total_nil,Int.add_zero]
    constructor
    · intro good _
      have only : w.only s (w.sta s).sdata := by
        refine only_iff.mpr fun d apart ac => ?_
        have here := (good d ac).1
        rw [len,charged,if_neg apart] at here
        omega
      refine ⟨only,fun ac all => ?_⟩
      have free := (good (w.sta s).sdata ac).2
      refine free ?_
      have count := charged (w.sta s).sdata ac
      rw [only_held only] at count
      omega
    intro fair d ac
    obtain ⟨only,free⟩ := fair member
    have count := charged d ac
    rw [len,went.reached]
    by_cases here : d = (w.sta s).sdata
    · subst here
      rw [only_held only] at count
      rw [if_pos rfl]
      exact ⟨count.symm,fun empty => free ac (by omega)⟩
    · rw [only_other only here] at count
      rw [if_neg here]
      exact ⟨count.symm,fun empty => (sound d ac).2 (by omega)⟩
  · rename_i absent
    exact ⟨⟨fun _ member => absurd member absent,fun _ => sound⟩,kept⟩

structure Stopped (cfg : Config) (w : World) (d : Nat) (after : World) : Prop where
  kept : after.kept
  stopped : ∀ ac, after.reached d ac = false
  reached : ∀ c, c ≠ d → after.reached c = w.reached c
  charged : ∀ c ac, (after.charged cfg c ac : Int) = w.charged cfg c ac -
    total (w.held c ac) (w.stations.filter fun s => (w.sta s).sdata == d) - w.part c ac (.vif d)
  len : ∀ c ac, after.txqsLen c ac = if c = d ∧ ac = (Txq.vif d).ac then 0 else w.txqsLen c ac -
    if c = d then total (fun s => (w.waiting ac s : Int)) (w.stations.filter fun s => (w.sta s).sdata == d) else 0

theorem doStop_stopped (kept : w.kept) (inside : d ∈ cfg.interfaces) : Stopped cfg w d (doStop w d) := by
  let first : World := {w with subqueue := update w.subqueue d fun _ => true,reached := update w.reached d fun _ => false}
  let gone := w.stations.filter fun s => (w.sta s).sdata == d
  have early : first.kept := by
    refine ⟨kept.distinct,kept.own,fun c ac => ?_⟩
    show update w.reached d (fun _ => false) c ac = true → update w.subqueue d (fun _ => true) c ac = true
    by_cases here : c = d
    · rw [here,update_self,update_self]
      exact fun _ => rfl
    · rw [update_of_ne here,update_of_ne here]
      exact kept.bits c ac
  have went : Gone first gone (gone.foldl destroyStation first) :=
    destroyAll_gone gone (kept.distinct.filter _) first kept.distinct fun s member => (mem_filter.mp member).1
  have middle := went.kept early
  have charged := fun c ac => went.charged cfg kept.distinct c ac
  have same : doStop w d = {(gone.foldl destroyStation first).setTxq (.vif d) [] with
    txqsLen := update (gone.foldl destroyStation first).txqsLen d
      (update ((gone.foldl destroyStation first).txqsLen d) (Txq.vif d).ac 0)} := rfl
  generalize gone.foldl destroyStation first = last at went middle charged same
  rw [same]
  refine ⟨⟨middle.distinct,fun c skb member => ?_,middle.bits⟩,fun ac => ?_,fun c apart => ?_,fun c ac => ?_,fun c ac => ?_⟩
  · by_cases here : c = d
    · rw [here,setTxq_self] at member
      cases member
    · rw [setTxq_other] at member
      · exact middle.own c skb member
      · exact fun same => here (Txq.vif.inj same)
  · show last.reached d ac = false
    rw [went.reached]
    show update w.reached d (fun _ => false) d ac = false
    rw [update_self]
  · show last.reached c = w.reached c
    rw [went.reached]
    exact update_of_ne apart ..
  · have change := charged_setTxq (q := .vif d) middle.distinct inside [] c ac
    have queue : last.part c ac (.vif d) = w.part c ac (.vif d) := by
      unfold World.part
      rw [went.other (.vif d) fun s _ tid same => by cases same]
    have empty : (last.setTxq (.vif d) []).part c ac (.vif d) = 0 := by
      rw [part_setTxq_same,List.countP_nil,ite_self]
    rw [charged c ac,queue,empty] at change
    refine (congrArg Nat.cast (charged_same rfl rfl)).trans (change.trans ?_)
    exact Int.add_zero _
  dsimp only
  rw [update_pair]
  split
  · rfl
  · rw [went.len]
    refine congrArg _ ?_
    have place : ∀ s ∈ gone, (w.sta s).sdata = d := fun s member => beq_iff_eq.mp (mem_filter.mp member).2
    split
    · rename_i here
      exact total_congr fun s member => if_pos (here.trans (place s member).symm)
    · rename_i other
      rw [total_congr fun s member => if_neg fun same => other (same.trans (place s member))]
      exact (total_eq_zero fun _ _ => Int.le_refl 0).mpr fun _ _ => rfl

theorem part_own (kept : w.kept) (apart : c ≠ d) (ac : Nat) : w.part c ac (.vif d) = 0 := by
  unfold World.part
  split
  · refine List.countP_eq_zero.mpr fun skb member same => apart ?_
    exact (beq_iff_eq.mp same).symm.trans (kept.own d skb member)
  · rfl

theorem charged_split (kept : w.kept) (inside : d ∈ cfg.interfaces) (ac : Nat) (p : Nat → Bool) :
    (w.charged cfg d ac : Int) =
      w.part d ac (.vif d) + total (w.held d ac) (w.stations.filter p) + total (w.held d ac) (w.stations.filter fun s => !p s) := by
  have vifs : total (fun i => (w.part d ac (.vif i) : Int)) cfg.interfaces = w.part d ac (.vif d) := by
    have change := total_change (f := fun _ => 0) (g := fun i => (w.part d ac (.vif i) : Int)) cfg.distinct inside fun i _ apart => by
      rw [part_own kept apart.symm]
      rfl
    rw [(total_eq_zero fun _ _ => Int.le_refl 0).mpr fun _ _ => rfl] at change
    omega
  rw [charged_eq,vifs,← total_perm (List.filter_append_perm p w.stations),total_append]
  omega

section
variable (kept : w.kept) (sound : w.sound cfg)
include kept sound

theorem stop_sound (d : Nat) :
    ((step cfg w (.ifStop d)).sound cfg ↔ w.fair cfg (.ifStop d)) ∧ (step cfg w (.ifStop d)).kept := by
  unfold step World.fair
  dsimp only
  split
  · rename_i inside
    have stopped := doStop_stopped kept inside
    refine ⟨?_,stopped.kept⟩
    generalize doStop w d = after at stopped
    have ends : ∀ c ac, 0 ≤ total (w.held c ac) (w.stations.filter fun s => (w.sta s).sdata == d) :=
      fun c ac => total_nonneg fun s _ => held_nonneg w c ac s
    constructor
    · intro good _
      constructor
      · intro s member place
        refine only_iff.mpr fun c apart ac => ?_
        have here := (good c ac).1
        rw [stopped.len,if_neg fun both => apart both.1,if_neg apart,(sound c ac).1,stopped.charged] at here
        have nothing : total (w.held c ac) (w.stations.filter fun s => (w.sta s).sdata == d) = 0 := by
          have least := ends c ac
          omega
        exact (total_eq_zero fun s _ => held_nonneg w c ac s).mp nothing s (mem_filter.mpr ⟨member,beq_iff_eq.mpr place⟩)
      · intro s member place tid low ac
        have here := (good d (Txq.vif d).ac).1
        rw [stopped.len,if_pos ⟨rfl,rfl⟩,stopped.charged,charged_split kept inside _ fun s => (w.sta s).sdata == d] at here
        have nothing : total (w.held d (Txq.vif d).ac) (w.stations.filter fun s => !((w.sta s).sdata == d)) = 0 := by
          omega
        have none := (total_eq_zero fun s _ => held_nonneg w d _ s).mp nothing s
          (mem_filter.mpr ⟨member,by rw [beq_eq_false_iff_ne.mpr place]; rfl⟩)
        exact held_zero.mp none tid low ac
    intro fair c ac
    obtain ⟨mine,others⟩ := fair inside
    have place : ∀ s ∈ w.stations.filter (fun s => (w.sta s).sdata == d), w.only s d := by
      intro s member
      exact mine s (mem_filter.mp member).1 (beq_iff_eq.mp (mem_filter.mp member).2)
    have count := stopped.charged c ac
    by_cases here : c = d
    · subst here
      refine ⟨?_,fun _ => stopped.stopped ac⟩
      rw [stopped.len,count]
      by_cases own : ac = (Txq.vif c).ac
      · have rest : total (w.held c ac) (w.stations.filter fun s => !((w.sta s).sdata == c)) = 0 := by
          refine (total_eq_zero fun s _ => held_nonneg w c ac s).mpr fun s member => held_zero.mpr ?_
          have apart : (w.sta s).sdata ≠ c := by simpa using (mem_filter.mp member).2
          intro tid low same
          exact others s (mem_filter.mp member).1 apart tid low (same.trans own)
        rw [if_pos ⟨rfl,own⟩,charged_split kept inside _ fun s => (w.sta s).sdata == c]
        omega
      · have queue : w.part c ac (.vif c) = 0 := if_neg fun same => own same.symm
        rw [if_neg fun both => own both.2,if_pos rfl,(sound c ac).1,queue,total_congr fun s member => only_held (place s member) ac]
        exact (Int.sub_zero _).symm
    · have nothing : total (w.held c ac) (w.stations.filter fun s => (w.sta s).sdata == d) = 0 :=
        (total_eq_zero fun s _ => held_nonneg w c ac s).mpr fun s member => only_other (place s member) here ac
      rw [nothing,part_own kept here] at count
      rw [stopped.len,if_neg fun both => here both.1,if_neg here,stopped.reached c here]
      have before := sound c ac
      exact ⟨by omega,fun empty => before.2 (by omega)⟩
  · rename_i absent
    exact ⟨⟨fun _ member => absurd member absent,fun _ => sound⟩,kept⟩

theorem quieter (stations : after.stations = w.stations) (txqs : after.txqs = w.txqs)
    (len : after.txqsLen = w.txqsLen) (reached : ∀ d ac, after.reached d ac → w.reached d ac ∧ (w.subqueue d ac → after.subqueue d ac)) :
    after.sound cfg ∧ after.kept := by
  refine ⟨fun d ac => ?_,⟨stations ▸ kept.distinct,fun d skb member => kept.own d skb (txqs ▸ member),fun d ac now => ?_⟩⟩
  · rw [len,charged_same stations txqs]
    refine ⟨(sound d ac).1,fun empty => ?_⟩
    have before := (sound d ac).2 empty
    cases now : after.reached d ac with
    | false => rfl
    | true =>
      rw [(reached d ac now).1] at before
      cases before
  · obtain ⟨before,still⟩ := reached d ac now
    exact still (kept.bits d ac before)

theorem addStation_sound (absent : s ∉ w.stations) (d : Nat) (uploaded : Bool) :
    (addStation w s d uploaded).sound cfg ∧ (addStation w s d uploaded).kept := by
  refine ⟨fun c ac => ?_,⟨nodup_cons.mpr ⟨absent,kept.distinct⟩,kept.own,kept.bits⟩⟩
  have new : (addStation w s d uploaded).held c ac s = 0 := by
    refine held_zero.mpr fun tid _ _ skb member => ?_
    have empty : (addStation w s d uploaded).txqs (.sta s tid) = [] := if_pos rfl
    rw [empty] at member
    cases member
  have old : total ((addStation w s d uploaded).held c ac) w.stations = total (w.held c ac) w.stations := by
    refine total_congr fun i member => total_congr fun tid _ => congrArg _ ?_
    have same : (addStation w s d uploaded).txqs (.sta i tid) = w.txqs (.sta i tid) :=
      if_neg fun same : i = s => absent (same ▸ member)
    unfold World.part
    rw [same]
  have charged : (addStation w s d uploaded).charged cfg c ac = w.charged cfg c ac := by
    have count := charged_eq cfg (addStation w s d uploaded) c ac
    rw [show (addStation w s d uploaded).stations = s :: w.stations from rfl,total_cons,new,old,Int.zero_add] at count
    exact Int.ofNat_inj.mp (count.trans (charged_eq cfg w c ac).symm)
  rw [charged]
  exact sound c ac

omit kept sound in
theorem destroyAll_fault (gone : List Nat) (w : World) : (gone.foldl destroyStation w).fault = w.fault := by
  induction gone generalizing w with
  | nil => rfl
  | cons s rest ih =>
    refine (ih (destroyStation w s)).trans ?_
    show ((List.range 16).foldl (cleanupTxq s) w).fault = w.fault
    generalize List.range 16 = tids
    induction tids generalizing w with
    | nil => rfl
    | cons tid tids ih => exact ih (cleanupTxq s w tid)

omit kept sound in
theorem step_fault (whole : w.fault = false) (e : Event) (other : ∀ d monitorSdata s skb, e ≠ .tx d monitorSdata s skb) :
    (step cfg w e).fault = false := by
  unfold step
  cases e with
  | tx d monitorSdata s skb => exact absurd rfl (other d monitorSdata s skb)
  | dequeue q txqStop =>
    dsimp only
    unfold txDequeue
    split
    · split
      · exact whole
      · split
        · exact whole
        · dsimp only
          split <;> exact whole
    · exact whole
  | destroyStation s =>
    dsimp only
    split
    · exact (destroyAll_fault [s] w).trans whole
    · exact whole
  | ifStop d =>
    dsimp only
    split
    · exact (destroyAll_fault _ _).trans whole
    · exact whole
  | addStation | changeVlan | ifOpen =>
    dsimp only
    split <;> exact whole
  | stopQueue | wakeQueue => exact whole

theorem step_sound (whole : w.fault = false) (e : Event) :
    ((step cfg w e).fault = false ∧ (step cfg w e).sound cfg ↔ w.fair cfg e) ∧ (step cfg w e).kept := by
  by_cases sent : ∃ d monitorSdata s skb, e = .tx d monitorSdata s skb
  · obtain ⟨d,monitorSdata,s,skb,rfl⟩ := sent
    exact tx_sound kept sound whole d monitorSdata s skb
  rw [and_iff_right (step_fault whole e fun d monitorSdata s skb same => sent ⟨d,monitorSdata,s,skb,same⟩)]
  have always : ∀ {after : World}, after.sound cfg ∧ after.kept → (after.sound cfg ↔ True) ∧ after.kept :=
    fun both => ⟨⟨fun _ => trivial,fun _ => both.1⟩,both.2⟩
  have same : w.sound cfg ∧ w.kept := ⟨sound,kept⟩
  cases e with
  | tx => exact absurd ⟨_,_,_,_,rfl⟩ sent
  | dequeue q txqStop hw => exact dequeue_sound kept sound q txqStop hw
  | addStation s d uploaded =>
    refine always ?_
    unfold step
    dsimp only
    split
    · rename_i there
      exact addStation_sound kept sound there.1 d uploaded
    · exact same
  | changeVlan =>
    refine always ?_
    unfold step
    dsimp only
    split
    · exact quieter kept sound rfl rfl rfl fun _ _ reached => ⟨reached,id⟩
    · exact same
  | destroyStation s => exact destroy_sound kept sound s
  | ifStop d => exact stop_sound kept sound d
  | ifOpen d =>
    refine always ?_
    unfold step
    dsimp only
    split
    · refine quieter kept sound rfl rfl rfl fun c ac => ?_
      unfold doOpen
      dsimp only
      by_cases here : c = d
      · subst here
        rw [update_self,update_self]
        grind
      · rw [update_of_ne here,update_of_ne here]
        exact fun reached => ⟨reached,id⟩
    · exact same
  | stopQueue =>
    refine always (quieter kept sound rfl rfl rfl fun c ac reached => ⟨reached,fun stopped => ?_⟩)
    exact Bool.or_eq_true_iff.mpr (.inl stopped)
  | wakeQueue =>
    refine always (quieter kept sound rfl rfl rfl fun c ac => ?_)
    show (w.reached c ac && !_) = true → w.reached c ac = true ∧ (w.subqueue c ac = true → (w.subqueue c ac && !_) = true)
    grind

end

def fairRun (cfg : Config) (w : World) : List Event → Prop
  | [] => True
  | e :: rest => w.fair cfg e ∧ fairRun cfg (step cfg w e) rest

theorem events_sound (kept : w.kept) (sound : w.fault = false ∧ w.sound cfg) (events : List Event) :
    (∀ n, (run cfg w (events.take n)).fault = false ∧ (run cfg w (events.take n)).sound cfg) ↔ fairRun cfg w events := by
  induction events generalizing w with
  | nil => exact ⟨fun _ => trivial,fun _ n => by rw [List.take_nil]; exact sound⟩
  | cons e rest ih =>
    obtain ⟨precise,next⟩ := step_sound kept sound.2 sound.1 e
    constructor
    · intro each
      have first : (step cfg w e).fault = false ∧ (step cfg w e).sound cfg := each 1
      exact ⟨precise.mp first,(ih next first).mp fun n => each (n + 1)⟩
    · rintro ⟨fair,later⟩ n
      cases n with
      | zero => exact sound
      | succ n => exact (ih next (precise.mpr fair)).mpr later n

theorem start_sound (cfg : Config) : start.sound cfg ∧ start.kept := by
  refine ⟨fun d ac => ⟨?_,fun _ => rfl⟩,⟨List.nodup_nil,fun d skb member => (by cases member),fun d ac reached => (by cases reached)⟩⟩
  have vifs : total (fun i => (start.part d ac (.vif i) : Int)) cfg.interfaces = 0 := by
    refine (total_eq_zero fun _ _ => Int.natCast_nonneg _).mpr fun i _ => ?_
    unfold World.part
    split <;> rfl
  rw [charged_eq,vifs]
  rfl

theorem txqsLen_counts (cfg : Config) (events : List Event) :
    (∀ n, (run cfg start (events.take n)).fault = false ∧ ∀ d ac,
      (run cfg start (events.take n)).txqsLen d ac = (run cfg start (events.take n)).charged cfg d ac ∧
      0 ≤ (run cfg start (events.take n)).txqsLen d ac ∧
      ((run cfg start (events.take n)).charged cfg d ac = 0 → (run cfg start (events.take n)).reached d ac = false)) ↔
    fairRun cfg start events := by
  rw [← events_sound (start_sound cfg).2 ⟨rfl,(start_sound cfg).1⟩]
  refine forall_congr' fun n => and_congr_right fun _ => forall_congr' fun d => forall_congr' fun ac =>
    ⟨fun all => ⟨all.1,all.2.2⟩,fun both => ⟨both.1,?_,both.2⟩⟩
  rw [both.1]
  exact Int.natCast_nonneg _

def vlanConfig : Config where
  hwQueues := 4
  queueControl := false
  maxPending := 1
  interfaces := [0,1]
  vifType := fun d => if d = 1 then .apVlan 0 else .other
  hwQueue := fun _ ac => ac
  cabQueue := fun _ => none
  distinct := by decide
  bssMember := by
    intro d _ bss type
    split at type
    · cases type
      decide
    · cases type

-- A frame for a station of the VLAN is counted on the access point, and counted down on the VLAN.
theorem txqsLen_negative :
    (run vlanConfig start [.addStation 7 1 true,.tx 1 none (some 7) ⟨0,true,false,1⟩,
      .dequeue (.sta 7 0) false ⟨fun _ => false,fun _ => false⟩]).txqsLen 1 2 = -1 := by
  decide

end stations

end Mac80211.TxqsLen

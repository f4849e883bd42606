import Mac80211.Queues
import Mac80211.Tally

namespace Mac80211.Queues

def Counted (w : World) : Prop :=
  ∀ queue reason, 0 ≤ w.qStopReasons queue reason ∧ (w.queueStopReasons queue reason = true ↔ 0 < w.qStopReasons queue reason)

-- A live subqueue is stopped while a queue it maps to is stopped or has frames pending.
def Held (cfg : Config) (w : World) : Prop :=
  ∀ queue < cfg.hwQueues, ∀ sdata ac, cfg.live sdata ac = true → cfg.maps queue sdata ac = true →
    w.stopped queue = true ∨ w.pending queue ≠ [] → w.subqueue sdata ac = true

structure Sound (cfg : Config) (w : World) : Prop where
  counted : Counted w
  held : Held cfg w

def Kept (cfg : Config) (w after : World) : Prop := after.quiet = true → w.quiet = true ∧ (Sound cfg w → Sound cfg after)

section kept
variable {cfg : Config} {w after : World}

theorem kept_refl (cfg : Config) (w : World) : Kept cfg w w := fun quiet => ⟨quiet,id⟩

theorem Kept.trans (first : Kept cfg w mid) (second : Kept cfg mid after) : Kept cfg w after := by
  intro quiet
  obtain ⟨quietMid,later⟩ := second quiet
  obtain ⟨quietBefore,sooner⟩ := first quietMid
  exact ⟨quietBefore,later ∘ sooner⟩

theorem kept_foldl (f : World → α → World) (each : ∀ w x, Kept cfg w (f w x)) (xs : List α) (w : World) : Kept cfg w (xs.foldl f w) := by
  induction xs generalizing w with
  | nil => exact kept_refl cfg w
  | cons x rest ih => exact (each w x).trans (ih (f w x))

theorem mem_all (reason : Reason) : reason ∈ Reason.all := by
  cases reason <;> decide

theorem stopped_iff (w : World) (queue : Nat) : w.stopped queue = true ↔ ∃ reason, w.queueStopReasons queue reason = true := by
  unfold World.stopped
  rw [List.any_eq_true]
  constructor
  · rintro ⟨reason,-,bit⟩
    exact ⟨reason,bit⟩
  · rintro ⟨reason,bit⟩
    exact ⟨reason,mem_all reason,bit⟩

section
variable (reasons : after.queueStopReasons = w.queueStopReasons) (counts : after.qStopReasons = w.qStopReasons)
include reasons counts

theorem kept_of_less
    (pending : ∀ queue < cfg.hwQueues, after.pending queue ≠ [] → w.stopped queue = true ∨ w.pending queue ≠ [])
    (subqueue : ∀ sdata ac, w.subqueue sdata ac = true → after.subqueue sdata ac = true) (same : after.quiet = w.quiet) :
    Kept cfg w after := by
  intro quiet
  rw [same] at quiet
  refine ⟨quiet,fun sound => ⟨?_,?_⟩⟩
  · unfold Counted
    rw [reasons,counts]
    exact sound.counted
  · intro queue below sdata ac live maps busy
    refine subqueue sdata ac (sound.held queue below sdata ac live maps ?_)
    rcases busy with stop | frames
    · unfold World.stopped at stop
      rw [reasons] at stop
      exact .inl stop
    · exact pending queue below frames

theorem kept_of_same
    (pending : after.pending = w.pending) (subqueue : after.subqueue = w.subqueue) (same : after.quiet = w.quiet) : Kept cfg w after :=
  kept_of_less reasons counts (fun _ _ frames => .inr (by rwa [pending] at frames)) (fun _ _ stop => by rwa [subqueue]) same

end

theorem live_parts (live : cfg.live sdata ac = true) : sdata ∈ cfg.interfaces ∧ ac < cfg.nAcs := by
  unfold Config.live at live
  simp only [Bool.and_eq_true,decide_eq_true_eq,List.contains_eq_mem] at live
  exact ⟨live.1.1,live.2⟩

theorem maps_cases (maps : cfg.maps queue sdata ac = true) : cfg.hwQueue sdata ac = queue ∨ cfg.cabQueue sdata = some queue := by
  unfold Config.maps at maps
  simpa using maps

theorem wakes_cab (woken : wakes cfg w queue sdata ac = true) (cab : cfg.cabQueue sdata = some c) : w.stopped c = false := by
  unfold wakes at woken
  rw [cab] at woken
  simp only [Option.any_some,Bool.and_eq_true,Bool.not_eq_true'] at woken
  exact woken.1.1.2

theorem quietWake_clear (quiet : quietWake cfg w queue = true) (live : cfg.live sdata ac = true) (woken : wakes cfg w queue sdata ac = true)
    (maps : cfg.maps other sdata ac = true) : w.stopped other = false ∧ w.pending other = [] := by
  obtain ⟨member,below⟩ := live_parts live
  have here := List.all_eq_true.mp (List.all_eq_true.mp quiet sdata member) ac (List.mem_range.mpr below)
  rw [woken] at here
  simp only [Bool.not_true,Bool.false_or,Bool.and_eq_true,Bool.not_eq_true',List.isEmpty_iff] at here
  rcases maps_cases maps with hw | cab
  · rw [← hw]
    exact here.1
  · have frames := here.2
    rw [cab,Option.all_some,List.isEmpty_iff] at frames
    exact ⟨wakes_cab woken cab,frames⟩

theorem propagate_kept (cfg : Config) (w : World) (queue : Nat) : Kept cfg w (propagateQueueWake cfg w queue) := by
  intro quiet
  unfold propagateQueueWake at quiet
  rw [Bool.and_eq_true] at quiet
  refine ⟨quiet.1,fun sound => ⟨sound.counted,?_⟩⟩
  intro other below sdata ac live maps busy
  have still := sound.held other below sdata ac live maps busy
  unfold propagateQueueWake
  dsimp only
  rw [still,Bool.true_and,Bool.not_eq_true']
  by_contra woken
  rw [Bool.not_eq_false] at woken
  obtain ⟨running,empty⟩ := quietWake_clear quiet.2 live woken maps
  rcases busy with stop | frames
  · change w.stopped other = true at stop
    rw [running] at stop
    cases stop
  · exact frames empty

theorem setCount_at (w : World) (queue : Nat) (reason : Reason) (count : Int) (q : Nat) (r : Reason) :
    (w.setCount queue reason count).qStopReasons q r = if q = queue ∧ r = reason then count else w.qStopReasons q r :=
  Tally.update_pair w.qStopReasons queue reason count q r

theorem setReason_at (w : World) (queue : Nat) (reason : Reason) (bit : Bool) (q : Nat) (r : Reason) :
    (w.setReason queue reason bit).queueStopReasons q r = if q = queue ∧ r = reason then bit else w.queueStopReasons q r :=
  Tally.update_pair w.queueStopReasons queue reason bit q r

def settled (w : World) (queue : Nat) (reason : Reason) (count : Int) : World :=
  if count = 0 then (w.setCount queue reason count).setReason queue reason false else w.setCount queue reason count

theorem settled_rest (w : World) (queue : Nat) (reason : Reason) (count : Int) :
    (settled w queue reason count).pending = w.pending ∧ (settled w queue reason count).subqueue = w.subqueue ∧
      (settled w queue reason count).quiet = w.quiet ∧
      (settled w queue reason count).qStopReasons = (w.setCount queue reason count).qStopReasons := by
  unfold settled
  split <;> exact ⟨rfl,rfl,rfl,rfl⟩

theorem settled_reasons (w : World) (queue : Nat) (reason : Reason) (count : Int) (q : Nat) (r : Reason) :
    (settled w queue reason count).queueStopReasons q r = if q = queue ∧ r = reason ∧ count = 0 then false else w.queueStopReasons q r := by
  unfold settled
  split
  · rename_i zero
    rw [setReason_at]
    simp only [zero,and_true]
    rfl
  · rename_i more
    rw [if_neg fun all => more all.2.2]
    rfl

theorem settled_counted (counted : Counted w) (bit : w.queueStopReasons queue reason = true) (least : 0 ≤ count) :
    Counted (settled w queue reason count) := by
  intro q r
  rw [(settled_rest w queue reason count).2.2.2,settled_reasons,setCount_at]
  by_cases here : q = queue ∧ r = reason
  · obtain ⟨rfl,rfl⟩ := here
    rw [if_pos ⟨rfl,rfl⟩]
    refine ⟨least,?_⟩
    by_cases zero : count = 0
    · rw [if_pos ⟨rfl,rfl,zero⟩,zero]
      decide
    · rw [if_neg fun all => zero all.2.2,bit]
      exact ⟨fun _ => by omega,fun _ => rfl⟩
  · rw [if_neg here,if_neg fun all => here ⟨all.1,all.2.1⟩]
    exact counted q r

theorem settled_kept (bit : w.queueStopReasons queue reason = true) (least : Counted w → 0 ≤ count) :
    Kept cfg w (settled w queue reason count) := by
  obtain ⟨pending,subqueue,same,-⟩ := settled_rest w queue reason count
  intro quiet
  rw [same] at quiet
  refine ⟨quiet,fun sound => ⟨settled_counted sound.counted bit (least sound.counted),?_⟩⟩
  intro q below sdata ac live maps busy
  rw [subqueue]
  refine sound.held q below sdata ac live maps ?_
  rw [pending] at busy
  refine busy.imp_left fun stop => ?_
  obtain ⟨r,on⟩ := (stopped_iff _ q).mp stop
  rw [settled_reasons] at on
  split at on
  · cases on
  · exact (stopped_iff w q).mpr ⟨r,on⟩

theorem resume_kept (cfg : Config) (w : World) (queue : Nat) : Kept cfg w (if w.stopped queue then w
      else if (w.pending queue).isEmpty then propagateQueueWake cfg w queue
      else {w with tasklet := true}) := by
  split
  · exact kept_refl cfg w
  · split
    · exact propagate_kept cfg w queue
    · exact kept_of_same rfl rfl rfl rfl rfl

theorem wakeQueue_kept (cfg : Config) (w : World) (queue : Nat) (reason : Reason) (refcounted : Bool) :
    Kept cfg w (wakeQueue cfg w queue reason refcounted) := by
  unfold wakeQueue
  split
  · exact kept_refl cfg w
  split
  · exact kept_refl cfg w
  rename_i bit
  rw [Bool.not_eq_true',Bool.not_eq_false] at bit
  have least : Counted w → 0 ≤ (if !refcounted then 0 else decr (w.qStopReasons queue reason)) := by
    intro counted
    have positive := (counted queue reason).2.mp bit
    unfold decr
    split
    · decide
    · split <;> omega
  exact (settled_kept bit least).trans (resume_kept cfg (settled w queue reason _) queue)

theorem setReason_stopped (w : World) (stop : (w.setReason queue reason true).stopped q = true) : q = queue ∨ w.stopped q = true := by
  obtain ⟨r,on⟩ := (stopped_iff _ q).mp stop
  rw [setReason_at] at on
  split at on
  · rename_i here
    exact .inl here.1
  · exact .inr ((stopped_iff w q).mpr ⟨r,on⟩)

theorem stopQueue_kept (cfg : Config) (w : World) (queue : Nat) (reason : Reason) (refcounted : Bool) :
    Kept cfg w (stopQueue cfg w queue reason refcounted) := by
  unfold stopQueue
  split
  · exact kept_refl cfg w
  dsimp only
  intro quiet
  rw [Bool.and_eq_true] at quiet
  refine ⟨quiet.1,fun sound => ⟨?_,?_⟩⟩
  · intro q r
    have positive : 0 < (if !refcounted then 1 else incr (w.qStopReasons queue reason)) := by
      have least := (sound.counted queue reason).1
      cases refcounted with
      | false =>
        rw [if_pos (by decide)]
        decide
      | true =>
        have room := quiet.2
        simp only [Bool.true_and,Bool.not_eq_true',beq_eq_false_iff_ne] at room
        unfold incr
        omega
    generalize (if !refcounted then 1 else incr (w.qStopReasons queue reason)) = count at positive
    have counts : ((w.setCount queue reason count).setReason queue reason true).qStopReasons q r =
        if q = queue ∧ r = reason then count else w.qStopReasons q r := setCount_at w queue reason count q r
    have bits : ((w.setCount queue reason count).setReason queue reason true).queueStopReasons q r =
        if q = queue ∧ r = reason then true else w.queueStopReasons q r := setReason_at _ queue reason true q r
    rw [counts,bits]
    by_cases here : q = queue ∧ r = reason
    · rw [if_pos here,if_pos here]
      exact ⟨by omega,fun _ => positive,fun _ => rfl⟩
    · rw [if_neg here,if_neg here]
      exact sound.counted q r
  intro q below sdata ac live maps busy
  have before : q = queue ∨ (w.stopped q = true ∨ w.pending q ≠ []) :=
    busy.elim (fun stop => (setReason_stopped (w.setCount queue reason _) stop).imp_right .inl) fun frames => .inr (.inr frames)
  by_cases was : w.queueStopReasons queue reason = true
  · rw [if_pos was]
    refine sound.held q below sdata ac live maps (before.elim (fun here => .inl ?_) id)
    rw [here]
    exact (stopped_iff w queue).mpr ⟨reason,was⟩
  · rw [if_neg was]
    dsimp only
    rcases before with here | busy
    · rw [← here,live,maps,Bool.true_and,Bool.or_true]
    · exact Bool.or_eq_true_iff.mpr (.inl (sound.held q below sdata ac live maps busy))

theorem stopQueue_stopped (w : World) (reason : Reason) (refcounted : Bool) (below : queue < cfg.hwQueues) :
    (stopQueue cfg w queue reason refcounted).stopped queue = true := by
  refine (stopped_iff _ queue).mpr ⟨reason,?_⟩
  unfold stopQueue
  rw [if_neg (Nat.not_le.mpr below)]
  rw [setReason_at,if_pos ⟨rfl,rfl⟩]

theorem setPending_kept (skbs : List TxSkb) (busy : queue < cfg.hwQueues → w.stopped queue = true ∨ w.pending queue ≠ []) :
    Kept cfg w (w.setPending queue skbs) := by
  refine kept_of_less rfl rfl ?_ (fun _ _ => id) rfl
  intro q below frames
  unfold World.setPending at frames
  dsimp only at frames
  by_cases here : q = queue
  · rw [here] at below ⊢
    exact busy below
  · rw [Function.update_of_ne here] at frames
    exact .inr frames

section
variable (cfg : Config) (w : World)

theorem addStopped_kept (skb : TxSkb) : Kept cfg w (addStopped cfg w skb) := by
  unfold addStopped
  split
  · exact kept_of_same rfl rfl rfl rfl rfl
  · exact (stopQueue_kept cfg w skb.hwQueue .skbAdd false).trans
      (setPending_kept _ fun below => .inl (stopQueue_stopped w .skbAdd false below))

theorem addPendingSkb_kept (skb : TxSkb) : Kept cfg w (addPendingSkb cfg w skb) := by
  have added := addStopped_kept cfg w skb
  unfold addStopped at added
  unfold addPendingSkb
  split
  · exact kept_of_same rfl rfl rfl rfl rfl
  · rename_i placed
    rw [if_neg placed] at added
    exact added.trans (wakeQueue_kept cfg _ skb.hwQueue .skbAdd false)

theorem addPendingSkbs_kept (skbs : List TxSkb) : Kept cfg w (addPendingSkbs cfg w skbs) :=
  (kept_foldl _ (addStopped_kept cfg) skbs w).trans (kept_foldl _ (fun w i => wakeQueue_kept cfg w i .skbAdd false) _ _)

theorem txDequeue_kept (txq : Nat) : Kept cfg w (txDequeue cfg w txq).1 := by
  unfold txDequeue
  split
  · exact kept_refl cfg w
  · split
    · exact kept_refl cfg w
    · dsimp only
      split
      · refine Kept.trans ?_ (propagate_kept cfg _ _)
        exact kept_of_same rfl rfl rfl rfl rfl
      · exact kept_of_same rfl rfl rfl rfl rfl

theorem op_kept (op : Op) : Kept cfg w (op.run cfg w) := by
  cases op with
  | stop queue reason refcounted => exact stopQueue_kept cfg w queue reason refcounted
  | wake queue reason refcounted => exact wakeQueue_kept cfg w queue reason refcounted
  | dequeue txq => exact txDequeue_kept cfg w txq

end

end kept

section transmit

section
variable (cfg : Config) (env : Env)

theorem drvTx_kept (vif sta : Option Nat) (w : World) (skb : TxSkb) : Kept cfg w (drvTx cfg env vif sta w skb) := by
  unfold drvTx
  dsimp only
  split
  · refine Kept.trans ?_ (kept_foldl _ (op_kept cfg) _ _)
    exact kept_of_same rfl rfl rfl rfl rfl
  · exact kept_of_same rfl rfl rfl rfl rfl
  · refine Kept.trans ?_ (kept_foldl _ (op_kept cfg) _ _)
    refine kept_of_less rfl rfl (fun _ _ frames => .inr frames) ?_ rfl
    intro sdata ac stop
    dsimp only
    split
    · rename_i txq vif _ _
      by_cases same : sdata = vif
      · subst same
        rw [Function.update_self]
        by_cases here : ac = cfg.txqAc txq
        · rw [here,Function.update_self]
        · rw [Function.update_of_ne here]
          exact stop
      · rw [Function.update_of_ne same]
        exact stop
    · exact stop

theorem txFrags_kept (vif sta : Option Nat) (txpending : Bool) (w : World) (skbs : List TxSkb) :
    Kept cfg w (txFrags cfg env vif sta txpending w skbs).1 := by
  induction skbs generalizing w with
  | nil => exact kept_refl cfg w
  | cons skb rest ih =>
    have sent := (drvTx_kept cfg env vif sta w skb).trans (ih (drvTx cfg env vif sta w skb))
    unfold txFrags
    dsimp only
    split
    · rename_i busy
      split
      · split
        · exact kept_of_same rfl rfl rfl rfl rfl
        · exact sent
      · refine setPending_kept _ fun _ => ?_
        rw [Bool.or_eq_true] at busy
        rcases busy with stop | frames
        · exact .inl stop
        · simp only [Bool.and_eq_true,Bool.not_eq_true',List.isEmpty_eq_false_iff] at frames
          exact .inr frames.2
    · exact sent

theorem tx_kept (sdata : Nat) (sta : Option Nat) (txpending : Bool) (w : World) (skb : TxSkb) (rest : List TxSkb) :
    Kept cfg w (tx cfg env sdata sta txpending w skb rest).1 := by
  unfold tx
  split
  · exact txFrags_kept _ _ _ _ _ _ _
  · split
    · exact txFrags_kept _ _ _ _ _ _ _
    · split
      · exact kept_of_same rfl rfl rfl rfl rfl
      · exact txFrags_kept _ _ _ _ _ _ _
  · exact txFrags_kept _ _ _ _ _ _ _
  · exact txFrags_kept _ _ _ _ _ _ _

theorem txPendingSkb_kept (sdata : Nat) (w : World) (skb : TxSkb) : Kept cfg w (txPendingSkb cfg env sdata w skb).1 := by
  unfold txPendingSkb
  split
  · split
    · exact kept_of_same rfl rfl rfl rfl rfl
    · dsimp only
      split
      · exact kept_foldl _ (op_kept cfg) _ w
      · exact (kept_foldl _ (op_kept cfg) _ w).trans (tx_kept _ _ _ _ _ _ _ _)
  · exact tx_kept _ _ _ _ _ _ _ _

theorem pendingLoop_kept (i turns : Nat) (w : World) : Kept cfg w (pendingLoop cfg env i turns w) := by
  induction turns generalizing w with
  | zero => exact kept_refl cfg w
  | succ turns ih =>
    unfold pendingLoop
    split
    · exact kept_refl cfg w
    rename_i skb rest frames
    have popped : Kept cfg w (w.setPending i rest) := setPending_kept rest fun _ => .inr (by rw [frames]; exact List.cons_ne_nil _ _)
    dsimp only
    refine popped.trans ?_
    split
    · refine Kept.trans ?_ (ih _)
      exact kept_of_same rfl rfl rfl rfl rfl
    · split
      · exact (txPendingSkb_kept _ _ _ _ _).trans (ih _)
      · exact txPendingSkb_kept _ _ _ _ _

theorem pendingQueue_kept (w : World) (i : Nat) : Kept cfg w (pendingQueue cfg env w i) := by
  unfold pendingQueue
  split
  · exact kept_refl cfg w
  · dsimp only
    refine (pendingLoop_kept cfg env i (w.pending i).length w).trans ?_
    split
    · exact propagate_kept cfg _ i
    · exact kept_refl cfg _

end

theorem step_kept (cfg : Config) (w : World) (e : Event × Env) : Kept cfg w (step cfg w e) := by
  obtain ⟨event,env⟩ := e
  cases event with
  | op op => exact op_kept cfg w op
  | addPendingSkb skb => exact addPendingSkb_kept cfg w skb
  | addPendingSkbs skbs => exact addPendingSkbs_kept cfg w skbs
  | txFrags vif sta skbs => exact txFrags_kept cfg env vif sta false w skbs
  | tx sdata sta skb rest => exact tx_kept cfg env sdata sta false w skb rest
  | txPending =>
    refine Kept.trans ?_ (kept_foldl _ (pendingQueue_kept cfg env) (List.range cfg.hwQueues) {w with tasklet := false})
    exact kept_of_same rfl rfl rfl rfl rfl
  | txqStop => exact kept_of_same rfl rfl rfl rfl rfl

end transmit

theorem idle_sound (cfg : Config) : Sound cfg idle := by
  have counted : Counted idle := by
    intro queue _
    refine ⟨Int.le_refl 0,fun bit => ?_,fun positive => absurd positive (Int.lt_irrefl 0)⟩
    cases bit
  refine ⟨counted,?_⟩
  intro queue _ _ _ _ _ busy
  rcases busy with stop | frames
  · obtain ⟨_,bit⟩ := (stopped_iff idle queue).mp stop
    cases bit
  · exact absurd rfl frames

theorem run_sound (cfg : Config) (events : List (Event × Env)) (quiet : (run cfg events).quiet = true) : Sound cfg (run cfg events) :=
  (kept_foldl (step cfg) (step_kept cfg) events idle quiet).2 (idle_sound cfg)

def sampleConfig : Config where
  hwQueues := 4
  queueControl := false
  wakeTxQueue := true
  txqAcMaxPending := 64
  interfaces := [0]
  vifType := fun _ => .other
  hasDev := fun _ => true
  hwQueue := fun _ ac => ac
  cabQueue := fun _ => none
  monitorSdata := none
  staTxq := fun _ _ => none
  vifTxq := fun _ => some 0
  txqVif := fun _ => 0
  txqAc := fun _ => 2

def sampleSkb (id queue : Nat) : TxSkb where
  id := id
  hwQueue := queue
  queueMapping := queue
  vif := some 0
  sta := none
  tid := 0
  isData := true
  offchanOk := false
  txOffchan := false
  needTxprocessing := false
  psResponse := false

def silent : Env := ⟨fun _ => [],fun _ => ⟨[],none⟩,fun _ => true⟩

theorem run_sound_pending : Sound sampleConfig (run sampleConfig [(.op (.stop 2 .driver false),silent),(.txFrags (some 0) none [sampleSkb 0 2],silent),
    (.op (.wake 2 .driver false),silent),(.txPending,silent),(.op (.dequeue 0),silent)]) :=
  run_sound sampleConfig _ (by decide)

-- The driver has stopped queue 2 and takes a frame that it was given before.
theorem stopped_woken : ¬∀ events, Sound sampleConfig (run sampleConfig events) := by
  intro always
  have sound := always [(.txFrags (some 0) none [sampleSkb 0 2],silent),(.op (.stop 2 .driver false),silent),(.op (.dequeue 0),silent)]
  have awake := sound.held 2 (by decide) 0 2 (by decide) (by decide) (.inl (by decide))
  revert awake
  decide

end Mac80211.Queues

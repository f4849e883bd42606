import Mac80211.QueuesStopped

namespace Mac80211.Queues

open Function (update update_eq_self update_idem update_of_ne update_self)
open List (append_nil mem_cons not_mem_nil mem_cons_self mem_cons_of_mem map_nil append_assoc mem_singleton)

-- A frame processed and sent on its own hardware queue: that of the virtual monitor interface for a
-- monitor. Without an interface it is not for a tx queue.
structure Ready (cfg : Config) (skb : TxSkb) : Prop where
  processed : skb.needTxprocessing = false
  onChannel : skb.offchanOk = false
  placed : ∃ sdata, skb.vif = some sdata ∧ (cfg.vifType sdata = .monitor false →
    (∃ monitor, cfg.monitorSdata = some monitor ∧ cfg.hwQueue monitor skb.queueMapping = skb.hwQueue) ∨
      cfg.monitorSdata = none ∧ cfg.queueControl = false ∧ txqOf cfg none skb.sta skb = none)

def Fit (cfg : Config) : Event → Prop
  | .addPendingSkb skb => Ready cfg skb
  | .addPendingSkbs skbs => ∀ skb ∈ skbs, Ready cfg skb
  | .txFrags vif sta skbs => (∀ skb ∈ skbs, Ready cfg skb) ∧ (∀ skb ∈ skbs, ∀ other ∈ skbs, skb.hwQueue = other.hwQueue) ∧
      (vif = none → ∀ skb ∈ skbs, txqOf cfg none sta skb = none)
  | .tx .. => False
  | _ => True

def Event.frames : Event → List TxSkb
  | .addPendingSkb skb => [skb]
  | .addPendingSkbs skbs => skbs
  | .txFrags _ _ skbs => skbs
  | .tx _ _ skb rest => skb :: rest
  | _ => []

def ofQueue (queue : Nat) (skbs : List TxSkb) : List Nat := (skbs.filter fun skb => skb.hwQueue == queue).map TxSkb.id

def World.known (w : World) (queue : Nat) : List Nat := ofQueue queue (w.passed.map Prod.snd) ++ (w.pending queue).map TxSkb.id

-- Those for one tx queue, or for none of them.
def onRoute (route : Option Nat) (skbs : List (Option Nat × TxSkb)) : List Nat :=
  (skbs.filter fun skb => skb.1 == route).map fun skb => skb.2.id

def World.queued (w : World) (route : Option Nat) : List Nat := (route.elim [] w.txqs).map TxSkb.id

def Routed (w : World) : Prop := ∀ route, onRoute route w.handed ++ w.queued route = onRoute route w.passed

def Waits (cfg : Config) (w : World) : Prop := ∀ queue, ∀ skb ∈ w.pending queue, skb.hwQueue = queue ∧ Ready cfg skb

structure Accepts (cfg : Config) (skbs : List TxSkb) (w after : World) : Prop where
  waits : Waits cfg after
  known : ∀ queue, after.known queue = w.known queue ++ ofQueue queue skbs
  routed : Routed w → Routed after

section order

theorem ofQueue_append (queue : Nat) (skbs more : List TxSkb) : ofQueue queue (skbs ++ more) = ofQueue queue skbs ++ ofQueue queue more := by
  unfold ofQueue
  rw [List.filter_append,List.map_append]

theorem ofQueue_own (own : ∀ skb ∈ skbs, skb.hwQueue = queue) : ofQueue queue skbs = skbs.map TxSkb.id := by
  unfold ofQueue
  rw [List.filter_eq_self.mpr fun skb member => beq_iff_eq.mpr (own skb member)]

theorem ofQueue_other (other : ∀ skb ∈ skbs, skb.hwQueue ≠ queue) : ofQueue queue skbs = [] := by
  unfold ofQueue
  rw [List.filter_eq_nil_iff.mpr fun skb member same => other skb member (beq_iff_eq.mp same),map_nil]

theorem ofQueue_one (own : skb.hwQueue = queue) : ofQueue queue [skb] = [skb.id] :=
  ofQueue_own fun other member => by
    cases mem_singleton.mp member
    exact own

theorem ofQueue_none (other : skb.hwQueue ≠ queue) : ofQueue queue [skb] = [] :=
  ofQueue_other fun one member => by
    cases mem_singleton.mp member
    exact other

theorem onRoute_append (route : Option Nat) (skbs more : List (Option Nat × TxSkb)) :
    onRoute route (skbs ++ more) = onRoute route skbs ++ onRoute route more := by
  unfold onRoute
  rw [List.filter_append,List.map_append]

theorem onRoute_one (route other : Option Nat) (skb : TxSkb) :
    onRoute route [(other,skb)] = if route = other then [skb.id] else [] := by
  unfold onRoute
  by_cases same : route = other
  · simp [same]
  · simp [same,Ne.symm same]

theorem queued_update (w : World) (txq : Nat) (frames : List TxSkb) (route : Option Nat) :
    (route.elim [] (update w.txqs txq frames)).map TxSkb.id =
      if route = some txq then frames.map TxSkb.id else w.queued route := by
  cases route with
  | none => rfl
  | some other =>
    by_cases same : other = txq
    · simp [same]
    · simp [same,World.queued]

theorem accepts_none (waits : Waits cfg w) : Accepts cfg [] w w := ⟨waits,fun _ => (append_nil _).symm,id⟩

theorem Accepts.trans (first : Accepts cfg skbs w mid) (second : Accepts cfg more mid after) : Accepts cfg (skbs ++ more) w after where
  waits := second.waits
  known queue := by rw [second.known,first.known,ofQueue_append,append_assoc]
  routed := second.routed ∘ first.routed

def Untouched (w after : World) : Prop := after.pending = w.pending ∧ after.passed = w.passed ∧ (Routed w → Routed after)

theorem untouched_refl (w : World) : Untouched w w := ⟨rfl,rfl,id⟩

theorem Untouched.trans (first : Untouched w mid) (second : Untouched mid after) : Untouched w after :=
  ⟨second.1.trans first.1,second.2.1.trans first.2.1,second.2.2 ∘ first.2.2⟩

theorem Untouched.accepts (untouched : Untouched w after) (waits : Waits cfg w) : Accepts cfg [] w after := by
  refine ⟨?_,fun queue => ?_,untouched.2.2⟩
  · unfold Waits
    rw [untouched.1]
    exact waits
  · unfold World.known
    rw [untouched.1,untouched.2.1]
    exact (append_nil _).symm

theorem untouched_foldl (f : World → α → World) (each : ∀ w x, Untouched w (f w x)) (xs : List α) (w : World) :
    Untouched w (xs.foldl f w) := by
  induction xs generalizing w with
  | nil => exact untouched_refl w
  | cons x rest ih => exact (each w x).trans (ih (f w x))

theorem settled_untouched (w : World) (queue : Nat) (reason : Reason) (count : Int) : Untouched w (settled w queue reason count) := by
  unfold settled
  split <;> exact ⟨rfl,rfl,id⟩

section
variable (cfg : Config) (w : World)

theorem wakeQueue_untouched (queue : Nat) (reason : Reason) (refcounted : Bool) :
    Untouched w (wakeQueue cfg w queue reason refcounted) := by
  have resumed : ∀ v : World, Untouched v (if v.stopped queue then v
      else if (v.pending queue).isEmpty then propagateQueueWake cfg v queue
      else {v with tasklet := true}) := by
    intro v
    split
    · exact untouched_refl v
    · split <;> exact ⟨rfl,rfl,id⟩
  unfold wakeQueue
  split
  · exact untouched_refl w
  · split
    · exact untouched_refl w
    · exact (settled_untouched w queue reason _).trans (resumed (settled w queue reason _))

theorem stopQueue_untouched (queue : Nat) (reason : Reason) (refcounted : Bool) :
    Untouched w (stopQueue cfg w queue reason refcounted) := by
  unfold stopQueue
  split <;> exact ⟨rfl,rfl,id⟩

theorem txDequeue_untouched (txq : Nat) : Untouched w (txDequeue cfg w txq).1 := by
  unfold txDequeue
  split
  · exact untouched_refl w
  · split
    · exact untouched_refl w
    rename_i skb rest frames
    -- The frame leaves the front of its queue for the end of what the driver has from there.
    have moved : Routed w → ∀ route, onRoute route (w.handed ++ [(some txq,skb)]) ++
        ((route.elim [] (update w.txqs txq rest)).map TxSkb.id) = onRoute route w.passed := by
      intro routed route
      rw [← routed route,onRoute_append,append_assoc,onRoute_one,queued_update]
      split
      · rename_i here
        simp [here,World.queued,frames]
      · rfl
    dsimp only
    split <;> exact ⟨rfl,rfl,moved⟩

theorem op_untouched (op : Op) : Untouched w (op.run cfg w) := by
  cases op with
  | stop queue reason refcounted => exact stopQueue_untouched cfg w queue reason refcounted
  | wake queue reason refcounted => exact wakeQueue_untouched cfg w queue reason refcounted
  | dequeue txq => exact txDequeue_untouched cfg w txq

end

theorem Accepts.pushed (waits : Waits cfg w) (queue : Nat) (own : ∀ skb ∈ skbs, skb.hwQueue = queue ∧ Ready cfg skb) :
    Accepts cfg skbs w (w.setPending queue (w.pending queue ++ skbs)) := by
  refine ⟨?_,?_,id⟩
  · intro q skb member
    unfold World.setPending at member
    dsimp only at member
    by_cases here : q = queue
    · subst here
      rw [update_self] at member
      exact (List.mem_append.mp member).elim (waits q skb) (own skb)
    · rw [update_of_ne here] at member
      exact waits q skb member
  · intro q
    unfold World.known World.setPending
    dsimp only
    by_cases here : q = queue
    · subst here
      rw [update_self,List.map_append,append_assoc,ofQueue_own fun skb member => (own skb member).1]
    · rw [update_of_ne here,ofQueue_other fun skb member same => here (same.symm.trans (own skb member).1),append_nil]

theorem addStopped_accepts (waits : Waits cfg w) (ready : Ready cfg skb) : Accepts cfg [skb] w (addStopped cfg w skb) := by
  obtain ⟨_,vif,-⟩ := ready.placed
  have stop := (stopQueue_untouched cfg w skb.hwQueue .skbAdd false).accepts waits
  unfold addStopped
  rw [vif,Option.isNone_some,if_neg Bool.false_ne_true]
  refine stop.trans (Accepts.pushed stop.waits skb.hwQueue fun other member => ?_)
  cases mem_singleton.mp member
  exact ⟨rfl,ready⟩

theorem addPendingSkb_accepts (waits : Waits cfg w) (ready : Ready cfg skb) : Accepts cfg [skb] w (addPendingSkb cfg w skb) := by
  obtain ⟨_,vif,-⟩ := ready.placed
  have added := addStopped_accepts waits ready
  unfold addStopped at added
  unfold addPendingSkb
  rw [vif,Option.isNone_some,if_neg Bool.false_ne_true] at added ⊢
  exact added.trans ((wakeQueue_untouched cfg _ skb.hwQueue .skbAdd false).accepts added.waits)

theorem addPendingSkbs_accepts (waits : Waits cfg w) (ready : ∀ skb ∈ skbs, Ready cfg skb) :
    Accepts cfg skbs w (addPendingSkbs cfg w skbs) := by
  have added : Accepts cfg skbs w (skbs.foldl (addStopped cfg) w) := by
    induction skbs generalizing w with
    | nil => exact accepts_none waits
    | cons skb rest ih =>
      have first := addStopped_accepts waits (ready skb (mem_cons_self ..))
      exact first.trans (ih first.waits fun other member => ready other (mem_cons_of_mem _ member))
  have woken := (untouched_foldl _ (fun w i => wakeQueue_untouched cfg w i .skbAdd false) (List.range cfg.hwQueues)
    (skbs.foldl (addStopped cfg) w)).accepts added.waits
  have both := added.trans woken
  rw [append_nil] at both
  exact both

theorem drvTx_known (cfg : Config) (env : Env) (vif sta : Option Nat) (w : World) (skb : TxSkb) :
    (drvTx cfg env vif sta w skb).pending = w.pending ∧
      (drvTx cfg env vif sta w skb).passed.map Prod.snd = w.passed.map Prod.snd ++ [{skb with vif := vif}] := by
  have ran : ∀ v : World, v.pending = w.pending ∧ v.passed = w.passed ++ [(txqOf cfg vif sta skb,{skb with vif := vif})] →
      ((env.driver w.calls).foldl (Op.run cfg) v).pending = w.pending ∧
        ((env.driver w.calls).foldl (Op.run cfg) v).passed.map Prod.snd = w.passed.map Prod.snd ++ [{skb with vif := vif}] := by
    intro v made
    obtain ⟨pending,passed,-⟩ := untouched_foldl _ (op_untouched cfg) (env.driver w.calls) v
    exact ⟨pending.trans made.1,by rw [passed,made.2,List.map_append]; rfl⟩
  unfold drvTx
  dsimp only
  split
  · exact ran _ ⟨rfl,rfl⟩
  · exact ⟨rfl,by rw [List.map_append]; rfl⟩
  · exact ran _ ⟨rfl,rfl⟩

theorem drvTx_routed (routed : Routed w) (env : Env) (vif sta : Option Nat) (skb : TxSkb)
    (direct : vif = none → txqOf cfg none sta skb = none) : Routed (drvTx cfg env vif sta w skb) := by
  unfold drvTx
  dsimp only
  split
  · rename_i _ _ taken
    refine (untouched_foldl _ (op_untouched cfg) _ _).2.2 fun route => ?_
    rw [onRoute_append,onRoute_append,← routed route,taken]
    cases route <;> simp [World.queued,onRoute]
  · rename_i taken
    cases taken.symm.trans (direct rfl)
  · rename_i txq _ taken
    refine (untouched_foldl _ (op_untouched cfg) _ _).2.2 fun route => ?_
    rw [onRoute_append,← routed route,taken,append_assoc,onRoute_one]
    refine congrArg _ ((queued_update w txq _ route).trans ?_)
    split
    · rename_i here
      simp [here,World.queued]
    · exact (append_nil _).symm

section
variable (waits : Waits cfg w) (vif sta : Option Nat)
include waits

theorem drvTx_accepts (idle : w.pending skb.hwQueue = [])
    (direct : vif = none → txqOf cfg none sta skb = none) : Accepts cfg [skb] w (drvTx cfg env vif sta w skb) := by
  obtain ⟨pending,passed⟩ := drvTx_known cfg env vif sta w skb
  refine ⟨?_,fun queue => ?_,fun routed => drvTx_routed routed env vif sta skb direct⟩
  · unfold Waits
    rw [pending]
    exact waits
  · unfold World.known
    rw [pending,passed,ofQueue_append]
    by_cases here : skb.hwQueue = queue
    · have none_left : w.pending queue = [] := by rw [← here]; exact idle
      rw [none_left,map_nil,append_nil,append_nil,ofQueue_one here,@ofQueue_one queue {skb with vif := vif} here]
    · rw [ofQueue_none here,@ofQueue_none queue {skb with vif := vif} here,append_nil,append_nil]

theorem txFrags_accepts (own : ∀ skb ∈ skbs, skb.hwQueue = queue ∧ Ready cfg skb)
    (direct : vif = none → ∀ skb ∈ skbs, txqOf cfg none sta skb = none) :
    Accepts cfg skbs w (txFrags cfg env vif sta false w skbs).1 := by
  induction skbs generalizing w with
  | nil => exact accepts_none waits
  | cons skb rest ih =>
    obtain ⟨here,ready⟩ := own skb (mem_cons_self ..)
    unfold txFrags
    dsimp only
    split
    · rw [ready.onChannel,if_neg Bool.false_ne_true,if_neg Bool.false_ne_true]
      refine Accepts.pushed waits skb.hwQueue fun other member => ?_
      obtain ⟨there,fit⟩ := own other member
      exact ⟨there.trans here.symm,fit⟩
    · rename_i running
      simp only [Bool.or_eq_true,Bool.not_false,Bool.true_and,Bool.not_eq_true',not_or,Bool.not_eq_false,List.isEmpty_iff] at running
      have first : Accepts cfg [skb] w (drvTx cfg env vif sta w skb) :=
        drvTx_accepts waits vif sta running.2 fun none_there => direct none_there skb (mem_cons_self ..)
      exact first.trans (ih first.waits (fun other member => own other (mem_cons_of_mem _ member))
        fun none_there other member => direct none_there other (mem_cons_of_mem _ member))

theorem txFrags_pending (frames : w.pending queue = skb :: rest)
    (direct : vif = none → txqOf cfg none sta skb = none) :
    Accepts cfg [] w (txFrags cfg env vif sta true (w.setPending queue rest) [skb]).1 := by
  obtain ⟨own,ready⟩ := waits queue skb (by rw [frames]; exact mem_cons_self ..)
  have taken : (w.setPending queue rest).pending queue = rest := update_self ..
  unfold txFrags
  dsimp only
  split
  · rw [ready.onChannel,if_neg Bool.false_ne_true,if_pos rfl,own,taken]
    have same : (w.setPending queue rest).setPending queue ([skb] ++ rest) = w := by
      unfold World.setPending
      rw [update_idem,List.singleton_append,← frames,update_eq_self]
    rw [same]
    exact accepts_none waits
  obtain ⟨pending,passed⟩ := drvTx_known cfg env vif sta (w.setPending queue rest) skb
  unfold txFrags
  refine ⟨?_,?_,fun routed => drvTx_routed (w := w.setPending queue rest) routed env vif sta skb direct⟩
  · intro q other member
    rw [pending] at member
    by_cases here : q = queue
    · subst here
      rw [taken] at member
      exact waits q other (by rw [frames]; exact mem_cons_of_mem _ member)
    · unfold World.setPending at member
      dsimp only at member
      rw [update_of_ne here] at member
      exact waits q other member
  intro q
  unfold World.known
  rw [pending,passed,ofQueue_append]
  by_cases here : q = queue
  · subst here
    rw [taken,frames,List.map_cons,@ofQueue_one q {skb with vif := vif} own,append_assoc]
    exact (append_nil _).symm
  · unfold World.setPending
    dsimp only
    rw [update_of_ne here,@ofQueue_none q {skb with vif := vif} (fun same => here (same.symm.trans own)),append_nil]
    exact (append_nil _).symm

end

theorem tx_ready (ready : Ready cfg skb) (placed : skb.vif = some sdata) (env : Env) (txpending : Bool) (w : World) :
    ∃ vif, tx cfg env sdata skb.sta txpending w skb [] = txFrags cfg env vif skb.sta txpending w [skb] ∧
      (vif = none → txqOf cfg none skb.sta skb = none) := by
  obtain ⟨_,vif,monitor⟩ := ready.placed
  cases placed.symm.trans vif
  unfold tx
  split
  · exact ⟨_,rfl,nofun⟩
  · rename_i plain
    rcases monitor plain with ⟨virtual,present,same⟩ | ⟨absent,control,direct⟩
    · rw [present]
      dsimp only
      rw [same]
      exact ⟨some virtual,rfl,nofun⟩
    · rw [absent]
      rw [control,if_neg Bool.false_ne_true]
      exact ⟨none,rfl,fun _ => direct⟩
  · exact ⟨_,rfl,nofun⟩
  · exact ⟨_,rfl,nofun⟩

theorem pendingLoop_accepts (waits : Waits cfg w) (i turns : Nat) : Accepts cfg [] w (pendingLoop cfg env i turns w) := by
  induction turns generalizing w with
  | zero => exact accepts_none waits
  | succ turns ih =>
    unfold pendingLoop
    split
    · exact accepts_none waits
    rename_i skb rest frames
    obtain ⟨_,ready⟩ := waits i skb (by rw [frames]; exact mem_cons_self ..)
    obtain ⟨sdata,vif,-⟩ := ready.placed
    obtain ⟨through,same,direct⟩ := tx_ready ready vif env true (w.setPending i rest)
    have sent : Accepts cfg [] w (txPendingSkb cfg env sdata (w.setPending i rest) skb).1 := by
      unfold txPendingSkb
      rw [ready.processed,if_neg Bool.false_ne_true,same]
      exact txFrags_pending waits through skb.sta frames direct
    rw [vif]
    dsimp only
    split
    · exact sent.trans (ih sent.waits)
    · exact sent

theorem pendingQueue_accepts (waits : Waits cfg w) (i : Nat) : Accepts cfg [] w (pendingQueue cfg env w i) := by
  unfold pendingQueue
  split
  · exact accepts_none waits
  · have sent : Accepts cfg [] w (pendingLoop cfg env i (w.pending i).length w) := pendingLoop_accepts waits i _
    dsimp only
    split
    · exact sent.trans (Untouched.accepts ⟨rfl,rfl,id⟩ sent.waits)
    · exact sent

theorem txPending_accepts (waits : Waits cfg w) : Accepts cfg [] w (txPending cfg env w) := by
  have each : ∀ (queues : List Nat) (v : World), Waits cfg v → Accepts cfg [] v (queues.foldl (pendingQueue cfg env) v) := by
    intro queues
    induction queues with
    | nil => exact fun v waits => accepts_none waits
    | cons i rest ih =>
      intro v waits
      have first : Accepts cfg [] v (pendingQueue cfg env v i) := pendingQueue_accepts waits i
      exact first.trans (ih _ first.waits)
  have begun : Accepts cfg [] w {w with tasklet := false} := Untouched.accepts ⟨rfl,rfl,id⟩ waits
  exact begun.trans (each _ _ begun.waits)

theorem step_accepts (waits : Waits cfg w) (e : Event × Env) (fit : Fit cfg e.1) : Accepts cfg e.1.frames w (step cfg w e) := by
  obtain ⟨event,_⟩ := e
  cases event with
  | op op => exact (op_untouched cfg w op).accepts waits
  | addPendingSkb => exact addPendingSkb_accepts waits fit
  | addPendingSkbs => exact addPendingSkbs_accepts waits fit
  | txFrags vif sta skbs =>
    cases skbs with
    | nil => exact accepts_none waits
    | cons skb =>
      exact txFrags_accepts waits vif sta
        (fun other member => ⟨fit.2.1 other member skb (mem_cons_self ..),fit.1 other member⟩) fit.2.2
  | tx => exact fit.elim
  | txPending => exact txPending_accepts waits
  | txqStop => exact Untouched.accepts ⟨rfl,rfl,id⟩ waits

end order

theorem run_in_order (cfg : Config) (events : List (Event × Env)) (fit : ∀ e ∈ events, Fit cfg e.1) :
    (∀ queue, ofQueue queue ((run cfg events).passed.map Prod.snd) ++ ((run cfg events).pending queue).map TxSkb.id =
      ofQueue queue (events.flatMap fun e => e.1.frames)) ∧
    ∀ route, onRoute route (run cfg events).handed ++ (run cfg events).queued route = onRoute route (run cfg events).passed := by
  have all : ∀ (events : List (Event × Env)) (w : World), Waits cfg w → (∀ e ∈ events, Fit cfg e.1) →
      Accepts cfg (events.flatMap fun e => e.1.frames) w (events.foldl (step cfg) w) := by
    intro events
    induction events with
    | nil => exact fun w waits _ => accepts_none waits
    | cons e rest ih =>
      intro w waits fit
      have first := step_accepts waits e (fit e (mem_cons_self ..))
      rw [List.flatMap_cons]
      exact first.trans (ih _ first.waits fun other member => fit other (mem_cons_of_mem _ member))
  have start : Waits cfg idle := fun _ _ member => nomatch member
  have accepts := all events idle start fit
  refine ⟨accepts.known,accepts.routed fun route => ?_⟩
  cases route <;> rfl

-- A driver without tx queues.
def directConfig : Config := {sampleConfig with vifTxq := fun _ => none}

theorem sample_ready (id queue : Nat) : Ready sampleConfig (sampleSkb id queue) :=
  ⟨rfl,rfl,0,rfl,fun plain => nomatch plain⟩

theorem direct_ready (id queue : Nat) : Ready directConfig (sampleSkb id queue) :=
  ⟨rfl,rfl,0,rfl,fun plain => nomatch plain⟩

def stopping : Env := {silent with driver := fun _ => [.stop 2 .driver false]}

def stopped : List (Event × Env) :=
  [(.txFrags (some 0) none [sampleSkb 0 2,sampleSkb 1 2],stopping),(.addPendingSkb (sampleSkb 2 2),silent),
    (.op (.wake 2 .driver false),silent),(.txPending,silent),(.op (.dequeue 0),silent)]

theorem run_in_order_stopped :
    (∀ queue, ofQueue queue ((run sampleConfig stopped).passed.map Prod.snd) ++
      ((run sampleConfig stopped).pending queue).map TxSkb.id = ofQueue queue (stopped.flatMap fun e => e.1.frames)) ∧
    (∀ route, onRoute route (run sampleConfig stopped).handed ++ (run sampleConfig stopped).queued route =
      onRoute route (run sampleConfig stopped).passed) ∧
    onRoute (some 0) (run sampleConfig stopped).handed = [0] ∧ (run sampleConfig stopped).queued (some 0) = [1,2] := by
  have order := run_in_order sampleConfig stopped fun e member => ?_
  exact ⟨order.1,order.2,by decide,by decide⟩
  simp only [stopped,mem_cons,not_mem_nil,or_false] at member
  rcases member with rfl | rfl | rfl | rfl | rfl
  · refine ⟨fun skb member => ?_,fun skb member other others => ?_,nofun⟩
    · simp only [mem_cons,not_mem_nil,or_false] at member
      rcases member with rfl | rfl
      · exact sample_ready 0 2
      · exact sample_ready 1 2
    · simp only [mem_cons,not_mem_nil,or_false] at member others
      rcases member with rfl | rfl <;> rcases others with rfl | rfl <;> rfl
  · exact sample_ready 2 2
  · trivial
  · trivial
  · trivial

-- The list waits for the queue of its first frame; a frame for the other one comes before it.
def mixed : List (Event × Env) :=
  [(.op (.stop 0 .driver false),silent),(.txFrags (some 0) none [sampleSkb 0 0,sampleSkb 1 1],silent),
    (.txFrags (some 0) none [sampleSkb 2 1],silent),(.op (.wake 0 .driver false),silent),(.txPending,silent)]

theorem mixed_reordered : (∀ e ∈ mixed, ∀ skb ∈ e.1.frames, Ready directConfig skb) ∧
    ofQueue 1 ((run directConfig mixed).handed.map Prod.snd) = [2,1] ∧ ((run directConfig mixed).pending 1) = [] ∧
      ofQueue 1 (mixed.flatMap fun e => e.1.frames) = [1,2] := by
  refine ⟨?_,by decide,by decide,by decide⟩
  intro e member _ frame
  simp only [mixed,mem_cons,not_mem_nil,or_false] at member
  rcases member with rfl | rfl | rfl | rfl | rfl
  · cases frame
  · simp only [Event.frames,mem_cons,not_mem_nil,or_false] at frame
    rcases frame with rfl | rfl
    · exact direct_ready 0 0
    · exact direct_ready 1 1
  · simp only [Event.frames,mem_cons,not_mem_nil,or_false] at frame
    rw [frame]
    exact direct_ready 2 1
  · cases frame
  · cases frame

end Mac80211.Queues

import Mac80211.AggTx

namespace Mac80211.AggTx

open Function (update update_eq_self update_of_ne)

structure Core where
  id : Nat
  drvReady : Bool
  responseReceived : Bool
  operational : Bool
  stopping : Bool

def TidAmpduTx.core (tx : TidAmpduTx) : Core :=
  ⟨tx.id,tx.state.drvReady,tx.state.responseReceived,tx.state.operational,tx.state.stopping⟩

def World.core (w : World) (tid : TidNum) : Option Core := (w.tidTx tid).map TidAmpduTx.core

def World.start (w : World) (tid : TidNum) : Option Core := ((w.tid tid).startTx).map TidAmpduTx.core

structure Machine where
  core : TidNum → Option Core
  start : TidNum → Option Core
  allocated : Nat
  mtx : Option Section

def World.machine (w : World) : Machine := ⟨w.core,w.start,w.allocated,w.mtx⟩

-- The holder of ampdu_mlme.mtx has changed no bit that it has still to follow up.
def Section.plain : Section → Prop
  | .stopAddbaTimer .. => False
  | .stopSessionTimer .. => False
  | .stopClear .. => False
  | .startCbReady .. => False
  | .addbaReady .. => False
  | .operational .. => False
  | _ => True

def Section.clears (tid : TidNum) : Section → Prop
  | .stopAddbaTimer t .. => t = tid
  | .stopSessionTimer t .. => t = tid
  | .stopClear t .. => t = tid
  | _ => False

def Machine.Plain (m : Machine) : Prop := ∀ s, m.mtx = some s → s.plain

def Machine.Free (m : Machine) : Prop := ∀ s tid, m.mtx = some s → s.clears tid → m.core tid = none

-- What one section under the mutex can do to the state bits of a session.
inductive Moves (m m' : Machine) : Prop
  | still (core : m'.core = m.core) (mtx : m'.mtx = m.mtx)
  | moved (core : m'.core = m.core) (free : m.Free) (plain : m'.Plain)
  | removed (tid : TidNum) (core : m'.core = update m.core tid none) (free : m.Free) (plain : m'.Plain)
  | stopping (tid : TidNum) (c : Core) (there : m.core tid = some c)
    (core : m'.core = update m.core tid (some {c with stopping := true})) (free : m.Free) (s : Section)
    (mtx : m'.mtx = some s) (clears : s.clears tid)
  | clearing (tid : TidNum) (core : m'.core = m.core) (s s' : Section) (mtx : m.mtx = some s) (mtx' : m'.mtx = some s')
    (clears : s.clears tid) (clears' : s'.clears tid)
  | cleared (tid : TidNum) (c : Core) (there : m.core tid = some c)
    (core : m'.core = update m.core tid (some {c with operational := false})) (s : Section)
    (mtx : m.mtx = some s) (clears : s.clears tid) (plain : m'.Plain)
  | ready (tid : TidNum) (c : Core) (there : m.core tid = some c) (first : c.drvReady = false)
    (core : m'.core = update m.core tid (some {c with drvReady := true})) (mtx : m.mtx = some (.startCb tid))
    (mtx' : m'.mtx = some (.startCbReady tid))
  | response (tid : TidNum) (c : Core) (there : m.core tid = some c) (going : c.stopping = false)
    (core : m'.core = update m.core tid (some {c with responseReceived := true})) (free : m.Free)
    (mtx' : m'.mtx = some (.addbaReady tid))
  | agreed (tid : TidNum) (c : Core) (there : m.core tid = some c) (core : m'.core = m.core)
    (mtx : m.mtx = some (.startCbReady tid) ∧ c.responseReceived = true ∨ m.mtx = some (.addbaReady tid) ∧ c.drvReady = true)
    (addba : Bool) (mtx' : m'.mtx = some (.operational tid addba))
  | operational (tid : TidNum) (c : Core) (there : m.core tid = some c)
    (core : m'.core = update m.core tid (some {c with operational := true})) (addba : Bool)
    (mtx : m.mtx = some (.operational tid addba)) (plain : m'.Plain)

def newCore (id : Nat) : Core := ⟨id,false,false,false,false⟩

inductive Steps (m m' : Machine) : Prop
  | session (start : m'.start = m.start) (allocated : m'.allocated = m.allocated) (moves : Moves m m')
  | asked (tid : TidNum) (idle : m.core tid = none) (free : m.start tid = none)
    (start : m'.start = update m.start tid (some (newCore m.allocated))) (allocated : m'.allocated = m.allocated + 1)
    (core : m'.core = m.core) (mtx : m'.mtx = m.mtx)
  | launched (tid : TidNum) (c : Core) (there : m.start tid = some c) (start : m'.start = update m.start tid none)
    (allocated : m'.allocated = m.allocated) (core : m'.core = update m.core tid (some ((m.core tid).getD c)))
    (free : m.Free) (plain : m'.Plain)

section moves
variable {w : World}

@[simp] theorem tid_setTid (w : World) (tid other : TidNum) (t : Tid) :
    (w.setTid tid t).tid other = if other = tid then t else w.tid other := by
  unfold World.tid World.setTid
  by_cases same : other = tid
  · subst same
    simp
  · rw [if_neg same]
    exact Vector.getElem_set_ne tid.isLt other.isLt (fun equal => same (Fin.ext equal.symm))

theorem core_setTid (w : World) (tid : TidNum) (t : Tid) :
    (w.setTid tid t).core = update w.core tid (t.tidTx.map TidAmpduTx.core) := by
  funext other
  unfold World.core World.tidTx
  by_cases same : other = tid
  · subst same
    simp
  · rw [tid_setTid,if_neg same,update_of_ne same]

theorem core_assign (w : World) (tid : TidNum) (tx : Option TidAmpduTx) :
    (w.assignTidTx tid tx).core = update w.core tid (tx.map TidAmpduTx.core) :=
  core_setTid w tid _

theorem core_there (there : w.tidTx tid = some tx) : w.core tid = some tx.core := by
  unfold World.core
  rw [there]
  rfl

theorem core_missing (missing : w.tidTx tid = none) : w.core tid = none := by
  unfold World.core
  rw [missing]
  rfl

theorem core_kept (there : w.tidTx tid = some tx) (same : tx'.core = tx.core) :
    (w.assignTidTx tid (some tx')).core = w.core := by
  rw [core_assign,Option.map_some,same,← core_there there,update_eq_self]

theorem core_update (w : World) (tid : TidNum) (f : TidAmpduTx → TidAmpduTx) (same : ∀ tx, (f tx).core = tx.core) :
    (w.update tid f).core = w.core := by
  unfold World.update
  rw [core_assign,Option.map_map]
  have equal : TidAmpduTx.core ∘ f = TidAmpduTx.core := funext same
  rw [equal]
  exact update_eq_self tid w.core

theorem core_setTid_kept (w : World) (tid : TidNum) (t : Tid) (f : TidAmpduTx → TidAmpduTx) (same : ∀ tx, (f tx).core = tx.core)
    (tidTx : t.tidTx = (w.tidTx tid).map f) : (w.setTid tid t).core = w.core := by
  have equal : TidAmpduTx.core ∘ f = TidAmpduTx.core := funext same
  rw [core_setTid,tidTx,Option.map_map,equal]
  exact update_eq_self tid w.core

theorem plain_unlock (w : World) : w.unlock.machine.Plain := by
  intro s held
  cases held

theorem plain_goTo (w : World) (plain : s.plain) : (w.goTo s).machine.Plain := by
  intro _ held
  cases held
  exact plain

theorem plain_resume (w : World) (next : Option Nat) : (w.resume next).machine.Plain := by
  intro s held
  cases next with
  | none => cases held
  | some =>
    cases held
    trivial

theorem free_of (held : w.mtx = some s) (keeps : ∀ tid, ¬ s.clears tid) : w.machine.Free := by
  intro _ tid held' clears
  cases held.symm.trans held'
  exact absurd clears (keeps tid)

theorem free_none (free : w.mtx = none) : w.machine.Free := by
  intro s _ held
  cases free.symm.trans held

section
variable (w : World) (tid : TidNum)

theorem start_setTid (t : Tid) : (w.setTid tid t).start = update w.start tid (t.startTx.map TidAmpduTx.core) := by
  funext other
  unfold World.start
  by_cases same : other = tid
  · subst same
    simp
  · rw [tid_setTid,if_neg same,update_of_ne same]

theorem start_kept (t : Tid) (same : t.startTx = (w.tid tid).startTx) : (w.setTid tid t).start = w.start := by
  rw [start_setTid,same]
  exact update_eq_self tid w.start

theorem start_assign (tx : Option TidAmpduTx) : (w.assignTidTx tid tx).start = w.start :=
  start_kept w tid _ rfl

theorem startTxBaTid_steps (timeout : UInt16) (alloc : Bool) :
    Steps w.machine (w.startTxBaTid tid timeout alloc).1.machine := by
  unfold World.startTxBaTid
  dsimp only
  split
  · exact .session rfl rfl (.still rfl rfl)
  split
  · exact .session rfl rfl (.still rfl rfl)
  rename_i idle
  split
  · exact .session rfl rfl (.still rfl rfl)
  · simp only [Bool.or_eq_true,Option.isSome_iff_ne_none,not_or,not_not] at idle
    have free : w.start tid = none := by simp [World.start,idle.2]
    have start := start_setTid w tid
      {w.tid tid with startTx := some (newTidTx w.allocated timeout (w.dialogTokenAllocator + 1))}
    have core := core_setTid_kept w tid
      {w.tid tid with startTx := some (newTidTx w.allocated timeout (w.dialogTokenAllocator + 1))} id (fun _ => rfl)
      Option.map_id'.symm
    exact .asked tid (core_missing idle.1) free start rfl core rfl

end

theorem startTxBaSession_steps (w : World) (tid timeout : UInt16) (alloc : Bool) :
    Steps w.machine (w.startTxBaSession tid timeout alloc).1.machine := by
  unfold World.startTxBaSession
  split
  · split
    · exact .session rfl rfl (.still rfl rfl)
    · exact startTxBaTid_steps w _ timeout alloc
  · exact .session rfl rfl (.still rfl rfl)

theorem stopTxBaSession_steps (w : World) (tid : UInt16) : Steps w.machine (w.stopTxBaSession tid).1.machine := by
  unfold World.stopTxBaSession
  split
  · rename_i small
    split
    · exact .session rfl rfl (.still rfl rfl)
    · unfold World.stopTxBaTid
      split
      · exact .session rfl rfl (.still rfl rfl)
      · rename_i tx there
        split
        · exact .session rfl rfl (.still rfl rfl)
        · have core : (w.assignTidTx ⟨tid.toNat,small⟩ (some {tx with state.wantStop := true})).core = w.core := core_kept there rfl
          exact .session (start_assign w ⟨tid.toNat,small⟩ _) rfl (.still core rfl)
  · exact .session rfl rfl (.still rfl rfl)

section
variable (free : w.machine.Free) (tid : TidNum)
include free

theorem workTid_steps : Steps w.machine (w.workTid tid).machine := by
  unfold World.workTid
  dsimp only
  split
  · exact .session rfl rfl (.moved rfl free (plain_goTo w trivial))
  · rename_i start there
    have begun : w.start tid = some start.core := by simp [World.start,there]
    have core := core_setTid w tid {w.tid tid with startTx := none,tidTx := some ((w.tid tid).tidTx.getD start)}
    have live : (w.core tid).getD start.core = ((w.tid tid).tidTx.getD start).core := by
      unfold World.core World.tidTx
      cases (w.tid tid).tidTx <;> rfl
    refine .launched tid start.core begun (start_setTid w tid _) rfl ?_ free (plain_goTo _ trivial)
    exact core.trans (by rw [Option.map_some,← live]; rfl)

theorem drvStart_steps (accepted : Bool) : Steps w.machine (w.drvStart tid accepted).machine := by
  unfold World.drvStart
  dsimp only
  split
  · exact .session (start_assign _ tid none) rfl (.removed tid (core_assign _ tid none) free (plain_goTo _ trivial))
  split
  · exact .session rfl rfl (.moved rfl free (plain_goTo _ trivial))
  rename_i tx there
  have live : w.tidTx tid = some tx := there
  have start := start_kept w tid {w.tid tid with
      tidTx := some {tx with addbaRespTimer := true},
      lastAddbaReqTime := w.jiffies,
      addbaReqNum := (w.tid tid).addbaReqNum + 1} rfl
  have core := core_setTid_kept w tid {w.tid tid with
      tidTx := some {tx with addbaRespTimer := true},
      lastAddbaReqTime := w.jiffies,
      addbaReqNum := (w.tid tid).addbaReqNum + 1} (fun tx => {tx with addbaRespTimer := true}) (fun _ => rfl) (by rw [live]; rfl)
  exact .session start rfl (.moved core free (plain_goTo _ trivial))

theorem stop_steps (reason : StopReason) (next : Option Nat) : Steps w.machine (w.stop tid reason next).machine := by
  unfold World.stop
  split
  · exact .session rfl rfl (.moved rfl free (plain_resume w next))
  rename_i tx there
  split
  · split
    · exact .session rfl rfl (.moved rfl free (plain_resume _ next))
    · exact .session rfl rfl (.moved rfl free (plain_resume w next))
  split
  · exact .session (start_assign w tid none) rfl (.removed tid (core_assign w tid none) free (plain_resume _ next))
  · exact .session (start_assign w tid _) rfl (.stopping tid tx.core (core_there there) (core_assign w tid _) free _ rfl rfl)

end

theorem startCb_steps (held : w.mtx = some (.startCb tid)) : Steps w.machine (w.startCb tid).machine := by
  have free := free_of held fun _ clears => clears
  unfold World.startCb
  split
  · exact .session rfl rfl (.moved rfl free (plain_unlock w))
  rename_i tx there
  split
  · exact .session rfl rfl (.moved rfl free (plain_unlock w))
  · rename_i first
    exact .session (start_assign w tid _) rfl
      (.ready tid tx.core (core_there there) (Bool.eq_false_iff.mpr first) (core_assign w tid _) held rfl)

theorem operational_steps (addba : Bool) (held : w.mtx = some (.operational tid addba)) :
    Steps w.machine (w.operational tid addba).machine := by
  have free := free_of held fun _ clears => clears
  unfold World.operational
  split
  · exact .session rfl rfl (.moved rfl free (plain_unlock w))
  rename_i tx there
  have start := start_assign w tid (some {tx with state.operational := true})
  have core := core_assign w tid (some {tx with state.operational := true})
  split
  · exact .session start rfl (.operational tid tx.core (core_there there) core addba held (plain_goTo _ trivial))
  · exact .session start rfl (.operational tid tx.core (core_there there) core addba held (plain_unlock _))

theorem addbaStatus_steps (free : w.machine.Free) (tid : TidNum) (bufSize : UInt8) (status : UInt16) :
    Steps w.machine (w.addbaStatus tid bufSize status).machine := by
  unfold World.addbaStatus
  split
  · exact .session rfl rfl (.moved rfl free (plain_unlock w))
  rename_i tx there
  split
  · exact .session rfl rfl (.moved rfl free (plain_unlock w))
  rename_i going
  split
  · split
    · exact .session rfl rfl (.moved rfl free (plain_unlock w))
    · simp only [Bool.or_eq_true,not_or,Bool.not_eq_true] at going
      exact .session (start_assign w tid _) rfl (.response tid tx.core (core_there there) going.2 (core_assign w tid _) free rfl)
  · exact .session rfl rfl (.moved rfl free (plain_goTo w trivial))

theorem stopCb_steps (free : w.machine.Free) (tid : TidNum) : Steps w.machine (w.stopCb tid).machine := by
  unfold World.stopCb
  split
  · exact .session rfl rfl (.moved rfl free (plain_unlock w))
  split
  · exact .session rfl rfl (.moved rfl free (plain_unlock w))
  · have start := start_assign w tid none
    have core := core_assign w tid none
    split <;> exact .session start rfl (.removed tid core free (plain_unlock _))

theorem delTimerSync_some (ran : w.delTimerSync handler next = some w') : w' = next := by
  unfold World.delTimerSync at ran
  split at ran
  · cases ran
  · exact (Option.some.inj ran).symm

theorem update_steps (free : w.machine.Free) (tid : TidNum) (f : TidAmpduTx → TidAmpduTx)
    (same : ∀ tx, (f tx).core = tx.core) (plain : s.plain) : Steps w.machine ((w.update tid f).goTo s).machine :=
  .session (start_assign w tid _) rfl (.moved (core_update w tid f same) free (plain_goTo _ plain))

theorem goTo_steps (free : w.machine.Free) (plain : s.plain) : Steps w.machine (w.goTo s).machine :=
  .session rfl rfl (.moved rfl free (plain_goTo w plain))

theorem unlock_steps (free : w.machine.Free) : Steps w.machine w.unlock.machine := .session rfl rfl (.moved rfl free (plain_unlock w))

theorem goOn_steps (held : w.mtx = some s) (ran : w.goOn accepted s = some w') : Steps w.machine w'.machine := by
  have free := free_of held
  cases s with
  | work =>
    cases ran
    split
    · exact workTid_steps (free nofun) _
    · exact unlock_steps (free nofun)
  | handleStart tid =>
    cases ran
    refine update_steps (free nofun) tid _ ?_ ?_
    · exact fun _ => rfl
    · trivial
  | drvStart tid =>
    cases ran
    exact drvStart_steps (free nofun) tid accepted
  | wantStop tid =>
    cases ran
    split
    · refine update_steps (free nofun) tid _ ?_ ?_
      · exact fun _ => rfl
      · trivial
    · exact goTo_steps (free nofun) trivial
  | stop tid reason next =>
    cases ran
    exact stop_steps (free nofun) tid reason next
  | stopAddbaTimer tid | stopSessionTimer tid =>
    cases delTimerSync_some ran
    exact .session (start_assign w tid _) rfl (.clearing tid (core_update w tid _ fun _ => rfl) _ _ held rfl rfl rfl)
  | stopClear tid =>
    cases ran
    refine .session (start_assign w tid _) rfl ?_
    cases there : w.tidTx tid with
    | none =>
      have core := core_assign w tid none
      rw [Option.map_none,← core_missing there,update_eq_self] at core
      unfold World.update
      rw [there]
      refine .moved core ?_ (plain_goTo _ trivial)
      intro s _ held' clears
      cases held.symm.trans held'
      cases clears
      exact core_missing there
    | some tx =>
      have core := core_assign w tid (some {tx with state.operational := false})
      unfold World.update
      rw [there]
      exact .cleared tid tx.core (core_there there) core _ held rfl (plain_goTo _ trivial)
  | stopDrv tid reason next =>
    cases ran
    exact .session (start_assign w tid _) rfl (.moved (core_update w tid _ fun _ => rfl) (free nofun) (plain_resume _ next))
  | startCb =>
    cases ran
    exact startCb_steps held
  | startCbReady tid =>
    cases ran
    split
    · rename_i agreed
      obtain ⟨tx,there,received⟩ := (Option.any_eq_true _ _).mp agreed
      exact .session rfl rfl (.agreed tid tx.core (core_there there) rfl (.inl ⟨held,received⟩) false rfl)
    · exact unlock_steps (free nofun)
  | addbaResp =>
    cases ran
    unfold World.addbaResp
    split
    · exact unlock_steps (free nofun)
    split
    · exact unlock_steps (free nofun)
    · exact goTo_steps (free nofun) trivial
  | addbaTimer tid =>
    cases delTimerSync_some ran
    refine update_steps (free nofun) tid _ ?_ ?_
    · exact fun _ => rfl
    · trivial
  | addbaStatus tid bufSize status =>
    cases ran
    exact addbaStatus_steps (free nofun) tid bufSize status
  | addbaReady tid =>
    cases ran
    split
    · rename_i agreed
      obtain ⟨tx,there,ready⟩ := (Option.any_eq_true _ _).mp agreed
      exact .session rfl rfl (.agreed tid tx.core (core_there there) rfl (.inr ⟨held,ready⟩) true rfl)
    · exact goTo_steps (free nofun) trivial
  | addbaDone tid =>
    cases ran
    have start := start_kept w tid {w.tid tid with
        addbaReqNum := 0,
        tidTx := (w.tidTx tid).map fun tx => if tx.timeout == 0 then tx else {tx with sessionTimer := true,lastTx := w.jiffies}}
      rfl
    have core := core_setTid_kept w tid {w.tid tid with
        addbaReqNum := 0,
        tidTx := (w.tidTx tid).map fun tx => if tx.timeout == 0 then tx else {tx with sessionTimer := true,lastTx := w.jiffies}}
      _ (fun tx => by split <;> rfl) rfl
    exact .session start rfl (.moved core (free nofun) (plain_unlock _))
  | operational tid addba =>
    cases ran
    exact operational_steps addba held
  | stopCb tid =>
    cases ran
    exact stopCb_steps (free nofun) tid

theorem process_steps (free : w.machine.Free) (item : Queued) : Steps w.machine (w.process item).machine := by
  cases item with
  | aggStart | aggStop =>
    dsimp only [World.process]
    split
    · exact goTo_steps free trivial
    · exact .session rfl rfl (.still rfl rfl)
  | addbaResp => exact goTo_steps free trivial
  | delba =>
    dsimp only [World.process]
    split
    · exact .session rfl rfl (.still rfl rfl)
    · exact goTo_steps free trivial

theorem step_steps (ran : step e w = some w') : Steps w.machine w'.machine := by
  cases e with
  | startTxBaSession tid timeout alloc =>
    cases ran
    exact startTxBaSession_steps w tid timeout alloc
  | stopTxBaSession tid =>
    cases ran
    exact stopTxBaSession_steps w tid
  | startTxBaCbIrqsafe tid alloc | stopTxBaCbIrqsafe tid alloc =>
    cases ran
    cases alloc <;> exact .session rfl rfl (.still rfl rfl)
  | rxAddbaResp | rxDelba | blockBa | reserve | tick =>
    cases ran
    exact .session rfl rfl (.still rfl rfl)
  | work =>
    simp only [step,World.baSessionWork] at ran
    split at ran
    · cases ran
    split at ran
    · cases ran
      exact .session rfl rfl (.still rfl rfl)
    split at ran
    · cases ran
    · rename_i held
      cases ran
      have free := free_none (w := {w with workPending := false}) (Option.not_isSome_iff_eq_none.mp held)
      exact goTo_steps free trivial
  | iface =>
    simp only [step,World.ifaceWork] at ran
    split at ran
    · rename_i item queue free waits
      cases ran
      exact process_steps (w := {w with queue := queue}) (free_none free) item
    · cases ran
  | stop =>
    simp only [step] at ran
    split at ran
    · cases ran
    · rename_i held
      cases ran
      exact goTo_steps (free_none (Option.not_isSome_iff_eq_none.mp held)) trivial
  | goOn =>
    obtain ⟨s,held,ran⟩ := Option.bind_eq_some_iff.mp ran
    exact goOn_steps held ran
  | addbaRespTimer tid =>
    simp only [step,World.timer] at ran
    split at ran
    · cases ran
    rename_i tx there
    split at ran
    · cases ran
      have start := start_assign w tid (some {tx with addbaRespTimer := false})
      have core : (w.assignTidTx tid (some {tx with addbaRespTimer := false})).core = w.core := core_kept there rfl
      unfold World.addbaRespTimerExpired
      split <;> exact .session start rfl (.still core rfl)
    · cases ran
  | sessionTimer tid =>
    simp only [step,World.timer] at ran
    split at ran
    · cases ran
    rename_i tx there
    split at ran
    · cases ran
      have start := start_assign w tid (some {tx with sessionTimer := false})
      have core : (w.assignTidTx tid (some {tx with sessionTimer := false})).core = w.core := core_kept there rfl
      unfold World.sessionTimerExpired
      split
      · exact .session start rfl (.still core rfl)
      split
      · exact .session rfl rfl (.still rfl rfl)
      · exact .session start rfl (.still core rfl)
    · cases ran
  | handler k =>
    obtain ⟨_,_,rfl⟩ := Option.map_eq_some_iff.mp ran
    exact stopTxBaSession_steps {w with handlers := w.handlers.eraseIdx k} _
  | tx tid =>
    cases ran
    have core := core_setTid_kept w tid {w.tid tid with
        tidSeq := ((w.tid tid).tidSeq + 0x10) &&& 0xfff0,
        tidTx := (w.tidTx tid).map fun tx =>
          if tx.state.operational && tx.timeout != 0 then {tx with lastTx := w.jiffies} else tx}
      _ (fun tx => by split <;> rfl) rfl
    exact .session (start_kept w tid _ rfl) rfl (.still core rfl)

end moves

end Mac80211.AggTx

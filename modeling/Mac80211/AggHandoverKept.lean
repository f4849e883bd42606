import Mac80211.AggHandover

namespace Mac80211.AggHandover

open List (append_nil mem_singleton mem_append)

def History (fine : List Act → Act → Prop) (trace : List Act) : Prop :=
  ∀ pre act post, trace = pre ++ act :: post → fine pre act

theorem history_nil (fine : List Act → Act → Prop) : History fine [] := by
  intro pre _ _ equal
  cases pre <;> cases equal

theorem history_snoc (history : History fine trace) (meets : fine trace act) :
    History fine (trace ++ [act]) := by
  intro pre before post equal
  rcases List.eq_nil_or_concat post with rfl | ⟨init,last,rfl⟩
  · obtain ⟨rfl,same⟩ := List.append_inj' equal rfl
    cases same
    exact meets
  · have parts : trace ++ [act] = (pre ++ before :: init) ++ [last] := by
      rw [equal]
      simp
    exact history pre before init (List.append_inj' parts rfl).1

-- What was put to the pending queue of a session, and what has left it, in order.
def Act.heldIn (s : Nat) : Act → List Skb
  | .held t skb => if t = s then [skb] else []
  | _ => []

def Act.leftIn (s : Nat) : Act → List Skb
  | .purged t skb => if t = s then [skb] else []
  | .moved t skbs => if t = s then skbs else []
  | _ => []

def heldOf (s : Nat) (trace : List Act) : List Skb := trace.flatMap (Act.heldIn s)
def leftOf (s : Nat) (trace : List Act) : List Skb := trace.flatMap (Act.leftIn s)

-- Only the oldest frame is dropped, and only above STA_MAX_TX_BUFFER; none is left where the record is
-- freed.
def Handed (trace : List Act) : Act → Prop
  | .held s _ => .freed s ∉ trace
  | .purged s skb => ∃ rest, staMaxTxBuffer ≤ rest.length ∧ leftOf s trace ++ skb :: rest = heldOf s trace
  | .moved s skbs => leftOf s trace ++ skbs = heldOf s trace
  | .freed s => leftOf s trace = heldOf s trace
  | _ => True

def Section.handing : Section → Nat
  | .move _ => 1
  | .assign _ => 1
  | .wake _ => 1
  | _ => 0

def handing (mtx : Option Section) : Nat := (mtx.map Section.handing).getD 0

structure Ledger where
  tidTx : Option Nat
  tidStartTx : Option Nat
  allocated : Nat
  mtx : Option Section
  pending : Nat → List Skb
  wantStart : Nat → Bool
  aggQueueStop : Int
  others : Nat
  trace : List Act

def World.ledger (w : World) : Ledger where
  tidTx := w.tidTx
  tidStartTx := w.tidStartTx
  allocated := w.allocated
  mtx := w.mtx
  pending := fun s => (w.sessions s).pending
  wantStart := fun s => (w.sessions s).state.wantStart
  aggQueueStop := w.aggQueueStop
  others := w.others
  trace := w.trace

def Section.Knows (l : Ledger) : Section → Prop
  | .clearWantStart s => l.tidTx = some s
  | .startSync s _ => l.tidTx = some s
  | .startSeq s => l.tidTx = some s
  | .startDrv s _ => l.tidTx = some s
  | .addbaRequest s _ => l.tidTx = some s
  | .stopClear s => l.tidTx = some s
  | .stopSync s _ => l.tidTx = some s
  | .stopDrv s => l.tidTx = some s
  | .startCbReady s => l.tidTx = some s
  | .addbaStatus s _ => l.tidTx = some s
  | .addbaReady s => l.tidTx = some s
  | .drvOperational s => l.tidTx = some s
  | .splice h => l.tidTx = some h.session
  | .move h => l.tidTx = some h.session
  | .assign h => l.tidTx = some h.session ∧ l.pending h.session = []
  | .wake (.operational s) => l.tidTx = some s
  | .wake h => l.tidTx = none ∧ l.tidStartTx = none ∧ h.session < l.allocated
  | _ => True

structure Kept (l : Ledger) : Prop where
  one : l.tidTx = none ∨ l.tidStartTx = none
  live : ∀ s, l.tidTx = some s → s < l.allocated
  asked : ∀ s, l.tidStartTx = some s → s < l.allocated
  knows : ∀ sec, l.mtx = some sec → sec.Knows l
  want : ∀ s, l.tidTx = some s → l.wantStart s = true → l.mtx = some (.clearWantStart s)
  gone : ∀ s, l.tidTx ≠ some s → l.pending s = []
  count : l.aggQueueStop = l.others + handing l.mtx
  flow : ∀ s, leftOf s l.trace ++ l.pending s = heldOf s l.trace
  freed : ∀ s, .freed s ∈ l.trace → s < l.allocated ∧ l.tidTx ≠ some s ∧ l.tidStartTx ≠ some s
  handed : History Handed l.trace

def Act.silent : Act → Bool
  | .addbaRequest .. => true
  | .flagged .. => true
  | .numbered .. => true
  | _ => false

section trace

theorem heldOf_snoc (s : Nat) (trace : List Act) (act : Act) : heldOf s (trace ++ [act]) = heldOf s trace ++ act.heldIn s := by
  simp [heldOf]

theorem leftOf_snoc (s : Nat) (trace : List Act) (act : Act) : leftOf s (trace ++ [act]) = leftOf s trace ++ act.leftIn s := by
  simp [leftOf]

theorem silent_held {act : Act} (silent : act.silent = true) : act.heldIn s = [] ∧ act.leftIn s = [] := by
  cases act with
  | held | purged | moved | freed => cases silent
  | addbaRequest | flagged | numbered => exact ⟨rfl,rfl⟩

theorem silent_handed (silent : act.silent = true) : Handed trace act := by
  cases act with
  | held | purged | moved | freed => cases silent
  | addbaRequest => trivial
  | flagged => trivial
  | numbered => trivial

end trace

section ledger
variable {w : World} {sec : Section}

@[simp] theorem setState_pending (w : World) (s : Nat) (state : AggTx.State) (t : Nat) :
    ((w.setState s state).sessions t).pending = (w.sessions t).pending := by
  unfold World.setState World.setSession
  dsimp only
  split
  · next same => rw [same]
  · rfl

section
variable (state : AggTx.State) (same : state.wantStart = (w.sessions s).state.wantStart)
include same

theorem setState_wantStart (t : Nat) :
    ((w.setState s state).sessions t).state.wantStart = (w.sessions t).state.wantStart := by
  unfold World.setState World.setSession
  dsimp only
  split
  · next equal => rw [equal,← same]
  · rfl

theorem ledger_setState : (w.setState s state).ledger = w.ledger := by
  unfold World.ledger
  congr 1
  · exact funext fun t => setState_pending w s state t
  · exact funext fun t => setState_wantStart state same t

end

def Section.calm : Section → Bool
  | .clearWantStart _ => false
  | .move _ => false
  | .assign _ => false
  | .wake _ => false
  | _ => true

def Ledger.Calm (l : Ledger) : Prop := ∀ sec, l.mtx = some sec → sec.calm = true

theorem calm_handing (calm : ∀ sec, mtx = some sec → sec.calm = true) : handing mtx = 0 := by
  cases mtx with
  | none => rfl
  | some sec =>
    have quiet := calm sec rfl
    cases sec with
    | move | assign | wake => cases quiet
    | _ => rfl

theorem calm_started (kept : Kept l) (calm : l.Calm) (current : l.tidTx = some s) : l.wantStart s = false := by
  cases started : l.wantStart s with
  | false => rfl
  | true => cases calm _ (kept.want s current started)

theorem knows_same (tidTx : l'.tidTx = l.tidTx) (tidStartTx : l'.tidStartTx = l.tidStartTx)
    (allocated : l'.allocated = l.allocated) (pending : l'.pending = l.pending) (known : sec.Knows l) : sec.Knows l' := by
  obtain ⟨_,_,_,_,_,_,_,_,_⟩ := l'
  cases tidTx
  cases tidStartTx
  cases allocated
  cases pending
  cases sec with
  | wake h => cases h <;> exact known
  | _ => exact known

theorem calm_kept (kept : Kept l) (calm : l.Calm) (next : ∀ sec, mtx = some sec → sec.calm = true ∧ sec.Knows l) :
    Kept {l with mtx := mtx} := {kept with
  knows := fun sec held => knows_same rfl rfl rfl rfl (next sec held).2
  want := fun s current started => by
    rw [calm_started kept calm current] at started
    cases started
  count := by
    rw [kept.count,calm_handing calm,calm_handing fun sec held => (next sec held).1]}

theorem goTo_kept (kept : Kept w.ledger) (calm : w.ledger.Calm) (next : sec.calm = true) (knows : sec.Knows w.ledger) :
    Kept (w.goTo sec).ledger :=
  calm_kept kept calm fun _ held => by
    cases held
    exact ⟨next,knows⟩

theorem unlock_kept (kept : Kept w.ledger) (calm : w.ledger.Calm) : Kept w.unlock.ledger :=
  calm_kept kept calm fun _ held => by cases held

theorem silent_kept (kept : Kept l) (acts : List Act) (silent : ∀ act ∈ acts, act.silent = true) :
    Kept {l with trace := l.trace ++ acts} := by
  induction acts generalizing l with
  | nil =>
    have same : l.trace ++ [] = l.trace := append_nil _
    rw [same]
    exact kept
  | cons act acts ih =>
    have quiet := silent act List.mem_cons_self
    have one : Kept {l with trace := l.trace ++ [act]} := {kept with
      knows := fun sec held => knows_same rfl rfl rfl rfl (kept.knows sec held)
      flow := fun s => by
        rw [leftOf_snoc,heldOf_snoc,(silent_held quiet).1,(silent_held quiet).2,append_nil,append_nil]
        exact kept.flow s
      freed := fun s there => by
        rcases mem_append.mp there with before | now
        · exact kept.freed s before
        · cases mem_singleton.mp now
          cases quiet
      handed := history_snoc kept.handed (silent_handed quiet)}
    have rest := ih one fun act there => silent act (List.mem_cons_of_mem _ there)
    have same : l.trace ++ [act] ++ acts = l.trace ++ act :: acts := by simp
    rw [← same]
    exact rest

end ledger

section steps
variable {w : World}

theorem held_calm (held : w.mtx = some sec) (calm : sec.calm = true) : w.ledger.Calm := by
  intro _ same
  cases held.symm.trans same
  exact calm

section
variable (kept : Kept w.ledger)
include kept

theorem idle_gone (idle : w.tidTx = none) (s : Nat) : (w.sessions s).pending = [] := by
  refine kept.gone s fun current => ?_
  cases idle.symm.trans current

theorem setState_kept (state : AggTx.State) (same : state.wantStart = (w.sessions s).state.wantStart) :
    Kept (w.setState s state).ledger := by
  rw [ledger_setState state same]
  exact kept

theorem startTxBaSession_kept (unlocked : w.locked = false) (willing alloc : Bool) :
    Kept (w.startTxBaSession willing alloc).ledger := by
  unfold World.startTxBaSession
  split
  · exact kept
  next goes =>
  simp only [Bool.or_eq_true,Bool.not_eq_true',not_or,Bool.not_eq_false] at goes
  obtain ⟨⟨⟨_,current⟩,_⟩,_⟩ := goes
  have idle : w.tidTx = none := by simpa using current
  exact {kept with
    one := .inl idle
    live := fun s current => by cases idle.symm.trans current
    asked := fun s asked => by
      cases asked
      exact Nat.lt_succ_self _
    knows := fun sec held => by
      have known := kept.knows sec held
      cases sec with
      | assign => cases idle.symm.trans known.1
      | wake h =>
        have held : w.mtx = some (.wake h) := held
        unfold World.locked at unlocked
        rw [held] at unlocked
        cases unlocked
      | _ => exact known
    want := fun s current => by cases idle.symm.trans current
    gone := fun s other => by
      have before := kept.gone s other
      unfold World.ledger World.setSession
      dsimp only
      split
      · rfl
      · exact before
    flow := fun s => by
      have empty : (w.sessions s).pending = [] := idle_gone kept idle s
      have flow := kept.flow s
      rw [show w.ledger.pending s = [] from empty] at flow
      unfold World.ledger World.setSession
      dsimp only
      split
      · exact flow
      · rw [empty]
        exact flow
    freed := fun s there => by
      obtain ⟨before,other,_⟩ := kept.freed s there
      refine ⟨Nat.lt_succ_of_lt before,other,fun equal => ?_⟩
      cases equal
      exact absurd before (lt_irrefl _)}

theorem stopTxBaSession_kept : Kept w.stopTxBaSession.ledger := by
  unfold World.stopTxBaSession
  split
  · exact kept
  · dsimp only
    split
    · exact kept
    · exact setState_kept kept _ rfl

theorem baSessionWork_kept (held : w.mtx = some .work) : Kept w.baSessionWork.ledger := by
  have calm := held_calm held rfl
  unfold World.baSessionWork
  split
  · exact goTo_kept kept calm rfl trivial
  · next start asked idle =>
    exact {kept with
      one := .inr rfl
      live := fun s current => kept.asked s (asked.trans current)
      asked := fun s unasked => by cases unasked
      knows := fun sec same => by
        cases same
        rfl
      want := fun s current _ => by
        cases current
        rfl
      gone := fun s _ => idle_gone kept idle s
      count := by
        have count := kept.count
        rw [calm_handing calm] at count
        exact count
      freed := fun s there => by
        obtain ⟨before,_,other⟩ := kept.freed s there
        exact ⟨before,fun equal => other (asked.trans equal),fun equal => by cases equal⟩}
  · next start s asked current =>
    rcases kept.one with none | none
    · cases none.symm.trans current
    · cases none.symm.trans asked

theorem wantStop_kept (held : w.mtx = some .wantStop) : Kept w.wantStop.ledger := by
  have calm := held_calm held rfl
  unfold World.wantStop
  split
  · exact unlock_kept kept calm
  · dsimp only
    split
    · exact goTo_kept (setState_kept kept _ rfl) calm rfl trivial
    · exact unlock_kept kept calm

theorem clearWantStart_kept (held : w.mtx = some (.clearWantStart s)) (before : Nat) :
    Kept ((w.setState s {(w.sessions s).state with wantStart := false}).goTo (.startSync s before)).ledger := by
  have current : w.tidTx = some s := kept.knows _ held
  have pending : ∀ t, ((w.setState s {(w.sessions s).state with wantStart := false}).sessions t).pending = (w.sessions t).pending :=
    fun t => setState_pending w s _ t
  exact {kept with
    knows := fun sec same => by
      cases same
      exact current
    want := fun t now started => by
      have same : t = s := Option.some.inj (now.symm.trans current)
      subst same
      unfold World.ledger World.goTo World.setState World.setSession at started
      simp at started
    gone := fun t other => (pending t).trans (kept.gone t other)
    count := by
      have count := kept.count
      rw [show w.ledger.mtx = _ from held] at count
      exact count
    flow := fun t => (congrArg (leftOf t w.trace ++ ·) (pending t)).trans (kept.flow t)}

section
variable (calm : w.ledger.Calm)
include calm

theorem stop_kept : Kept w.stop.ledger := by
  unfold World.stop
  split
  · exact unlock_kept kept calm
  next s current =>
  dsimp only
  split
  · exact unlock_kept kept calm
  · split
    · next started =>
      -- A session has WANT_START only within the section that starts it.
      have off := calm_started kept calm current
      cases off.symm.trans started
    · exact goTo_kept (setState_kept kept _ rfl) calm rfl current

theorem startTxBaCb_kept : Kept w.startTxBaCb.ledger := by
  unfold World.startTxBaCb
  split
  · exact unlock_kept kept calm
  · next s current =>
    dsimp only
    split
    · exact unlock_kept kept calm
    · exact goTo_kept (setState_kept kept _ rfl) calm rfl current

theorem addbaResp_kept (dialogToken : UInt8) (success : Bool) : Kept (w.addbaResp dialogToken success).ledger := by
  unfold World.addbaResp
  split
  · exact unlock_kept kept calm
  · next s current =>
    split
    · exact unlock_kept kept calm
    · exact goTo_kept kept calm rfl current

theorem addbaStatus_kept (current : w.tidTx = some s) (success : Bool) : Kept (w.addbaStatus s success).ledger := by
  unfold World.addbaStatus
  dsimp only
  split
  · exact unlock_kept kept calm
  · split
    · exact goTo_kept kept calm rfl trivial
    · split
      · exact unlock_kept kept calm
      · exact goTo_kept (setState_kept kept _ rfl) calm rfl current

theorem splice_kept (current : w.tidTx = some h.session) : Kept (w.stopQueueAgg.goTo (.move h)).ledger := {kept with
  knows := fun sec same => by
    cases same
    exact current
  want := fun s now started => by cases (calm_started kept calm now).symm.trans started
  count := by
    have count := kept.count
    rw [calm_handing calm] at count
    have same : w.aggQueueStop = w.others + (0 : Nat) := count
    show w.aggQueueStop + 1 = w.others + (1 : Nat)
    omega}

theorem stopTxBaCb_kept : Kept w.stopTxBaCb.ledger := by
  unfold World.stopTxBaCb
  split
  · exact unlock_kept kept calm
  · next s current =>
    split
    · exact unlock_kept kept calm
    · exact splice_kept (h := .removed s) kept calm current

end

end

theorem moveFrames_pending (w : World) (s t : Nat) :
    ((w.moveFrames s).sessions t).pending = if t = s then [] else (w.sessions t).pending := by
  unfold World.moveFrames World.act World.setSession
  dsimp only
  split
  · rfl
  · rfl

theorem moveFrames_wantStart (w : World) (s t : Nat) :
    ((w.moveFrames s).sessions t).state.wantStart = (w.sessions t).state.wantStart := by
  unfold World.moveFrames World.act World.setSession
  dsimp only
  split
  · next same => rw [same]
  · rfl

section
variable (kept : Kept w.ledger)
include kept

theorem move_kept (held : w.mtx = some (.move h)) : Kept ((w.moveFrames h.session).goTo (.assign h)).ledger := {kept with
  knows := fun sec same => by
    cases same
    exact ⟨kept.knows _ held,(moveFrames_pending w h.session h.session).trans (if_pos rfl)⟩
  want := fun s current started => by
    have before := kept.want s current ((moveFrames_wantStart w h.session s).symm.trans started)
    cases held.symm.trans before
  gone := fun s other => by
    refine (moveFrames_pending w h.session s).trans ?_
    split
    · rfl
    · exact kept.gone s other
  count := by
    have count := kept.count
    rw [show w.ledger.mtx = _ from held] at count
    exact count
  flow := fun s => by
    show leftOf s (w.trace ++ [_]) ++ ((w.moveFrames h.session).sessions s).pending = heldOf s (w.trace ++ [_])
    rw [moveFrames_pending,leftOf_snoc,heldOf_snoc]
    have flow : leftOf s w.trace ++ (w.sessions s).pending = heldOf s w.trace := kept.flow s
    unfold Act.leftIn Act.heldIn
    dsimp only
    by_cases same : s = h.session
    · rw [if_pos same,if_pos same.symm,append_nil,append_nil,← same]
      exact flow
    · rw [if_neg same,if_neg (Ne.symm same),append_nil,append_nil]
      exact flow
  freed := fun s there => by
    rcases mem_append.mp there with before | now
    · exact kept.freed s before
    · cases mem_singleton.mp now
  handed := history_snoc kept.handed (kept.flow h.session)}

theorem assign_kept (held : w.mtx = some (.assign h)) : Kept ((w.assign h).goTo (.wake h)).ledger := by
  obtain ⟨current,empty⟩ := kept.knows _ held
  have count := kept.count
  rw [show w.ledger.mtx = _ from held] at count
  have started : ∀ s, w.tidTx = some s → (w.sessions s).state.wantStart = true → False := fun s there want => by
    cases held.symm.trans (kept.want s there want)
  have result : ∀ last : Handover, last.session = h.session → (Section.wake last).Knows {w.ledger with tidTx := none,mtx := some (.wake last)} →
      Kept {w.ledger with tidTx := none,mtx := some (.wake last)} := fun last same known => {kept with
    one := .inl rfl
    live := fun s there => by cases there
    knows := fun sec same => by
      cases same
      exact known
    want := fun s there => by cases there
    gone := fun s _ => by
      by_cases equal : s = h.session
      · rw [equal]
        exact empty
      · exact kept.gone s fun there => equal (Option.some.inj (there.symm.trans current))
    count := count
    freed := fun s there => by
      obtain ⟨before,_,other⟩ := kept.freed s there
      exact ⟨before,fun equal => (by cases equal),other⟩}
  have free : w.tidStartTx = none := kept.one.resolve_left fun none => by cases none.symm.trans current
  cases h with
  | refused s => exact result (.refused s) rfl ⟨rfl,free,kept.live s current⟩
  | removed s => exact result (.removed s) rfl ⟨rfl,free,kept.live s current⟩
  | operational s =>
    have same : ({(w.sessions s).state with operational := true} : AggTx.State).wantStart = (w.sessions s).state.wantStart := rfl
    have still := setState_kept kept {(w.sessions s).state with operational := true} same
    exact {still with
      knows := fun sec same => by
        cases same
        exact current
      want := fun t there want => by
        exact (started t there ((setState_wantStart _ same t).symm.trans want)).elim
      count := count}

theorem freed_kept (held : w.mtx = some (.wake h)) (idle : w.tidTx = none) (free : w.tidStartTx = none)
    (before : h.session < w.allocated) : Kept (w.wakeQueueAgg.act [.freed h.session]).unlock.ledger := {kept with
  one := .inl idle
  knows := fun sec same => by cases same
  want := fun s current => by cases idle.symm.trans current
  count := by
    have count := kept.count
    rw [show w.ledger.mtx = _ from held] at count
    have same : w.aggQueueStop = w.others + (1 : Nat) := count
    show w.aggQueueStop - 1 = w.others + (0 : Nat)
    omega
  flow := fun s => by
    show leftOf s (w.trace ++ [_]) ++ _ = heldOf s (w.trace ++ [_])
    rw [leftOf_snoc,heldOf_snoc]
    unfold Act.leftIn Act.heldIn
    rw [append_nil,append_nil]
    exact kept.flow s
  freed := fun s there => by
    rcases mem_append.mp there with early | now
    · exact kept.freed s early
    · cases mem_singleton.mp now
      exact ⟨before,fun equal => (by cases idle.symm.trans equal),fun equal => (by cases free.symm.trans equal)⟩
  handed := by
    refine history_snoc kept.handed ?_
    have flow : leftOf h.session w.trace ++ (w.sessions h.session).pending = heldOf h.session w.trace := kept.flow h.session
    rw [idle_gone kept idle,append_nil] at flow
    exact flow}

theorem finish_kept (held : w.mtx = some (.wake h)) : Kept (w.finish h).unlock.ledger := by
  have known := kept.knows _ held
  cases h with
  | refused | removed => exact freed_kept kept held known.1 known.2.1 known.2.2
  | operational =>
    exact {kept with
      knows := fun sec same => by cases same
      want := fun t current want => by cases held.symm.trans (kept.want t current want)
      count := by
        have count := kept.count
        rw [show w.ledger.mtx = _ from held] at count
        have same : w.aggQueueStop = w.others + (1 : Nat) := count
        show w.aggQueueStop - 1 = w.others + (0 : Nat)
        omega}

theorem goOn_kept (held : w.mtx = some sec) (good : Bool) (ran : w.goOn good sec = some w') : Kept w'.ledger := by
  have known := kept.knows sec held
  have calm := held_calm held
  cases sec with
  | work =>
    cases ran
    exact baSessionWork_kept kept held
  | wantStop =>
    cases ran
    exact wantStop_kept kept held
  | clearWantStart =>
    cases ran
    exact clearWantStart_kept kept held w.begun
  | startSync | stopSync =>
    obtain ⟨_,result⟩ := Option.ite_none_right_eq_some.mp ran
    cases result
    exact goTo_kept kept (calm rfl) rfl known
  | startSeq | drvOperational =>
    cases ran
    exact goTo_kept kept (calm rfl) rfl known
  | startDrv =>
    cases ran
    split <;> exact goTo_kept kept (calm rfl) rfl known
  | addbaRequest s startSeqNum =>
    cases ran
    split
    · have asked : Kept (w.act [.addbaRequest s (w.sessions s).dialogToken startSeqNum]).ledger :=
        silent_kept kept [_] fun act there => by
          cases mem_singleton.mp there
          rfl
      exact unlock_kept asked (calm rfl)
    · exact unlock_kept kept (calm rfl)
  | stop =>
    cases ran
    exact stop_kept kept (calm rfl)
  | stopClear =>
    cases ran
    exact goTo_kept (setState_kept kept _ rfl) (calm rfl) rfl known
  | stopDrv =>
    cases ran
    exact unlock_kept kept (calm rfl)
  | startCb =>
    cases ran
    exact startTxBaCb_kept kept (calm rfl)
  | startCbReady | addbaReady =>
    cases ran
    split
    · exact goTo_kept kept (calm rfl) rfl known
    · exact unlock_kept kept (calm rfl)
  | addbaResp dialogToken success =>
    cases ran
    exact addbaResp_kept kept (calm rfl) dialogToken success
  | addbaStatus s success =>
    cases ran
    exact addbaStatus_kept kept (calm rfl) known success
  | stopCb =>
    cases ran
    exact stopTxBaCb_kept kept (calm rfl)
  | splice =>
    cases ran
    exact splice_kept kept (calm rfl) known
  | move =>
    cases ran
    exact move_kept kept held
  | assign =>
    cases ran
    exact assign_kept kept held
  | wake =>
    cases ran
    exact finish_kept kept held

theorem flag_kept (k : Nat) (p : Path) (s : Nat) : Kept (w.flag k p s).ledger :=
  silent_kept kept [_] fun act there => by
    cases mem_singleton.mp there
    rfl

end

-- One frame more or less in the pending queue of the session that is set up.
theorem queued_kept (kept : Kept l) (current : l.tidTx = some s) (calm : ∀ h, l.mtx ≠ some (.assign h)) (skbs : List Skb) (act : Act)
    (about : ∀ t, act.leftIn t ++ (if t = s then skbs else l.pending t) = l.pending t ++ act.heldIn t) (live : ∀ t, act ≠ .freed t)
    (meets : Handed l.trace act) : Kept {l with
      pending := fun t => if t = s then skbs else l.pending t,
      trace := l.trace ++ [act]} := {kept with
  knows := fun sec held => by
    have known := kept.knows sec held
    cases sec with
    | assign h => exact (calm h held).elim
    | wake h => cases h <;> exact known
    | _ => exact known
  gone := fun t other => by
    have different : t ≠ s := fun same => other (same ▸ current)
    exact (if_neg different).trans (kept.gone t other)
  flow := fun t => by
    show leftOf t (l.trace ++ [_]) ++ ite _ _ _ = heldOf t (l.trace ++ [_])
    rw [leftOf_snoc,heldOf_snoc,List.append_assoc,about,← List.append_assoc,kept.flow]
  freed := fun t there => by
    rcases mem_append.mp there with before | now
    · exact kept.freed t before
    · exact (live t (mem_singleton.mp now).symm).elim
  handed := history_snoc kept.handed meets}

theorem held_kept (kept : Kept l) (current : l.tidTx = some s) (calm : ∀ h, l.mtx ≠ some (.assign h)) (skb : Skb) :
    Kept {l with
      pending := fun t => if t = s then l.pending s ++ [skb] else l.pending t,
      trace := l.trace ++ [.held s skb]} := by
  refine queued_kept kept current calm _ (.held s skb) (fun t => ?_) nofun fun there => (kept.freed s there).2.1 current
  by_cases same : t = s
  · subst same
    simp [Act.leftIn,Act.heldIn]
  · simp [Act.leftIn,Act.heldIn,same,Ne.symm same]

theorem purged_kept (kept : Kept l) (current : l.tidTx = some s)
    (waits : l.pending s = oldest :: rest) (long : staMaxTxBuffer ≤ rest.length) (calm : ∀ h, l.mtx ≠ some (.assign h)) :
    Kept {l with
      pending := fun t => if t = s then rest else l.pending t,
      trace := l.trace ++ [.purged s oldest]} := by
  have flow := kept.flow s
  rw [waits] at flow
  refine queued_kept kept current calm rest (.purged s oldest) (fun t => ?_) nofun ⟨rest,long,flow⟩
  by_cases same : t = s
  · subst same
    simp [Act.leftIn,Act.heldIn,waits]
  · simp [Act.leftIn,Act.heldIn,same,Ne.symm same]

theorem ledger_setSession (w : World) (s : Nat) (pending : List Skb) :
    (w.setSession s {w.sessions s with pending := pending}).ledger =
      {w.ledger with pending := fun t => if t = s then pending else (w.sessions t).pending} := by
  unfold World.ledger World.setSession
  congr 1
  · funext t
    dsimp only
    split
    · rfl
    · rfl
  · funext t
    dsimp only
    split
    · next same => rw [same]
    · rfl

section
variable (kept : Kept w.ledger)
include kept

theorem hold_kept (unlocked : w.locked = false) (current : w.tidTx = some s) (skb : Skb) : Kept (w.hold s skb).ledger := by
  have calm : ∀ h, w.mtx ≠ some (.assign h) := fun h there => by
    unfold World.locked at unlocked
    rw [there] at unlocked
    cases unlocked
  have held := held_kept kept current calm skb
  unfold World.hold
  dsimp only
  split
  · next empty => simp at empty
  next oldest rest waits =>
  have same := ledger_setSession (w.act [.held s skb]) s (oldest :: rest)
  rw [show w.ledger.pending s ++ [skb] = _ from waits] at held
  split
  · next long =>
    have short : staMaxTxBuffer ≤ rest.length := Nat.le_of_lt_succ long
    have purged := purged_kept held current (if_pos rfl) short calm
    have less := ledger_setSession (w.act [.held s skb]) s rest
    have equal : (((w.act [.held s skb]).setSession s {(w.act [.held s skb]).sessions s with pending := rest}).act
        [.purged s oldest]).ledger = {(w.act [.held s skb]).ledger with
          pending := fun t => if t = s then rest else (w.sessions t).pending,
          trace := (w.act [.held s skb]).trace ++ [.purged s oldest]} :=
      congrArg (fun l : Ledger => {l with trace := l.trace ++ [Act.purged s oldest]}) less
    refine Eq.mpr (congrArg Kept equal) ?_
    have merged : (fun t => if t = s then rest else if t = s then oldest :: rest else (w.sessions t).pending) =
        fun t => if t = s then rest else (w.sessions t).pending := by
      funext t
      split
      · rfl
      · rfl
    exact merged ▸ purged
  · exact Eq.mpr (congrArg Kept same) held

theorem recheck_kept (unlocked : w.locked = false) (k : Nat) (p : Path) : Kept (w.recheck k p).ledger := by
  unfold World.recheck
  split
  · exact kept
  · next s current =>
    split
    · exact flag_kept kept k p s
    · exact hold_kept (w := w.leave k) kept unlocked current p.skb.queued

theorem sequence_kept (k : Nat) (p : Path) (flagged : Option Nat) : Kept (w.sequence k p flagged).ledger := by
  refine silent_kept kept _ fun act there => ?_
  obtain ⟨s,_,rfl⟩ := List.mem_map.mp there
  rfl

theorem txFrags_kept (k : Nat) (p : Path) : Kept (w.txFrags k p).ledger := by
  unfold World.txFrags
  split
  · split
    · exact kept
    · exact kept
  · exact kept

theorem path_kept (k : Nat) (fate : Fate) (p : Path) (ran : w.path k fate p = some w') : Kept w'.ledger := by
  unfold World.path at ran
  split at ran
  · cases ran
    exact kept
  · cases ran
    split
    · exact flag_kept kept k p _
    · exact kept
  · cases ran
    exact kept
  · split at ran
    · cases ran
    · next unlocked =>
      cases ran
      exact recheck_kept kept (Bool.eq_false_of_not_eq_true unlocked) k p
  · split at ran
    · cases ran
      exact sequence_kept kept k p _
    · cases ran
      exact kept
    · cases ran
      exact kept
  · cases ran
    exact kept
  · cases ran
    split
    · exact kept
    · exact kept
  · cases ran
    exact txFrags_kept kept k p

theorem enter_kept (ran : w.enter sec = some w') (next : sec.calm = true) (knows : sec.Knows w.ledger) : Kept w'.ledger := by
  unfold World.enter at ran
  split at ran
  · cases ran
  · next idle =>
    cases ran
    have none : w.mtx = none := by simpa using idle
    exact goTo_kept kept (fun other held => by cases none.symm.trans held) next knows

end

theorem other_kept {others : Nat} (kept : Kept l) (same : count - others = l.aggQueueStop - l.others) :
    Kept {l with aggQueueStop := count,others := others} := {kept with
  knows := fun sec held => knows_same rfl rfl rfl rfl (kept.knows sec held)
  count := by
    have before := kept.count
    show count = others + handing l.mtx
    omega}

theorem txPending_kept (kept : Kept w.ledger) (ran : w.txPending = some w') : Kept w'.ledger := by
  unfold World.txPending at ran
  split at ran
  · cases ran
  · split at ran
    · cases ran
      exact kept
    · cases ran
      exact kept

theorem handleFiltered_kept (kept : Kept w.ledger) (skb : Skb) (asleep : Bool) : Kept (w.handleFiltered skb asleep).ledger := by
  unfold World.handleFiltered
  split
  · exact kept
  · split
    · exact kept
    · exact kept

theorem deliverResponse_kept (kept : Kept w.ledger) : Kept w.deliverResponse.ledger := by
  unfold World.deliverResponse
  split
  · exact kept
  · exact kept
  · exact kept

theorem step_kept (kept : Kept w.ledger) (e : Event) (ran : step e w = some w') : Kept w'.ledger := by
  cases e with
  | startTxBaSession willing alloc =>
    obtain ⟨unlocked,result⟩ := Option.ite_none_left_eq_some.mp ran
    cases result
    exact startTxBaSession_kept kept (Bool.eq_false_of_not_eq_true unlocked) willing alloc
  | stopTxBaSession =>
    obtain ⟨_,result⟩ := Option.ite_none_left_eq_some.mp ran
    cases result
    exact stopTxBaSession_kept kept
  | work | stop | startCb | stopCb | addbaResp => exact enter_kept kept ran rfl trivial
  | goOn good =>
    obtain ⟨_,held,ran⟩ := Option.bind_eq_some_iff.mp ran
    exact goOn_kept kept held good ran
  | xmit | deliverWakeup | stopQueue =>
    cases ran
    exact kept
  | path k fate =>
    obtain ⟨p,_,ran⟩ := Option.bind_eq_some_iff.mp ran
    exact path_kept kept k fate p ran
  | tasklet =>
    obtain ⟨_,result⟩ := Option.ite_none_left_eq_some.mp ran
    cases result
    exact kept
  | txPending => exact txPending_kept kept ran
  | filtered k asleep =>
    obtain ⟨skb,_,rfl⟩ := Option.map_eq_some_iff.mp ran
    exact handleFiltered_kept (w := {w with driver := w.driver.eraseIdx k}) kept skb asleep
  | deliverResponse =>
    cases ran
    exact deliverResponse_kept kept
  | otherSplices =>
    cases ran
    refine other_kept kept ?_
    show w.aggQueueStop + 1 - (w.others + 1 : Nat) = w.aggQueueStop - w.others
    omega
  | otherFinishes =>
    obtain ⟨_,result⟩ := Option.ite_none_left_eq_some.mp ran
    cases result
    refine other_kept kept ?_
    show w.aggQueueStop - 1 - (w.others - 1 : Nat) = w.aggQueueStop - w.others
    omega

theorem initial_kept (initial : w.Initial) : Kept w.ledger where
  one := .inl initial.tidTx
  live := fun s current => by cases initial.tidTx.symm.trans current
  asked := fun s asked => by cases initial.tidStartTx.symm.trans asked
  knows := fun sec held => by cases initial.mtx.symm.trans held
  want := fun s current => by cases initial.tidTx.symm.trans current
  gone := fun s _ => initial.pending s
  count := by
    show w.aggQueueStop = w.others + handing w.mtx
    rw [initial.mtx,initial.aggQueueStop]
    rfl
  flow := fun s => by
    show leftOf s w.trace ++ (w.sessions s).pending = heldOf s w.trace
    rw [initial.trace,initial.pending]
    rfl
  freed := fun s there => by
    have there : .freed s ∈ w.trace := there
    rw [initial.trace] at there
    cases there
  handed := by
    show History Handed w.trace
    rw [initial.trace]
    exact history_nil _

theorem run_kept (initial : start.Initial) (run : Run fine start w) : Kept w.ledger := by
  induction run with
  | refl => exact initial_kept initial
  | step prior _ ran ih => exact step_kept ih _ ran

end steps

end Mac80211.AggHandover

import Mac80211.AggTxState
import Mac80211.Transitions

namespace Mac80211.AggTx

open Function (update update_of_ne update_self)
open Option (any_eq_true getD_none map_eq_some_iff any_some bind_some)

def Section.knows (tid : TidNum) (c : Core) : Section → Prop
  | .startCbReady t => t = tid → c.drvReady = true
  | .addbaReady t => t = tid → c.responseReceived = true
  | .operational t _ => t = tid → c.drvReady = true ∧ c.responseReceived = true
  | _ => True

-- The session is not being stopped where the holder goes on to make it operational.
def Section.rests (tid : TidNum) (c : Core) : Section → Prop
  | .startCbReady t => t = tid → c.responseReceived = true → c.stopping = false
  | .addbaReady t => t = tid → c.stopping = false
  | .operational t _ => t = tid → c.stopping = false
  | _ => True

-- OPERATIONAL needs the driver and the peer; a session that is to be started is new.
structure Sound (m : Machine) : Prop where
  ready : ∀ tid c, m.core tid = some c → c.operational = true → c.drvReady = true ∧ c.responseReceived = true
  knows : ∀ s tid c, m.mtx = some s → m.core tid = some c → s.knows tid c
  start : ∀ tid c, m.start tid = some c → m.core tid = none ∧ c = newCore c.id ∧ c.id < m.allocated
  live : ∀ tid c, m.core tid = some c → c.id < m.allocated

structure Settled (m : Machine) : Prop where
  off : ∀ tid c, m.core tid = some c → c.stopping = true → c.operational = false ∨ ∃ s, m.mtx = some s ∧ s.clears tid
  rests : ∀ s tid c, m.mtx = some s → m.core tid = some c → s.rests tid c

-- The session is being stopped, and the peer has accepted it.
def Machine.Late (m : Machine) : Prop :=
  ∃ tid c, m.mtx = some (.startCb tid) ∧ m.core tid = some c ∧ c.stopping = true ∧ c.responseReceived = true ∧
    c.drvReady = false

section machine
variable {m m' : Machine} {s : Section}

theorem update_some (core : m'.core = update m.core tid (some c')) (there : m'.core other = some c) :
    other = tid ∧ c = c' ∨ other ≠ tid ∧ m.core other = some c := by
  rw [core] at there
  by_cases same : other = tid
  · subst same
    rw [update_self] at there
    exact .inl ⟨rfl,(Option.some.inj there).symm⟩
  · rw [update_of_ne same] at there
    exact .inr ⟨same,there⟩

theorem update_none (core : m'.core = update m.core tid none) (there : m'.core other = some c) : m.core other = some c := by
  rw [core] at there
  by_cases same : other = tid
  · subst same
    rw [update_self] at there
    cases there
  · rwa [update_of_ne same] at there

theorem plain_knows (plain : s.plain) : s.knows tid c := by
  cases s <;> trivial

theorem plain_rests (plain : s.plain) : s.rests tid c := by
  cases s <;> trivial

theorem clears_knows (clears : s.clears other) : s.knows tid c := by
  cases s <;> trivial

theorem clears_rests (clears : s.clears other) : s.rests tid c := by
  cases s <;> trivial

theorem ready_update (sound : Sound m) (core : m'.core = update m.core tid (some c'))
    (changed : c'.operational = true → c'.drvReady = true ∧ c'.responseReceived = true) :
    ∀ other c, m'.core other = some c → c.operational = true → c.drvReady = true ∧ c.responseReceived = true := by
  intro other c there on
  rcases update_some core there with ⟨_,rfl⟩ | ⟨_,old⟩
  · exact changed on
  · exact sound.ready other c old on

theorem moves_ready (sound : Sound m) (moves : Moves m m') : ∀ other c, m'.core other = some c → c.operational = true →
    c.drvReady = true ∧ c.responseReceived = true := by
  have same : m'.core = m.core → ∀ other c, m'.core other = some c → c.operational = true →
      c.drvReady = true ∧ c.responseReceived = true := by
    intro core other c there
    rw [core] at there
    exact sound.ready other c there
  cases moves with
  | still core mtx | moved core free plain | clearing tid core s s' mtx mtx' clears clears'
  | agreed tid c there core => exact same core
  | removed tid core => exact fun other c there => sound.ready other c (update_none core there)
  | stopping tid c there core => exact ready_update sound core (sound.ready tid c there)
  | cleared tid c there core => exact ready_update sound core fun on => by cases on
  | ready tid c there first core =>
    exact ready_update sound core fun on => ⟨rfl,(sound.ready tid c there on).2⟩
  | response tid c there going core =>
    exact ready_update sound core fun on => ⟨(sound.ready tid c there on).1,rfl⟩
  | operational tid c there core addba mtx =>
    exact ready_update sound core fun _ => sound.knows _ tid c mtx there rfl

theorem moves_knows (sound : Sound m) (moves : Moves m m') : ∀ s other c, m'.mtx = some s → m'.core other = some c →
    s.knows other c := by
  intro s other c held there
  cases moves with
  | still core mtx =>
    rw [core] at there
    rw [mtx] at held
    exact sound.knows s other c held there
  | moved core free plain | removed tid core free plain | cleared tid c there core s' mtx clears plain
  | operational tid c there core addba mtx plain => exact plain_knows (plain s held)
  | stopping tid c there core free s' mtx clears =>
    cases Option.some.inj (held.symm.trans mtx)
    exact clears_knows clears
  | clearing tid core s s' mtx mtx' clears clears' =>
    cases Option.some.inj (held.symm.trans mtx')
    exact clears_knows clears'
  | ready tid c' there' first core mtx mtx' | response tid c' there' going core free mtx' =>
    cases Option.some.inj (held.symm.trans mtx')
    rintro rfl
    rcases update_some core there with ⟨_,rfl⟩ | ⟨apart,_⟩
    · rfl
    · exact absurd rfl apart
  | agreed tid c' there' core mtx addba mtx' =>
    cases Option.some.inj (held.symm.trans mtx')
    rintro rfl
    rw [core,there'] at there
    cases there
    rcases mtx with ⟨holder,received⟩ | ⟨holder,ready⟩
    · exact ⟨sound.knows _ tid _ holder there' rfl,received⟩
    · exact ⟨ready,sound.knows _ tid _ holder there' rfl⟩

theorem moves_origin (moves : Moves m m') (there : m'.core other = some c) : ∃ c', m.core other = some c' ∧ c.id = c'.id := by
  have same : m'.core = m.core → ∃ c', m.core other = some c' ∧ c.id = c'.id := by
    intro core
    rw [core] at there
    exact ⟨c,there,rfl⟩
  have changed : ∀ (tid : TidNum) (old new : Core), m'.core = update m.core tid (some new) →
      m.core tid = some old → new.id = old.id → ∃ c', m.core other = some c' ∧ c.id = c'.id := by
    intro tid old _ core before id
    rcases update_some core there with ⟨rfl,rfl⟩ | ⟨_,kept⟩
    · exact ⟨old,before,id⟩
    · exact ⟨c,kept,rfl⟩
  cases moves with
  | still core mtx | moved core free plain | clearing tid core s s' mtx mtx' clears clears'
  | agreed tid c there core => exact same core
  | removed tid core => exact ⟨c,update_none core there,rfl⟩
  | stopping tid c there core free s mtx clears | cleared tid c there core s' mtx clears plain
  | ready tid c there first core mtx mtx' | response tid c there going core free mtx'
  | operational tid c there core => exact changed tid c _ core there rfl

theorem steps_sound (sound : Sound m) (steps : Steps m m') : Sound m' := by
  cases steps with
  | session start allocated moves =>
    refine ⟨moves_ready sound moves,moves_knows sound moves,?_,?_⟩
    · intro tid c there
      rw [start] at there
      rw [allocated]
      obtain ⟨idle,new,below⟩ := sound.start tid c there
      refine ⟨?_,new,below⟩
      cases after : m'.core tid with
      | none => rfl
      | some =>
        obtain ⟨_,before,_⟩ := moves_origin moves after
        cases idle.symm.trans before
    · intro tid c there
      obtain ⟨c',before,id⟩ := moves_origin moves there
      rw [id,allocated]
      exact sound.live tid c' before
  | asked tid idle free start allocated core mtx =>
    constructor
    · rw [core]
      exact sound.ready
    · rw [core,mtx]
      exact sound.knows
    · intro other c there
      rw [start] at there
      rw [core,allocated]
      by_cases same : other = tid
      · subst same
        rw [update_self] at there
        cases there
        exact ⟨idle,rfl,Nat.lt_succ_self _⟩
      · rw [update_of_ne same] at there
        obtain ⟨idle,new,below⟩ := sound.start other c there
        exact ⟨idle,new,Nat.lt_succ_of_lt below⟩
    · intro other c there
      rw [core] at there
      rw [allocated]
      exact Nat.lt_succ_of_lt (sound.live other c there)
  | launched tid c there start allocated core free plain =>
    obtain ⟨idle,new,below⟩ := sound.start tid c there
    rw [idle,getD_none] at core
    constructor
    · refine ready_update sound core ?_
      rw [new]
      intro on
      cases on
    · exact fun s _ _ held _ => plain_knows (plain s held)
    · intro other c' there'
      rw [start] at there'
      by_cases same : other = tid
      · subst same
        rw [update_self] at there'
        cases there'
      · rw [update_of_ne same] at there'
        rw [core,allocated,update_of_ne same]
        exact sound.start other c' there'
    · intro other c' there'
      rw [allocated]
      rcases update_some core there' with ⟨_,rfl⟩ | ⟨_,old⟩
      · exact below
      · exact sound.live other c' old

theorem off_free (settled : Settled m) (free : m.Free) (there : m.core tid = some c) (stops : c.stopping = true) :
    c.operational = false := by
  rcases settled.off tid c there stops with off | ⟨s,held,clears⟩
  · exact off
  · cases (free s tid held clears).symm.trans there

theorem free_section (held : m.mtx = some s) (keeps : ∀ tid, ¬ s.clears tid) : m.Free := by
  intro _ tid held' clears
  cases held.symm.trans held'
  exact absurd clears (keeps tid)

theorem clears_one (clears : s.clears tid) (also : s.clears other) : tid = other := by
  cases s with
  | stopAddbaTimer | stopSessionTimer | stopClear => exact clears.symm.trans also
  | _ => exact clears.elim

theorem moves_off (settled : Settled m) (moves : Moves m m') : ∀ other c, m'.core other = some c → c.stopping = true →
    c.operational = false ∨ ∃ s, m'.mtx = some s ∧ s.clears other := by
  intro other c there stops
  cases moves with
  | still core mtx =>
    rw [core] at there
    rw [mtx]
    exact settled.off other c there stops
  | moved core free =>
    rw [core] at there
    exact .inl (off_free settled free there stops)
  | removed tid core free => exact .inl (off_free settled free (update_none core there) stops)
  | stopping tid c' there' core free s mtx clears =>
    rcases update_some core there with ⟨rfl,_⟩ | ⟨_,old⟩
    · exact .inr ⟨s,mtx,clears⟩
    · exact .inl (off_free settled free old stops)
  | clearing tid core s s' mtx mtx' clears clears' =>
    rw [core] at there
    rcases settled.off other c there stops with off | ⟨_,held,also⟩
    · exact .inl off
    · cases mtx.symm.trans held
      cases clears_one clears also
      exact .inr ⟨s',mtx',clears'⟩
  | cleared tid c' there' core s' mtx clears =>
    rcases update_some core there with ⟨_,rfl⟩ | ⟨apart,old⟩
    · exact .inl rfl
    · rcases settled.off other c old stops with off | ⟨_,held,also⟩
      · exact .inl off
      · cases mtx.symm.trans held
        exact absurd (clears_one clears also).symm apart
  | ready tid c' there' first core mtx =>
    have free := free_section mtx fun _ clears => clears
    rcases update_some core there with ⟨_,rfl⟩ | ⟨_,old⟩
    · have off := off_free settled free there' stops
      exact .inl off
    · exact .inl (off_free settled free old stops)
  | response tid c' there' going core free =>
    rcases update_some core there with ⟨_,rfl⟩ | ⟨_,old⟩
    · have off := off_free settled free there' stops
      exact .inl off
    · exact .inl (off_free settled free old stops)
  | agreed tid c' there' core mtx =>
    rw [core] at there
    rcases mtx with ⟨mtx,_⟩ | ⟨mtx,_⟩ <;> exact .inl (off_free settled (free_section mtx fun _ clears => clears) there stops)
  | operational tid c' there' core addba mtx =>
    rcases update_some core there with ⟨_,rfl⟩ | ⟨_,old⟩
    · rw [settled.rests _ tid c' mtx there' rfl] at stops
      cases stops
    · exact .inl (off_free settled (free_section mtx fun _ clears => clears) old stops)

theorem moves_rests (settled : Settled m) (fair : m'.mtx ≠ m.mtx → ¬ m.Late) (moves : Moves m m') : ∀ s other c, m'.mtx = some s →
    m'.core other = some c → s.rests other c := by
  intro s other c held there
  cases moves with
  | still core mtx =>
    rw [core] at there
    rw [mtx] at held
    exact settled.rests s other c held there
  | moved core free plain | removed tid core free plain | cleared tid c there core s' mtx clears plain
  | operational tid c there core addba mtx plain => exact plain_rests (plain s held)
  | stopping tid c there core free s' mtx clears =>
    cases Option.some.inj (held.symm.trans mtx)
    exact clears_rests clears
  | clearing tid core s s' mtx mtx' clears clears' =>
    cases Option.some.inj (held.symm.trans mtx')
    exact clears_rests clears'
  | ready tid c' there' first core mtx mtx' =>
    cases Option.some.inj (held.symm.trans mtx')
    rintro rfl
    rcases update_some core there with ⟨_,rfl⟩ | ⟨apart,_⟩
    · intro received
      cases stops : c'.stopping with
      | false => rfl
      | true =>
        have changed : m'.mtx ≠ m.mtx := by
          rw [mtx,mtx']
          exact fun same => nomatch same
        exact absurd ⟨tid,c',mtx,there',stops,received,first⟩ (fair changed)
    · exact absurd rfl apart
  | response tid c' there' going core free mtx' =>
    cases Option.some.inj (held.symm.trans mtx')
    rintro rfl
    rcases update_some core there with ⟨_,rfl⟩ | ⟨apart,_⟩
    · exact going
    · exact absurd rfl apart
  | agreed tid c' there' core mtx addba mtx' =>
    cases Option.some.inj (held.symm.trans mtx')
    rintro rfl
    rw [core,there'] at there
    cases there
    rcases mtx with ⟨holder,received⟩ | ⟨holder,_⟩
    · exact settled.rests _ tid _ holder there' rfl received
    · exact settled.rests _ tid _ holder there' rfl

theorem steps_settled (sound : Sound m) (settled : Settled m) (fair : m'.mtx ≠ m.mtx → ¬ m.Late) (steps : Steps m m') :
    Settled m' := by
  cases steps with
  | session start allocated moves => exact ⟨moves_off settled moves,moves_rests settled fair moves⟩
  | asked tid idle free start allocated core mtx =>
    constructor
    · rw [core,mtx]
      exact settled.off
    · rw [core,mtx]
      exact settled.rests
  | launched tid c there start allocated core free plain =>
    obtain ⟨idle,new,_⟩ := sound.start tid c there
    rw [idle,getD_none] at core
    constructor
    · intro _ _ there' stops
      rcases update_some core there' with ⟨_,rfl⟩ | ⟨_,old⟩
      · rw [new] at stops
        cases stops
      · exact .inl (off_free settled free old stops)
    · exact fun s _ _ held _ => plain_rests (plain s held)

-- A session that was being stopped still is, or it is gone for good.
def Ended (tid : TidNum) (id : Nat) (m : Machine) : Prop :=
  id < m.allocated ∧ (∀ c, m.start tid = some c → c.id ≠ id) ∧
    ∀ c, m.core tid = some c → c.id = id → c.stopping = true ∧ c.operational = false

theorem moves_ended {id : Nat} (settled : Settled m) (moves : Moves m m')
    (ended : ∀ c, m.core other = some c → c.id = id → c.stopping = true ∧ c.operational = false) :
    ∀ c, m'.core other = some c → c.id = id → c.stopping = true ∧ c.operational = false := by
  intro c there same
  have kept : m'.core = m.core → c.stopping = true ∧ c.operational = false := fun core => ended c (core ▸ there) same
  cases moves with
  | still core mtx | moved core free plain | clearing tid core s s' mtx mtx' clears clears'
  | agreed tid c' there' core => exact kept core
  | removed tid core => exact ended c (update_none core there) same
  | stopping tid c' there' core =>
    rcases update_some core there with ⟨rfl,rfl⟩ | ⟨_,old⟩
    · exact ⟨rfl,(ended c' there' same).2⟩
    · exact ended c old same
  | cleared tid c' there' core =>
    rcases update_some core there with ⟨rfl,rfl⟩ | ⟨_,old⟩
    · exact ⟨(ended c' there' same).1,rfl⟩
    · exact ended c old same
  | ready tid c' there' first core | response tid c' there' going core =>
    rcases update_some core there with ⟨rfl,rfl⟩ | ⟨_,old⟩
    · exact ended c' there' same
    · exact ended c old same
  | operational tid c' there' core addba mtx =>
    rcases update_some core there with ⟨rfl,rfl⟩ | ⟨_,old⟩
    · have stops := (ended c' there' same).1
      rw [settled.rests _ other c' mtx there' rfl] at stops
      cases stops
    · exact ended c old same

theorem steps_ended {id : Nat} (sound : Sound m) (settled : Settled m) (steps : Steps m m') (ended : Ended other id m) :
    Ended other id m' := by
  obtain ⟨below,free,stopped⟩ := ended
  cases steps with
  | session start allocated moves =>
    refine ⟨allocated ▸ below,?_,moves_ended settled moves stopped⟩
    rw [start]
    exact free
  | asked tid idle _ start allocated core =>
    refine ⟨by omega,?_,?_⟩
    · intro c there
      rw [start] at there
      by_cases same : other = tid
      · subst same
        rw [update_self] at there
        cases there
        exact Nat.ne_of_gt below
      · rw [update_of_ne same] at there
        exact free c there
    · rw [core]
      exact stopped
  | launched tid c there start allocated core _ =>
    obtain ⟨idle,_,_⟩ := sound.start tid c there
    rw [idle,getD_none] at core
    refine ⟨allocated ▸ below,?_,?_⟩
    · intro c' there'
      rw [start] at there'
      by_cases same : other = tid
      · subst same
        rw [update_self] at there'
        cases there'
      · rw [update_of_ne same] at there'
        exact free c' there'
    · intro c' there' same
      rcases update_some core there' with ⟨rfl,rfl⟩ | ⟨_,old⟩
      · exact absurd same (free _ there)
      · exact stopped c' old same

end machine

section runs
variable {w : World}

def World.lateCallback (w : World) : Bool :=
  match w.mtx with
  | some (.startCb tid) =>
    (w.tidTx tid).any fun tx => tx.state.stopping && tx.state.responseReceived && !tx.state.drvReady
  | _ => false

theorem late_callback (late : w.machine.Late) : w.lateCallback = true := by
  obtain ⟨tid,c,mtx,there,stops,received,first⟩ := late
  obtain ⟨tx,live,rfl⟩ := map_eq_some_iff.mp there
  have held : w.mtx = some (.startCb tid) := mtx
  have stops' : tx.state.stopping = true := stops
  have received' : tx.state.responseReceived = true := received
  have first' : tx.state.drvReady = false := first
  simp [World.lateCallback,held,live,stops',received',first']

def Event.Fair (w : World) (e : Event) : Prop := ∀ accepted, e = .goOn accepted → w.lateCallback = false

inductive FairRun (start : World) : World → Prop where
  | refl : FairRun start start
  | step (prior : FairRun start before) (fair : Event.Fair before event) (ran : step event before = some after) :
    FairRun start after

theorem stopTxBaSession_mtx (w : World) (tid : UInt16) : (w.stopTxBaSession tid).1.mtx = w.mtx := by
  unfold World.stopTxBaSession World.stopTxBaTid
  repeat' split
  all_goals rfl

theorem step_mtx (held : w.mtx = some s) (ran : step e w = some w') : (∃ accepted, e = .goOn accepted) ∨ w'.mtx = w.mtx := by
  cases e with
  | goOn accepted => exact .inl ⟨accepted,rfl⟩
  | startTxBaSession =>
    cases ran
    refine .inr ?_
    unfold World.startTxBaSession World.startTxBaTid
    dsimp only
    repeat' split
    all_goals rfl
  | stopTxBaSession tid =>
    cases ran
    exact .inr (stopTxBaSession_mtx w tid)
  | startTxBaCbIrqsafe tid alloc | stopTxBaCbIrqsafe tid alloc =>
    cases ran
    cases alloc <;> exact .inr rfl
  | rxAddbaResp | rxDelba | tx | blockBa | reserve | tick =>
    cases ran
    exact .inr rfl
  | work =>
    simp only [step,World.baSessionWork,held] at ran
    split at ran
    · cases ran
    split at ran
    · cases ran
      exact .inr held.symm
    · cases ran
  | iface =>
    simp only [step,World.ifaceWork,held] at ran
    cases ran
  | stop =>
    simp only [step,held] at ran
    cases ran
  | addbaRespTimer =>
    simp only [step,World.timer] at ran
    split at ran
    · cases ran
    split at ran
    · cases ran
      unfold World.addbaRespTimerExpired
      split <;> exact .inr rfl
    · cases ran
  | sessionTimer =>
    simp only [step,World.timer] at ran
    split at ran
    · cases ran
    split at ran
    · cases ran
      unfold World.sessionTimerExpired
      refine .inr ?_
      split
      · rfl
      · split <;> rfl
    · cases ran
  | handler k =>
    obtain ⟨_,_,rfl⟩ := map_eq_some_iff.mp ran
    exact .inr (stopTxBaSession_mtx {w with handlers := w.handlers.eraseIdx k} _)

theorem step_fair (fair : Event.Fair w e) (ran : step e w = some w') : w'.machine.mtx ≠ w.machine.mtx → ¬ w.machine.Late := by
  intro changed late
  have on := late_callback late
  obtain ⟨_,c,mtx,_⟩ := late
  rcases step_mtx mtx ran with ⟨accepted,rfl⟩ | same
  · rw [fair accepted rfl] at on
    cases on
  · exact changed same

theorem initial_sound (initial : w.Initial) : Sound w.machine ∧ Settled w.machine := by
  obtain ⟨_,empty⟩ := initial
  have core : ∀ tid c, w.machine.core tid ≠ some c := by
    intro tid c there
    cases (core_missing (empty tid).1).symm.trans there
  have none : ∀ tid c, w.machine.start tid ≠ some c := by
    intro tid c there
    obtain ⟨_,found,_⟩ := map_eq_some_iff.mp there
    cases (empty tid).2.symm.trans found
  exact ⟨⟨fun tid c there => absurd there (core tid c),fun _ tid c _ there => absurd there (core tid c),
    fun tid c there => absurd there (none tid c),fun tid c there => absurd there (core tid c)⟩,
    ⟨fun tid c there => absurd there (core tid c),fun _ tid c _ there => absurd there (core tid c)⟩⟩

theorem reach_sound (reach : Reach start w) (initial : start.Initial) : Sound w.machine := by
  induction reach with
  | refl => exact (initial_sound initial).1
  | step prior ran ih => exact steps_sound ih (step_steps ran)

theorem fair_reach (fair : FairRun start w) : Reach start w := by
  induction fair with
  | refl => exact .refl
  | step prior fair ran ih => exact .step ih ran

theorem fair_settled (fair : FairRun start w) (initial : start.Initial) : Settled w.machine := by
  induction fair with
  | refl => exact (initial_sound initial).2
  | step prior fair ran ih =>
    exact steps_settled (reach_sound (fair_reach prior) initial) ih (step_fair fair ran) (step_steps ran)

theorem fair_trans (first : FairRun start w) (second : FairRun w w') : FairRun start w' := by
  induction second with
  | refl => exact first
  | step prior fair ran ih => exact .step ih fair ran

theorem fair_ended {id : Nat} (initial : start.Initial) (first : FairRun start w) (second : FairRun w w')
    (ended : Ended tid id w.machine) : Ended tid id w'.machine := by
  induction second with
  | refl => exact ended
  | step prior fair ran ih =>
    have fair' := fair_trans first prior
    exact steps_ended (reach_sound (fair_reach fair') initial) (fair_settled fair' initial) (step_steps ran) ih

theorem run_cons (e : Event) (rest : List Event) (w : World) : run (e :: rest) w = (step e w).bind (run rest) := rfl

theorem tidTx_assign (w : World) (tid : TidNum) (tx : Option TidAmpduTx) : (w.assignTidTx tid tx).tidTx tid = tx := by
  unfold World.tidTx World.assignTidTx
  rw [tid_setTid,if_pos rfl]

theorem callback_operational (accepted : Bool) (held : w.mtx = some (.startCb tid)) (there : w.tidTx tid = some tx)
    (stops : tx.state.stopping = true) (off : tx.state.operational = false) :
    ∃ n w' tx', run (List.replicate n (.goOn accepted)) w = some w' ∧ w'.mtx = none ∧ w'.tidTx tid = some tx' ∧
      tx'.state.stopping = true ∧ tx'.state.operational = w.lateCallback := by
  have late : w.lateCallback = (tx.state.responseReceived && !tx.state.drvReady) := by
    simp [World.lateCallback,held,there,stops]
  have goes : ∀ (w : World) (s : Section), w.mtx = some s → step (.goOn accepted) w = w.goOn accepted s := by
    intro w s held
    simp [step,held]
  cases ready : tx.state.drvReady with
  | true =>
    have first : w.goOn accepted (.startCb tid) = some w.unlock := by simp [World.goOn,World.startCb,there,ready]
    refine ⟨1,w.unlock,tx,?_,rfl,there,stops,?_⟩
    · rw [List.replicate_succ,run_cons,goes w _ held,first]
      rfl
    · rw [late,ready,off,Bool.not_true,Bool.and_false]
  | false =>
    have set : (w.startCb tid).tidTx tid = some {tx with state.drvReady := true} := by
      simp only [World.startCb,there,ready]
      exact tidTx_assign w tid _
    have second : (w.startCb tid).mtx = some (.startCbReady tid) := by
      simp only [World.startCb,there,ready]
      rfl
    cases received : tx.state.responseReceived with
    | false =>
      refine ⟨2,(w.startCb tid).unlock,{tx with state.drvReady := true},?_,rfl,set,stops,?_⟩
      · rw [List.replicate_succ,run_cons,goes w _ held,List.replicate_succ]
        simp only [World.goOn,bind_some,run_cons,goes _ _ second,set,any_some,received]
        rfl
      · rw [late,received,off,Bool.false_and]
    | true =>
      have third : ((w.startCb tid).goTo (.operational tid false)).mtx = some (.operational tid false) := rfl
      have live : ((w.startCb tid).goTo (.operational tid false)).tidTx tid = some {tx with state.drvReady := true} := set
      refine ⟨3,((w.startCb tid).goTo (.operational tid false)).operational tid false,
        {tx with state := {tx.state with drvReady := true,operational := true}},?_,?_,?_,stops,?_⟩
      · rw [List.replicate_succ,run_cons,goes w _ held,List.replicate_succ,List.replicate_succ]
        simp only [World.goOn,bind_some,run_cons,goes _ _ second,set,any_some,received,if_true,goes _ _ third]
        rfl
      · simp only [World.operational,live]
        rfl
      · simp only [World.operational,live]
        exact tidTx_assign _ tid _
      · rw [late,received,ready]
        rfl

theorem tx_agg_operational (initial : start.Initial) (reach : Reach start w) :
    (∀ tid tx, w.tidTx tid = some tx → tx.state.operational = true →
      tx.state.drvReady = true ∧ tx.state.responseReceived = true) ∧
    (FairRun start w → ∀ w', FairRun w w' → ∀ tid tx tx', w.tidTx tid = some tx → w'.tidTx tid = some tx' →
      tx'.id = tx.id → tx.state.stopping = true → tx.state.operational = false →
      tx'.state.stopping = true ∧ tx'.state.operational = false) ∧
    ∀ tid tx accepted, w.mtx = some (.startCb tid) → w.tidTx tid = some tx → tx.state.stopping = true →
      tx.state.operational = false →
      ∃ n w' tx', run (List.replicate n (.goOn accepted)) w = some w' ∧ w'.mtx = none ∧ w'.tidTx tid = some tx' ∧
        tx'.state.stopping = true ∧ tx'.state.operational = w.lateCallback := by
  have sound := reach_sound reach initial
  refine ⟨?_,?_,?_⟩
  · intro tid tx there on
    exact sound.ready tid tx.core (core_there there) on
  · intro fair _ after tid tx tx' there there' same stops off
    have live := core_there there
    have ended : Ended tid tx.id w.machine := by
      refine ⟨sound.live tid tx.core live,?_,?_⟩
      · intro c waits
        cases (sound.start tid c waits).1.symm.trans live
      · intro c found _
        cases live.symm.trans found
        exact ⟨stops,off⟩
    exact (fair_ended initial fair after ended).2.2 tx'.core (core_there there') same
  · exact fun tid tx accepted held there stops off => callback_operational accepted held there stops off

def sampleCfg : Cfg where
  hz := 250
  htSupported := true
  ampduAction := true
  ampduAggregation := true
  txAmpduSetupInHw := false
  vifType := .station
  maxTxAggregationSubframes := 0

def sampleSta : World where
  cfg := sampleCfg
  jiffies := 1000
  tids := Vector.replicate 16 ⟨none,none,0,0,0⟩
  blockBa := false
  reservedTid := 0xff
  dialogTokenAllocator := 0
  workPending := false
  mtx := none
  queue := []
  handlers := []
  allocated := 0
  out := []

def sampleAsked : List Event := [.startTxBaSession 0 0 true,.work] ++ List.replicate 34 (.goOn true)
def sampleAnswered : List Event := sampleAsked ++ [.rxAddbaResp 0x1002 0 1,.iface] ++ List.replicate 5 (.goOn true)

def sampleEnded : List Event :=
  sampleAnswered ++ [.rxDelba 0,.startTxBaCbIrqsafe 0 true,.iface] ++ List.replicate 5 (.goOn true)

def sampleAfter (events : List Event) : World := (run events sampleSta).getD sampleSta

theorem sampleSta_initial : sampleSta.Initial := by
  refine ⟨rfl,?_⟩
  decide

def sampleOn : List Event := sampleAnswered ++ [.startTxBaCbIrqsafe 0 true,.iface] ++ List.replicate 3 (.goOn true)

theorem tx_agg_operational_sample : ((sampleAfter sampleOn).tidTx 0).any (fun tx => tx.state.operational) = true ∧
    ∀ tid tx, (sampleAfter sampleOn).tidTx tid = some tx → tx.state.operational = true →
      tx.state.drvReady = true ∧ tx.state.responseReceived = true := by
  have ran : run sampleOn sampleSta = some (sampleAfter sampleOn) := by decide +kernel
  exact ⟨by decide +kernel,(tx_agg_operational sampleSta_initial (Transitions.run_reach .step .refl ran)).1⟩

-- The session has ended before the callback that is in the queue makes it
-- operational.
theorem tx_agg_operational_late : ∃ w w' tx tx', Reach sampleSta w ∧ Reach w w' ∧ w.tidTx 0 = some tx ∧
    w'.tidTx 0 = some tx' ∧ tx'.id = tx.id ∧ tx.state.stopping = true ∧ tx.state.operational = false ∧
    tx'.state.operational = true := by
  have late : (run sampleEnded sampleSta).any (fun w => (run (.iface :: List.replicate 3 (.goOn true)) w).any fun w' =>
      (w.tidTx 0).any fun tx => (w'.tidTx 0).any fun tx' => tx'.id == tx.id && tx.state.stopping &&
        !tx.state.operational && tx'.state.operational) = true := by decide +kernel
  obtain ⟨w,ran,late⟩ := (any_eq_true _ _).mp late
  obtain ⟨w',ran',late⟩ := (any_eq_true _ _).mp late
  obtain ⟨tx,there,late⟩ := (any_eq_true _ _).mp late
  obtain ⟨tx',there',late⟩ := (any_eq_true _ _).mp late
  simp only [Bool.and_eq_true,beq_iff_eq,Bool.not_eq_true'] at late
  obtain ⟨⟨⟨same,stops⟩,off⟩,on⟩ := late
  exact ⟨w,w',tx,tx',Transitions.run_reach .step .refl ran,Transitions.run_reach .step .refl ran',there,there',same,stops,off,on⟩

end runs

end Mac80211.AggTx

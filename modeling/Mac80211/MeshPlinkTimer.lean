import Mac80211.MeshPlinkMoves

namespace Mac80211.MeshPlink

def PlinkState.timed (state : PlinkState) : Bool :=
  state == .opnSnt || state == .opnRcvd || state == .cnfRcvd || state == .holding

-- Every link that waits has its timer pending, or expired with the handler to come.
structure Disciplined (w : World) : Prop where
  unbugged : w.bugged = false
  armed : ∀ sta ∈ w.stations, sta.phase ≠ .freed → sta.plinkState.timed = true →
    sta.plinkTimer.pending = true ∨ sta.plinkTimer.running = true

structure Event.Timely (e : Event) (w : World) : Prop where
  reopened : ∀ i draws sta, e = .plinkOpen i draws → w.stations[i]? = some sta → sta.auth = true →
    sta.plinkState = .blocked → sta.plinkTimer.pending = false
  quiescing : ∀ i rand sta, e = .handler i rand → w.stations[i]? = some sta → w.kernel.quiescing = true →
    sta.plinkState.timed = true → sta.plinkTimer.pending = true

inductive Punctual (start : World) : World → Prop where
  | refl : Punctual start start
  | step (prior : Punctual start w) (timely : e.Timely w) (ran : step e w = some w') : Punctual start w'

def View.OnTime (now : Nat) (v : View) : Prop :=
  (v.state.timed = true → v.timer.pending = true ∨ v.timer.running = true ∧ v.timer.expires ≤ now) ∧
  (v.state = .listen ∨ v.state = .estab → v.timer.pending = false)

variable {v : View}

theorem View.OnTime.later (onTime : v.OnTime now) (later : now ≤ now') : v.OnTime now' :=
  ⟨fun timed => (onTime.1 timed).imp id fun ⟨running,due⟩ => ⟨running,Nat.le_trans due later⟩,onTime.2⟩

theorem moves_onTime (moves : Moves why now llids v v') (onTime : v.OnTime now)
    (lost : why.lost → v.state.timed = true → v.timer.pending = true) : v'.OnTime now := by
  cases moves with
  | idle | relisten | relabel | unlink | leave => exact onTime
  | release | establish => exact ⟨fun timed => (by cases timed),fun _ => rfl⟩
  | start was next =>
    refine ⟨fun _ => .inl rfl,?_⟩
    rcases next with _ | _ <;> simp_all
  | receive was =>
    refine ⟨fun _ => onTime.1 (by rw [was]; rfl),?_⟩
    simp
  | rearm was next =>
    refine ⟨fun _ => .inl rfl,?_⟩
    rcases was with _ | _ | _ <;> rcases next with next | next | next <;> simp_all
  | close => exact ⟨fun _ => .inl rfl,by simp⟩
  | block | clean => exact ⟨fun timed => (by cases timed),by simp⟩
  | expire due => exact ⟨fun _ => .inr ⟨rfl,due⟩,fun _ => rfl⟩
  | ignore because =>
    refine ⟨?_,onTime.2⟩
    intro timed
    left
    have waits : v.state.timed = true := timed
    rcases because with lose | early | state
    · exact lost lose waits
    · rcases onTime.1 waits with pending | ⟨_,due⟩
      · exact pending
      · exact absurd due (Nat.not_le.mpr early)
    · rcases state with state | state | state <;> simp [PlinkState.timed,state] at waits

theorem moves_unbugged (moves : Moves why now llids v v') (onTime : v.OnTime now) (unbugged : v.bugged = false)
    (reopened : why.opens → v.state = .blocked → v.timer.pending = false) : v'.bugged = false := by
  cases moves with
  | start was =>
    have idle : v.timer.pending = false := by
      rcases was with listen | ⟨opens,blocked⟩
      · exact onTime.2 (.inl listen)
      · exact reopened opens blocked
    simp [unbugged,idle]
  | _ => exact unbugged

variable {e : Event}

structure Scheduled (w : World) : Prop where
  unbugged : w.bugged = false
  onTime : ∀ sta ∈ w.stations, sta.phase ≠ .freed → (w.peer sta).view.OnTime w.kernel.jiffies

theorem Scheduled.disciplined (scheduled : Scheduled w) : Disciplined w := by
  constructor
  · exact scheduled.unbugged
  · intro sta member alive timed
    exact ((scheduled.onTime sta member alive).1 timed).imp id And.left

theorem added_scheduled (scheduled : Scheduled w) (added : Added w mid sta) : Scheduled mid := by
  constructor
  · rw [added.bugged]
    exact scheduled.unbugged
  intro other member alive
  rw [added.stations] at member
  rw [added.kernel]
  rcases List.mem_append.mp member with old | new
  · exact scheduled.onTime other old alive
  · cases List.mem_singleton.mp new
    refine ⟨?_,fun _ => added.pending⟩
    intro timed
    have waits : sta.plinkState.timed = true := timed
    rcases added.state with state | state <;> simp [PlinkState.timed,state] at waits

theorem brings_timely (brings : e.brings = true) (w : World) : e.Timely w := by
  constructor
  · rintro i _ _ rfl
    cases brings
  · rintro i _ _ rfl
    cases brings

theorem effect_scheduled (scheduled : Scheduled mid) (timely : e.Timely mid) (kernel : w.kernel = mid.kernel)
    (effect : Effect e w mid w') : Scheduled w' := by
  cases effect with
  | still still =>
    constructor
    · rw [still.bugged]
      exact scheduled.unbugged
    · intro sta member alive
      rw [still.stations] at member
      exact View.OnTime.later (scheduled.onTime sta member alive) still.jiffies
  | @move i sta p found alive moves =>
    have onTime := scheduled.onTime sta (List.mem_of_getElem? found) alive
    constructor
    · refine moves_unbugged moves onTime scheduled.unbugged ?_
      rintro ⟨draws,rfl,auth⟩ blocked
      exact timely.reopened i draws sta rfl found auth blocked
    · intro other member present
      rcases List.mem_or_eq_of_mem_set member with old | rfl
      · exact scheduled.onTime other old present
      · refine moves_onTime moves onTime ?_
        rintro ⟨quiescing,rand,rfl⟩ timed
        rw [kernel] at quiescing
        exact timely.quiescing i rand sta rfl found quiescing timed

theorem step_scheduled (scheduled : Scheduled w) (timely : e.Timely w) (ran : step e w = some w') : Scheduled w' := by
  obtain ⟨mid,before,effect⟩ := step_effect ran
  rcases before with rfl | ⟨brings,_,new⟩
  · exact effect_scheduled scheduled timely rfl effect
  · exact effect_scheduled (added_scheduled scheduled new) (brings_timely brings mid) new.kernel.symm effect

theorem punctual_scheduled (punctual : Punctual start w) (initial : start.Initial) : Scheduled w := by
  induction punctual with
  | refl =>
    refine ⟨initial.2.2,?_⟩
    intro _ member
    rw [initial.1] at member
    cases member
  | step prior timely ran ih => exact step_scheduled ih timely ran

theorem reopen_bugged {p : Peer} (auth : p.sta.auth = true) (blocked : p.sta.plinkState = .blocked)
    (pending : p.sta.plinkTimer.pending = true) (ran : p.meshPlinkOpen draws = some q) : q.bugged = true := by
  unfold Peer.meshPlinkOpen at ran
  simp only [auth,Bool.not_true,Bool.false_eq_true,if_false] at ran
  obtain ⟨_,_,rfl⟩ := Option.map_eq_some_iff.mp ran
  simp [Peer.setLlid,blocked,Peer.frameTx,Peer.meshPlinkTimerSet,Peer.setState,pending]

theorem disciplined_timely (disciplined : Disciplined w') (ran : step e w = some w') : e.Timely w := by
  constructor
  · rintro i _ sta rfl found auth blocked
    obtain ⟨_,there,ran⟩ := Option.bind_eq_some_iff.mp ran
    cases Option.some.inj (found.symm.trans there)
    obtain ⟨q,opened,rfl⟩ := Option.map_eq_some_iff.mp ran
    unfold Peer.when at opened
    split at opened
    · cases pending : sta.plinkTimer.pending with
      | false => rfl
      | true =>
        have bugged := reopen_bugged (p := w.peer sta) auth blocked pending opened
        have unbugged : q.bugged = false := disciplined.unbugged
        rw [bugged] at unbugged
        cases unbugged
    · cases opened
  rintro i _ sta rfl found quiescing timed
  obtain ⟨_,there,ran⟩ := Option.bind_eq_some_iff.mp ran
  cases Option.some.inj (found.symm.trans there)
  obtain ⟨q,handled,rfl⟩ := Option.map_eq_some_iff.mp ran
  unfold Peer.when at handled
  split at handled
  · rename_i alive
    dsimp only at handled
    split at handled
    · have still : q = (w.peer sta).setRunning false := by
        unfold Peer.meshPlinkTimer at handled
        rw [if_pos (show ((w.peer sta).setRunning false).kernel.quiescing = true from quiescing)] at handled
        exact (Option.some.inj handled).symm
      subst still
      have member := List.mem_set (List.getElem?_eq_some_iff.mp found).1 ((w.peer sta).setRunning false).sta
      rcases disciplined.armed _ member (alive_alive sta alive) timed with pending | running
      · exact pending
      · cases running
    · cases handled
  · cases handled

theorem timer_discipline (initial : start.Initial) (punctual : Punctual start w) :
    Disciplined w ∧ ∀ e w', step e w = some w' → (Disciplined w' ↔ e.Timely w) := by
  have scheduled := punctual_scheduled punctual initial
  refine ⟨scheduled.disciplined,?_⟩
  intro e _ ran
  constructor
  · intro disciplined
    exact disciplined_timely disciplined ran
  · intro timely
    exact (step_scheduled scheduled timely ran).disciplined

theorem timer_discipline_sample : Disciplined (sampleWorld sampleAsked) ∧
    ∀ e w', step e (sampleWorld sampleAsked) = some w' → (Disciplined w' ↔ e.Timely (sampleWorld sampleAsked)) := by
  have asked : (Event.plinkOpen 0 [16]).Timely (sampleWorld (sampleAsked.take 1)) := by
    constructor
    · rintro i _ sta ⟨⟩ found _ blocked
      cases found
      cases blocked
    · rintro i _ _ ⟨⟩
  have start : Punctual sampleMesh sampleMesh := .refl
  exact timer_discipline ⟨rfl,rfl,rfl⟩ ((start.step (brings_timely rfl _) sample_added).step asked sample_opened)

def sampleReopened : List Event :=
  [.addStation samplePeer true sampleRoom,.plinkOpen 0 [16],.plinkBlock 0,.plinkOpen 0 [40]]

theorem timer_added_pending : run sampleReopened sampleMesh = some (sampleWorld sampleReopened) ∧
    ¬ Disciplined (sampleWorld sampleReopened) := by
  refine ⟨by decide,?_⟩
  intro disciplined
  have bugged : (sampleWorld sampleReopened).bugged = true := by decide
  rw [disciplined.unbugged] at bugged
  cases bugged

end Mac80211.MeshPlink

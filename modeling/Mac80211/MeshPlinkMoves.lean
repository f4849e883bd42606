import Mac80211.MeshPlink

namespace Mac80211.MeshPlink
open Ieee80211

structure View where
  addr : EthAddr
  phase : Phase
  userMpm : Bool
  state : PlinkState
  llid : UInt16
  timer : TimerList
  estab : Int
  bugged : Bool

def Peer.view (p : Peer) : View :=
  ⟨p.sta.addr,p.sta.phase,p.sdata.userMpm,p.sta.plinkState,p.sta.llid,p.sta.plinkTimer,p.sdata.estabPlinks,p.bugged⟩

-- An open request, a peering frame with an accepted event, or a handler that gives up while suspended.
structure Cause where
  opens : Prop
  accepted : Prop
  lost : Prop

def View.armed (v : View) (expires : Nat) (running : Bool) : View := {v with timer := ⟨true,expires,running⟩}
def View.disarmed (v : View) (running : Bool) : View := {v with timer := ⟨false,v.timer.expires,running⟩}

-- What any event can do to one link; run claims are by cases on this, not on the handlers.
inductive Moves (why : Cause) (now : Nat) (llids : List UInt16) (v : View) : View → Prop where
  | idle : Moves why now llids v v
  | relisten (was : v.state = .listen) : Moves why now llids v {v with llid := 0}
  | release (was : v.state = .holding) (running : Bool) :
      Moves why now llids v {v.disarmed running with state := .listen,llid := 0}
  | start (was : v.state = .listen ∨ why.opens ∧ v.state = .blocked) (next : state = .opnSnt ∨ state = .opnRcvd)
      (fresh : llid ∉ llids) (expires : Nat) :
      Moves why now llids v {v.armed expires v.timer.running with
        state := state,llid := llid,bugged := v.bugged || v.timer.pending}
  | relabel (asked : why.opens) (listen : v.state ≠ .listen) (blocked : v.state ≠ .blocked) (fresh : llid ∉ llids) :
      Moves why now llids v {v with llid := llid}
  | receive (was : v.state = .opnSnt) : Moves why now llids v {v with state := .opnRcvd}
  | rearm (was : v.state = .opnSnt ∨ v.state = .opnRcvd ∨ v.state = .cnfRcvd)
      (next : state = v.state ∨ state = .cnfRcvd ∨ state = .holding) (expires : Nat) (running : Bool) :
      Moves why now llids v {v.armed expires running with state := state}
  | establish (accepted : why.accepted) (was : v.state = .opnRcvd ∨ v.state = .cnfRcvd) :
      Moves why now llids v {v.disarmed v.timer.running with state := .estab,estab := v.estab + 1}
  | close (was : v.state = .estab) (expires : Nat) :
      Moves why now llids v {v.armed expires v.timer.running with state := .holding,estab := v.estab - 1}
  | block : Moves why now llids v {v with state := .blocked,estab := if v.state = .estab then v.estab - 1 else v.estab}
  | unlink : Moves why now llids v {v with phase := .unlinked}
  | clean (mpm : v.userMpm = false) : Moves why now llids v {v.disarmed false with
      phase := .freed,state := .blocked,estab := if v.state = .estab then v.estab - 1 else v.estab}
  | leave (mpm : v.userMpm = true) : Moves why now llids v {v with phase := .freed}
  | expire (due : v.timer.expires ≤ now) : Moves why now llids v (v.disarmed true)
  | ignore (because : why.lost ∨ now < v.timer.expires ∨ v.state = .listen ∨ v.state = .estab ∨ v.state = .blocked) :
      Moves why now llids v {v with timer := {v.timer with running := false}}

section peer
variable {p : Peer}

@[simp] theorem view_answer (p : Peer) (action : ActionCode) : (p.answer action).view = p.view := by
  unfold Peer.answer
  split <;> rfl

@[simp] theorem sta_answer (p : Peer) (action : ActionCode) : (p.answer action).sta = p.sta := by
  unfold Peer.answer
  split <;> rfl

theorem meshGetNewLlid_fresh (drawn : p.meshGetNewLlid draws = some llid) : llid ∉ p.llids := by
  simpa using List.find?_some drawn

theorem deactivate_view (p : Peer) : p.deactivate.view =
    {p.view with state := .blocked,estab := if p.view.state = .estab then p.view.estab - 1 else p.view.estab} := by
  unfold Peer.deactivate
  by_cases estab : p.sta.plinkState = .estab
  · simp [estab,Peer.view,Peer.setState,Peer.decEstabCount,meshAcceptPlinksUpdate]
  · simp [estab,Peer.view,Peer.setState]

theorem close_moves (was : p.sta.plinkState = .opnSnt ∨ p.sta.plinkState = .opnRcvd ∨ p.sta.plinkState = .cnfRcvd) :
    Moves why now llids p.view (p.meshPlinkClose event).view :=
  .rearm was (.inr (.inr rfl)) _ _

theorem establish_moves (accepted : why.accepted) (was : p.sta.plinkState = .opnRcvd ∨ p.sta.plinkState = .cnfRcvd) :
    Moves why now llids p.view p.meshPlinkEstablish.view :=
  .establish accepted was

theorem closeEstab_moves (was : p.sta.plinkState = .estab) :
    Moves why now llids p.view (p.deactivate.meshPlinkClose event).view := by
  have deactivated := deactivate_view p
  have estab : p.view.state = .estab := was
  rw [if_pos estab] at deactivated
  have same : (p.deactivate.meshPlinkClose event).view =
      {p.view.armed (p.deactivate.meshPlinkClose event).sta.plinkTimer.expires p.view.timer.running with
        state := .holding,estab := p.view.estab - 1} := by
    have running : p.deactivate.sta.plinkTimer = p.sta.plinkTimer := congrArg View.timer deactivated
    have llid : p.deactivate.sta.llid = p.sta.llid := congrArg View.llid deactivated
    have count : p.deactivate.sdata.estabPlinks = p.sdata.estabPlinks - 1 := congrArg View.estab deactivated
    have bugged : p.deactivate.bugged = p.bugged := congrArg View.bugged deactivated
    have addr : p.deactivate.sta.addr = p.sta.addr := congrArg View.addr deactivated
    have phase : p.deactivate.sta.phase = p.sta.phase := congrArg View.phase deactivated
    have mpm : p.deactivate.sdata.userMpm = p.sdata.userMpm := congrArg View.userMpm deactivated
    simp [Peer.meshPlinkClose,Peer.view,Peer.modPlinkTimer,Peer.setTimer,Peer.setState,Peer.setReason,View.armed,
      running,llid,count,bugged,addr,phase,mpm]
  rw [same]
  exact .close estab _

theorem fsm_moves (accepted : event = .opnAcpt ∨ event = .cnfAcpt → why.accepted)
    (ran : p.meshPlinkFsm event draws = some q) : Moves why now p.llids p.view q.view := by
  unfold Peer.meshPlinkFsm at ran
  split at ran
  case h_1 was =>
    cases ran
    have same : p.meshPlinkFsmRestart.view = {p.view with llid := 0} := by
      simp [Peer.meshPlinkFsmRestart,Peer.view,was]
    rw [same]
    exact .relisten was
  case h_2 was =>
    obtain ⟨_,drawn,rfl⟩ := Option.map_eq_some_iff.mp ran
    rw [view_answer]
    exact .start (.inl was) (.inr rfl) (meshGetNewLlid_fresh drawn) _
  case h_3 was =>
    cases ran
    rw [view_answer]
    exact .receive was
  case h_4 was =>
    cases ran
    exact .rearm (.inl was) (.inr (.inl rfl)) _ _
  case h_6 was =>
    cases ran
    exact establish_moves (accepted (.inr rfl)) (.inl was)
  case h_7 was =>
    cases ran
    rw [view_answer]
    exact establish_moves (accepted (.inl rfl)) (.inr was)
  case h_17 was =>
    cases ran
    rw [view_answer]
    exact closeEstab_moves was
  case h_19 was =>
    cases ran
    exact .release was _
  all_goals
    cases ran
    first
      | (rw [view_answer]; exact .idle)
      | exact .idle
      | (rename_i was; rw [view_answer]; exact close_moves (by simp [was]))

theorem open_moves (opens : p.sta.auth = true → why.opens) (ran : p.meshPlinkOpen draws = some q) :
    Moves why now p.llids p.view q.view := by
  unfold Peer.meshPlinkOpen at ran
  split at ran
  · cases ran
    exact .idle
  rename_i auth
  simp only [Bool.not_eq_true,Bool.not_eq_false'] at auth
  obtain ⟨_,drawn,rfl⟩ := Option.map_eq_some_iff.mp ran
  have fresh := meshGetNewLlid_fresh drawn
  dsimp only
  split
  · rename_i other
    simp only [Peer.setLlid,Bool.and_eq_true,bne_iff_ne,ne_eq] at other
    exact .relabel (opens auth) other.1 other.2 fresh
  · rename_i ready
    simp only [Peer.setLlid,Bool.and_eq_true,bne_iff_ne,ne_eq,not_and,not_not] at ready
    refine .start ?_ (.inl rfl) fresh _
    by_cases was : p.sta.plinkState = .listen
    · exact .inl was
    · exact .inr ⟨opens auth,ready was⟩

theorem open_listen_moves (was : p.sta.plinkState = .listen) (ran : p.meshPlinkOpen draws = some q) :
    Moves why now p.llids p.view q.view := by
  unfold Peer.meshPlinkOpen at ran
  split at ran
  · cases ran
    exact .idle
  · obtain ⟨_,drawn,rfl⟩ := Option.map_eq_some_iff.mp ran
    have fresh := meshGetNewLlid_fresh drawn
    simp only [Peer.setLlid,was]
    exact .start (.inl was) (.inl rfl) fresh _

theorem block_moves (p : Peer) : Moves why now llids p.view p.meshPlinkBlock.view := by
  have same : p.meshPlinkBlock.view = p.deactivate.view := by
    unfold Peer.meshPlinkBlock Peer.deactivate
    split <;> rfl
  rw [same,deactivate_view]
  exact .block

theorem deactivate_moves (p : Peer) : Moves why now llids p.view p.meshPlinkDeactivate.view := by
  have same : p.meshPlinkDeactivate.view = p.deactivate.view := rfl
  rw [same,deactivate_view]
  exact .block

theorem cleanup_moves (p : Peer) : Moves why now llids p.view (p.meshStaCleanup.setPhase .freed).view := by
  unfold Peer.meshStaCleanup
  dsimp only
  split
  · rename_i mpm
    have same : p.view = ({p with sdata := meshAcceptPlinksUpdate p.sdata p.numSta} : Peer).view := rfl
    have deactivated := deactivate_view {p with sdata := meshAcceptPlinksUpdate p.sdata p.numSta}
    rw [← same] at deactivated
    have cleaned : Moves why now llids p.view
        {({p with sdata := meshAcceptPlinksUpdate p.sdata p.numSta} : Peer).deactivate.view.disarmed false with
          phase := .freed} := by
      rw [deactivated]
      exact .clean (by simpa [Peer.view,meshAcceptPlinksUpdate] using mpm)
    exact cleaned
  · rename_i mpm
    exact .leave (by simpa [Peer.view,meshAcceptPlinksUpdate] using mpm)

theorem handler_moves (rand : UInt32) (lost : p.kernel.quiescing = true → why.lost) :
    Moves why p.kernel.jiffies llids p.view ((p.setRunning false).meshPlinkTimer rand).view := by
  unfold Peer.meshPlinkTimer
  split
  · rename_i quiescing
    exact .ignore (.inl (lost quiescing))
  split
  · rename_i early
    exact .ignore (.inr (.inl early))
  split
  · rename_i deleted
    simp only [Bool.or_eq_true,beq_iff_eq] at deleted
    exact .ignore (.inr (.inr (deleted.imp id .inl)))
  rename_i deleted
  unfold Peer.expired
  split
  case h_1 was =>
    split
    · exact .rearm (.inr (.inl was)) (.inl rfl) _ _
    · exact .rearm (.inr (.inl was)) (.inr (.inr rfl)) _ _
  case h_2 was =>
    split
    · exact .rearm (.inl was) (.inl rfl) _ _
    · exact .rearm (.inl was) (.inr (.inr rfl)) _ _
  case h_3 was => exact .rearm (.inr (.inr was)) (.inr (.inr rfl)) _ _
  case h_4 was => exact .release was _
  case h_5 opnRcvd opnSnt cnfRcvd holding =>
    refine .ignore (.inr (.inr (.inr (.inr ?_))))
    show p.sta.plinkState = .blocked
    have kept : p.sta.plinkState ≠ .listen ∧ p.sta.plinkState ≠ .estab := by
      simpa [Peer.setRunning,Peer.setTimer] using deleted
    obtain ⟨listen,estab⟩ := kept
    cases state : p.sta.plinkState with
    | listen => exact absurd state listen
    | opnSnt => exact absurd state opnSnt
    | opnRcvd => exact absurd state opnRcvd
    | cnfRcvd => exact absurd state cnfRcvd
    | estab => exact absurd state estab
    | holding => exact absurd state holding
    | blocked => rfl

theorem expire_moves (due : p.due = true) : Moves why p.kernel.jiffies llids p.view p.expire.view := by
  simp only [Peer.due,Bool.and_eq_true,decide_eq_true_eq] at due
  exact .expire due.1.2

end peer

def World.event (w : World) (rx : PeeringFrame) : PlinkEvent :=
  meshPlinkGetEvent w.sdata ((w.staInfoGet rx.sa).bind (w.stations[·]?)) rx.elems rx.action rx.llid rx.plid

def Event.cause (e : Event) (w : World) (i : Nat) (sta : StaInfo) : Cause where
  opens := ∃ draws, e = .plinkOpen i draws ∧ sta.auth = true
  accepted := ∃ rx room draws, e = .frame rx room draws ∧ rx.sa = sta.addr ∧ (w.event rx = .opnAcpt ∨ w.event rx = .cnfAcpt)
  lost := w.kernel.quiescing = true ∧ ∃ rand, e = .handler i rand

def Event.brings : Event → Bool
  | .frame .. | .beacon .. | .addStation .. => true
  | _ => false

structure Added (w w' : World) (sta : StaInfo) : Prop where
  stations : w'.stations = w.stations ++ [sta]
  kernel : w'.kernel = w.kernel
  estab : w'.sdata.estabPlinks = w.sdata.estabPlinks
  userMpm : w'.sdata.userMpm = w.sdata.userMpm
  bugged : w'.bugged = w.bugged
  state : sta.plinkState = .listen ∨ sta.plinkState = .blocked
  pending : sta.plinkTimer.pending = false

structure Still (w w' : World) : Prop where
  stations : w'.stations = w.stations
  jiffies : w.kernel.jiffies ≤ w'.kernel.jiffies
  estab : w'.sdata.estabPlinks = w.sdata.estabPlinks
  userMpm : w'.sdata.userMpm = w.sdata.userMpm
  bugged : w'.bugged = w.bugged

inductive Effect (e : Event) (before w : World) : World → Prop where
  | still (still : Still w w') : Effect e before w w'
  | move (found : w.stations[i]? = some sta) (alive : sta.phase ≠ .freed)
      (moves : Moves (e.cause before i sta) w.kernel.jiffies w.staList (w.peer sta).view p.view) :
      Effect e before w (w.put i p)

section world
variable {w : World}

theorem Still.refl (w : World) : Still w w := ⟨rfl,Nat.le_refl _,rfl,rfl,rfl⟩

theorem on_effect (ran : w.on i f = some w')
    (moves : ∀ sta q, w.stations[i]? = some sta → f (w.peer sta) = some q → sta.phase ≠ .freed ∧
      Moves (e.cause before i sta) w.kernel.jiffies w.staList (w.peer sta).view q.view) : Effect e before w w' := by
  obtain ⟨sta,found,ran⟩ := Option.bind_eq_some_iff.mp ran
  obtain ⟨q,gave,rfl⟩ := Option.map_eq_some_iff.mp ran
  obtain ⟨alive,moves⟩ := moves sta q found gave
  exact .move found alive moves

theorem when_effect (ran : w.on i (Peer.when test f) = some w')
    (alive : ∀ sta, test sta = true → sta.phase ≠ .freed)
    (moves : ∀ sta q, w.stations[i]? = some sta → f (w.peer sta) = some q →
      Moves (e.cause before i sta) w.kernel.jiffies w.staList (w.peer sta).view q.view) : Effect e before w w' := by
  apply on_effect ran
  intro sta q found ran
  unfold Peer.when at ran
  split at ran
  · rename_i passed
    exact ⟨alive sta passed,moves sta q found ran⟩
  · cases ran

theorem listed_alive (sta : StaInfo) (listed : sta.listed = true) : sta.phase ≠ .freed := by
  intro freed
  simp [StaInfo.listed,freed] at listed

theorem unlinked_alive (sta : StaInfo) (unlinked : (sta.phase == .unlinked) = true) : sta.phase ≠ .freed := by
  intro freed
  simp [freed] at unlinked

theorem alive_alive (sta : StaInfo) (alive : sta.alive = true) : sta.phase ≠ .freed := by
  simpa [StaInfo.alive] using alive

theorem staInfoGet_found (got : w.staInfoGet addr = some i) :
    ∃ sta, w.stations[i]? = some sta ∧ sta.phase = .listed ∧ sta.addr = addr := by
  obtain ⟨inside,passed,_⟩ := List.findIdx?_eq_some_iff_getElem.mp got
  simp only [Bool.and_eq_true,beq_iff_eq] at passed
  exact ⟨w.stations[i],List.getElem?_eq_getElem inside,passed.1,passed.2⟩

theorem cleanup_listen (p : Peer) (listen : p.sta.plinkState = .listen) (idle : p.sta.plinkTimer.pending = false) :
    p.meshStaCleanup.sdata.estabPlinks = p.sdata.estabPlinks ∧ p.meshStaCleanup.sdata.userMpm = p.sdata.userMpm ∧
      p.meshStaCleanup.bugged = p.bugged ∧
      (p.meshStaCleanup.sta.plinkState = .listen ∨ p.meshStaCleanup.sta.plinkState = .blocked) ∧
      p.meshStaCleanup.sta.plinkTimer.pending = false := by
  unfold Peer.meshStaCleanup
  dsimp only
  split
  · simp [Peer.meshPlinkDeactivate,Peer.deactivate,Peer.setTimer,Peer.setReason,Peer.setState,Peer.frameTx,
      meshAcceptPlinksUpdate,listen]
  · exact ⟨rfl,rfl,rfl,.inl listen,idle⟩

theorem staInfoInsert_added (sta : StaInfo) (listen : sta.plinkState = .listen) (idle : sta.plinkTimer.pending = false)
    (room : Room) : w.staInfoInsert sta room = (w,none) ∨ ∃ added, Added w (w.staInfoInsert sta room).1 added ∧
        ∀ i, (w.staInfoInsert sta room).2 = some i → i = w.stations.length ∧ added = sta := by
  unfold World.staInfoInsert
  split
  · exact .inl rfl
  split
  · exact .inl rfl
  split
  · exact .inl rfl
  right
  split
  · refine ⟨sta,⟨rfl,rfl,rfl,rfl,rfl,.inl listen,idle⟩,?_⟩
    intro i same
    exact ⟨(Option.some.inj same).symm,rfl⟩
  · let given := (w.add {sta with phase := .freed}).peer {sta with phase := .freed}
    obtain ⟨estab,userMpm,bugged,state,pending⟩ := cleanup_listen given listen idle
    refine ⟨given.meshStaCleanup.sta,⟨?_,rfl,estab,userMpm,bugged,state,pending⟩,?_⟩
    · show (w.stations ++ [_]).set w.stations.length given.meshStaCleanup.sta = _
      simp
    · intro i same
      cases same

-- Known, not made, or new on the list.
theorem meshStaInfoGet_cases (got : w.meshStaInfoGet addr room = (mid,r)) :
    mid = w ∧ (∀ i, r = some i → w.staInfoGet addr = some i) ∨ w.staInfoInsert (newSta addr true) room = (mid,r) := by
  unfold World.meshStaInfoGet at got
  split at got
  · rename_i i found
    cases got
    exact .inl ⟨rfl,fun j same => same ▸ found⟩
  unfold World.meshStaInfoAlloc at got
  split at got
  · cases got
    exact .inl ⟨rfl,fun i none => by cases none⟩
  split at got
  · cases got
    exact .inl ⟨rfl,fun i none => by cases none⟩
  · exact .inr got

theorem meshStaInfoGet_added (got : w.meshStaInfoGet addr room = (mid,r)) :
    (mid = w ∨ ∃ added, Added w mid added) ∧ ∀ i, r = some i →
      ∃ sta, mid.stations[i]? = some sta ∧ sta.phase = .listed ∧ sta.addr = addr := by
  rcases meshStaInfoGet_cases got with ⟨rfl,found⟩ | inserted
  · exact ⟨.inl rfl,fun i same => staInfoGet_found (found i same)⟩
  rcases staInfoInsert_added (w := w) (newSta addr true) rfl rfl room with refused | ⟨added,new,listed⟩
  · rw [refused] at inserted
    cases inserted
    exact ⟨.inl rfl,fun i none => by cases none⟩
  · rw [inserted] at new listed
    refine ⟨.inr ⟨added,new⟩,?_⟩
    intro i same
    obtain ⟨rfl,rfl⟩ := listed i same
    refine ⟨newSta addr true,?_,rfl,rfl⟩
    rw [new.stations]
    simp

theorem neighbour_effect (brings : e.brings = true) (ran : w.meshNeighbourUpdate addr elems room draws = some w') :
    ∃ mid, (mid = w ∨ e.brings = true ∧ ∃ added, Added w mid added) ∧ Effect e w mid w' := by
  unfold World.meshNeighbourUpdate at ran
  split at ran
  · rename_i mid got
    cases ran
    exact ⟨_,(meshStaInfoGet_added got).1.imp id fun added => ⟨brings,added⟩,.still (Still.refl _)⟩
  rename_i mid i got
  refine ⟨mid,(meshStaInfoGet_added got).1.imp id fun added => ⟨brings,added⟩,?_⟩
  obtain ⟨_,member,listed,_⟩ := (meshStaInfoGet_added got).2 i rfl
  apply on_effect ran
  intro _ q found updated
  cases Option.some.inj (member.symm.trans found)
  refine ⟨by simp [listed],?_⟩
  split at updated
  · rename_i ready
    simp only [Bool.and_eq_true,beq_iff_eq] at ready
    exact open_listen_moves ready.1.1.1.2 updated
  · cases updated
    exact .idle

theorem process_effect (ran : w.meshProcessPlinkFrame rx room draws = some w') :
    ∃ mid, (mid = w ∨ ∃ added, Added w mid added) ∧ Effect (.frame rx room draws) w mid w' := by
  unfold World.meshProcessPlinkFrame at ran
  split at ran
  · cases ran
    exact ⟨w,.inl rfl,.still (Still.refl w)⟩
  dsimp only at ran
  split at ran
  · cases ran
    exact ⟨w,.inl rfl,.still (Still.refl w)⟩
  split at ran
  · rename_i accepted
    have event : w.event rx = .opnAcpt := by simpa [World.event] using accepted
    split at ran
    · rename_i mid got
      cases ran
      exact ⟨_,(meshStaInfoGet_added got).1,.still (Still.refl _)⟩
    rename_i mid i got
    obtain ⟨added,named⟩ := meshStaInfoGet_added got
    obtain ⟨_,member,listed,addr⟩ := named i rfl
    refine ⟨mid,added,?_⟩
    apply on_effect ran
    intro _ q found stepped
    cases Option.some.inj (member.symm.trans found)
    refine ⟨by simp [listed],fsm_moves ?_ stepped⟩
    intro _
    exact ⟨rx,room,draws,rfl,addr.symm,.inl event⟩
  split at ran
  · split at ran
    · cases ran
      exact ⟨w,.inl rfl,.still ⟨rfl,Nat.le_refl _,rfl,rfl,rfl⟩⟩
    · cases ran
      exact ⟨w,.inl rfl,.still (Still.refl w)⟩
  rename_i i got
  split at ran
  · cases ran
    exact ⟨w,.inl rfl,.still (Still.refl w)⟩
  obtain ⟨_,member,listed,addr⟩ := staInfoGet_found got
  refine ⟨w,.inl rfl,?_⟩
  apply on_effect ran
  intro _ q found stepped
  cases Option.some.inj (member.symm.trans found)
  refine ⟨by simp [listed],?_⟩
  split at stepped
  · refine fsm_moves ?_ stepped
    intro event
    exact ⟨rx,room,draws,rfl,addr.symm,event⟩
  · refine fsm_moves ?_ stepped
    intro event
    exact ⟨rx,room,draws,rfl,addr.symm,event⟩

theorem step_effect (ran : step e w = some w') :
    ∃ mid, (mid = w ∨ e.brings = true ∧ ∃ added, Added w mid added) ∧ Effect e w mid w' := by
  have alone : Effect e w w w' → ∃ mid, (mid = w ∨ e.brings = true ∧ ∃ added, Added w mid added) ∧ Effect e w mid w' :=
    fun effect => ⟨w,.inl rfl,effect⟩
  cases e with
  | frame =>
    simp only [step,World.meshRxPlinkFrame] at ran
    split at ran
    · cases ran
      exact alone (.still (Still.refl w))
    split at ran
    · cases ran
      exact alone (.still (Still.refl w))
    obtain ⟨mid,added,effect⟩ := process_effect ran
    exact ⟨mid,added.imp id fun added => ⟨rfl,added⟩,effect⟩
  | beacon =>
    simp only [step] at ran
    split at ran
    · exact neighbour_effect rfl ran
    · cases ran
      exact alone (.still (Still.refl w))
  | plinkOpen i draws =>
    apply alone
    apply when_effect ran listed_alive
    intro sta q found opened
    refine open_moves ?_ opened
    intro auth
    exact ⟨draws,rfl,auth⟩
  | plinkBlock =>
    apply alone
    apply when_effect ran listed_alive
    intro sta q found blocked
    cases blocked
    exact block_moves _
  | plinkDeactivate =>
    apply alone
    apply when_effect ran alive_alive
    intro sta q found deactivated
    cases deactivated
    exact deactivate_moves _
  | addStation addr auth room =>
    cases ran
    rcases staInfoInsert_added (w := w) (newSta addr auth) rfl rfl room with refused | ⟨added,new,_⟩
    · apply alone
      rw [refused]
      exact .still (Still.refl w)
    · exact ⟨_,.inr ⟨rfl,added,new⟩,.still (Still.refl _)⟩
  | setAuth | setSignal =>
    apply alone
    apply when_effect ran alive_alive
    intro sta q found set
    cases set
    exact .idle
  | unlink =>
    apply alone
    apply when_effect ran listed_alive
    intro sta q found unlinked
    cases unlinked
    exact .unlink
  | destroy =>
    apply alone
    apply when_effect ran unlinked_alive
    intro sta q found destroyed
    cases destroyed
    exact cleanup_moves {w.peer sta with numSta := (w.peer sta).numSta - 1}
  | expire =>
    apply alone
    apply when_effect ran alive_alive
    intro sta q _ expired
    split at expired
    · rename_i due
      cases expired
      exact expire_moves due
    · cases expired
  | handler i rand =>
    apply alone
    apply when_effect ran alive_alive
    intro sta q _ handled
    split at handled
    · cases handled
      refine @handler_moves (w.peer sta) _ _ rand ?_
      intro quiescing
      exact ⟨quiescing,rand,rfl⟩
    · cases handled
  | tick =>
    simp only [step] at ran
    split at ran
    · rename_i later
      cases ran
      exact alone (.still ⟨rfl,later,rfl,rfl,rfl⟩)
    · cases ran
  | quiesce | config | stations =>
    cases ran
    exact alone (.still ⟨rfl,Nat.le_refl _,rfl,rfl,rfl⟩)

end world

end Mac80211.MeshPlink

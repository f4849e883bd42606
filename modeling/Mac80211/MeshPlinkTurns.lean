import Mac80211.MeshPlinkMoves

namespace Mac80211.MeshPlink
open Ieee80211
open List (mem_singleton)

structure Link where
  addr : EthAddr
  phase : Phase
  state : PlinkState
  llid : UInt16
  plid : UInt16

def StaInfo.link (sta : StaInfo) : Link := ⟨sta.addr,sta.phase,sta.plinkState,sta.llid,sta.plid⟩

def PlinkState.confirmed (state : PlinkState) : Bool := state == .cnfRcvd || state == .estab

def PlinkState.active (state : PlinkState) : Bool := state == .opnSnt || state == .opnRcvd || state == .cnfRcvd || state == .estab

def drawnIds (draws : List UInt16) : List UInt16 := draws.map fun draw => draw % maxAid + 1

def Sent.closes (s : Sent) : Prop := s.action = .peeringClose

inductive Turn (ids : List UInt16) (heard : Option PeeringFrame) (v : Link) : Link → List Sent → Prop where
  | stay (state : PlinkState) (phase : Phase) (listed : phase = .listed → v.phase = .listed)
      (confirmed : state.confirmed = true → v.state.confirmed = true) (active : state.active = true → v.state.active = true)
      (frames : ∀ s ∈ fs, s.closes ∨ s.action = .peeringOpen ∧ s.llid = v.llid ∧ v.state.active = true) :
      Turn ids heard v {v with state := state,phase := phase} fs
  | restart : Turn ids heard v {v with state := .listen,llid := 0,plid := 0} []
  | «open» (listen : v.state = .listen) (drawn : llid ∈ ids) (frames : ∀ s ∈ fs, s.action = .peeringOpen ∧ s.llid = llid) :
      Turn ids heard v {v with state := .opnSnt,llid := llid} fs
  | answer (listen : v.state = .listen) (hears : heard = some rx) (opens : rx.action = .peeringOpen) (drawn : llid ∈ ids)
      (frames : ∀ s ∈ fs, s.action ≠ .peeringClose ∧ s.llid = llid ∧ s.plid = rx.plid) :
      Turn ids heard v {v with state := .opnRcvd,llid := llid,plid := rx.plid} fs
  | accept (state : PlinkState) (hears : heard = some rx) (opens : rx.action = .peeringOpen) (fits : v.plid = 0 ∨ v.plid = rx.plid)
      (confirmed : state.confirmed = true → v.state.confirmed = true) (active : state.active = true → v.state.active = true)
      (frames : ∀ s ∈ fs, s.closes ∨ s.action = .peeringConfirm ∧ s.llid = v.llid ∧ s.plid = rx.plid ∧ v.state.active = true) :
      Turn ids heard v {v with state := state,plid := rx.plid} fs
  | confirm (state : PlinkState) (hears : heard = some rx) (confirms : rx.action = .peeringConfirm) (own : v.llid = rx.llid)
      (fits : v.plid = 0 ∨ v.plid = rx.plid) (active : state.active = true → v.state.active = true) (frames : ∀ s ∈ fs, s.closes) :
      Turn ids heard v {v with state := state,plid := rx.plid} fs

def Sends (p q : Peer) (fs : List Sent) : Prop := q.sent = p.sent ++ fs ∧ ∀ s ∈ fs, s.da = p.sta.addr

section turns
variable {p : Peer}

theorem drawn_member (drawn : p.meshGetNewLlid draws = some llid) : llid ∈ drawnIds draws := List.mem_of_find?_eq_some drawn

def Peer.frames (p : Peer) (action : ActionCode) : List Sent :=
  ⟨action,p.sta.addr,p.sta.llid,p.sta.plid,p.sta.reason⟩ ::
    if action = .peeringOpen then [⟨.peeringConfirm,p.sta.addr,p.sta.llid,p.sta.plid,.zero⟩] else []

theorem answer_sends (p : Peer) (action : ActionCode) : (p.answer action).sent = p.sent ++ p.frames action := by
  unfold Peer.answer Peer.frames
  cases action <;> simp [Peer.frameTx]

theorem frames_spec (p : Peer) (action : ActionCode) (s : Sent) (member : s ∈ p.frames action) :
    s.da = p.sta.addr ∧ s.llid = p.sta.llid ∧ s.plid = p.sta.plid ∧ (s.action = action ∨ action = .peeringOpen ∧ s.action = .peeringConfirm) := by
  rcases List.mem_cons.mp member with first | rest
  · rw [first]
    exact ⟨rfl,rfl,rfl,.inl rfl⟩
  · split at rest
    · rename_i opens
      rw [mem_singleton.mp rest]
      exact ⟨rfl,rfl,rfl,.inr ⟨opens,rfl⟩⟩
    · cases rest

theorem answer_turn {r : Peer} (given : r.sent = p.sent) (addr : r.sta.addr = p.sta.addr) (action : ActionCode) :
    Sends p (r.answer action) (r.frames action) :=
  ⟨(answer_sends r action).trans (congrArg (· ++ _) given),fun s member => (frames_spec r action s member).1.trans addr⟩

theorem silent_sends (same : q.sent = p.sent) : Sends p q [] := ⟨same.trans (List.append_nil _).symm,fun _ none => by cases none⟩

theorem opnAcpt_turn (opens : rx.action = .peeringOpen) (fits : p.sta.plid = 0 ∨ p.sta.plid = rx.plid)
    (ran : (p.setPlid rx.plid).meshPlinkFsm .opnAcpt draws = some q) :
    ∃ fs, Sends p q fs ∧ Turn (drawnIds draws) (some rx) p.sta.link q.sta.link fs := by
  unfold Peer.meshPlinkFsm at ran
  have same : (p.setPlid rx.plid).sta.plinkState = p.sta.plinkState := rfl
  rw [same] at ran
  -- What is sent where the link already has an id.
  have confirms : ∀ (r : Peer) (state : PlinkState), r.sent = p.sent → r.sta.link = {p.sta.link with state := state,plid := rx.plid} →
      p.sta.plinkState.active = true → (state.confirmed = true → p.sta.plinkState.confirmed = true) →
      ∃ fs, Sends p (r.answer .peeringConfirm) fs ∧ Turn (drawnIds draws) (some rx) p.sta.link (r.answer .peeringConfirm).sta.link fs := by
    intro r state sent link active confirmed
    refine ⟨_,answer_turn sent (congrArg Link.addr link) _,?_⟩
    rw [sta_answer,link]
    refine .accept state rfl opens fits confirmed (fun _ => active) fun s member => .inr ?_
    obtain ⟨_,llid,plid,action⟩ := frames_spec r .peeringConfirm s member
    refine ⟨action.elim id fun both => both.2,llid.trans (congrArg Link.llid link),plid.trans (congrArg Link.plid link),active⟩
  cases state : p.sta.plinkState with
  | listen =>
    rw [state] at ran
    obtain ⟨llid,drawn,rfl⟩ := Option.map_eq_some_iff.mp ran
    have turn : Sends p _ _ := answer_turn (r := (((p.setPlid rx.plid).setState .opnRcvd).setLlid llid).meshPlinkTimerSet
      (p.setPlid rx.plid).sdata.mshcfg.retryTimeout) rfl rfl .peeringOpen
    refine ⟨_,turn,?_⟩
    refine .answer state rfl opens (drawn_member drawn) fun s member => ?_
    obtain ⟨_,llid,plid,action⟩ := frames_spec _ .peeringOpen s member
    refine ⟨?_,llid,plid⟩
    rcases action with opens | ⟨_,confirms⟩
    · rw [opens]
      exact ActionCode.noConfusion
    · rw [confirms]
      exact ActionCode.noConfusion
  | opnSnt =>
    rw [state] at ran
    cases ran
    exact confirms _ .opnRcvd rfl rfl (by rw [state]; rfl) fun on => by cases on
  | opnRcvd =>
    rw [state] at ran
    cases ran
    refine confirms _ .opnRcvd rfl ?_ (by rw [state]; rfl) fun on => by cases on
    rw [← state]
    rfl
  | cnfRcvd =>
    rw [state] at ran
    cases ran
    exact confirms _ .estab rfl rfl (by rw [state]; rfl) fun _ => by rw [state]; rfl
  | estab =>
    rw [state] at ran
    cases ran
    refine confirms _ .estab rfl ?_ (by rw [state]; rfl) fun _ => by rw [state]; rfl
    rw [← state]
    rfl
  | holding =>
    rw [state] at ran
    cases ran
    refine ⟨_,answer_turn rfl rfl _,?_⟩
    refine .accept p.sta.plinkState rfl opens fits id id fun s member => .inl ?_
    obtain ⟨_,_,_,action⟩ := frames_spec _ .peeringClose s member
    exact action.elim id fun both => by cases both.1
  | blocked =>
    rw [state] at ran
    cases ran
    exact ⟨[],silent_sends rfl,.accept p.sta.plinkState rfl opens fits id id fun _ none => by cases none⟩

theorem cnfAcpt_turn {r : Peer} (confirms : rx.action = .peeringConfirm) (own : p.sta.llid = rx.llid)
    (fits : p.sta.plid = 0 ∨ p.sta.plid = rx.plid) (set : r.sta.link = {p.sta.link with plid := rx.plid}) (sent : r.sent = p.sent)
    (ran : r.meshPlinkFsm .cnfAcpt draws = some q) : ∃ fs, Sends p q fs ∧ Turn (drawnIds draws) (some rx) p.sta.link q.sta.link fs := by
  have kind : r.sta.plinkState = p.sta.plinkState := congrArg Link.state set
  -- The state is all that changes past that.
  have takes : ∀ (state : PlinkState), q.sent = r.sent → q.sta.link = {r.sta.link with state := state} →
      (state.active = true → p.sta.plinkState.active = true) →
      ∃ fs, Sends p q fs ∧ Turn (drawnIds draws) (some rx) p.sta.link q.sta.link fs := by
    intro state same link active
    refine ⟨[],silent_sends (same.trans sent),?_⟩
    rw [link,set]
    exact .confirm state rfl confirms own fits active fun _ none => by cases none
  unfold Peer.meshPlinkFsm at ran
  rw [kind] at ran
  cases state : p.sta.plinkState with
  | opnSnt =>
    rw [state] at ran
    cases ran
    exact takes .cnfRcvd rfl rfl fun _ => by rw [state]; rfl
  | opnRcvd =>
    rw [state] at ran
    cases ran
    exact takes .estab rfl rfl fun _ => by rw [state]; rfl
  | holding =>
    rw [state] at ran
    cases ran
    refine ⟨_,answer_turn sent (congrArg Link.addr set) _,?_⟩
    rw [sta_answer,set]
    refine .confirm p.sta.plinkState rfl confirms own fits id fun s member => ?_
    obtain ⟨_,_,_,action⟩ := frames_spec _ .peeringClose s member
    exact action.elim id fun both => by cases both.1
  | _ =>
    rw [state] at ran
    cases ran
    refine takes p.sta.plinkState rfl ?_ id
    rw [← kind]
    rfl

theorem deactivate_sta (p : Peer) : p.deactivate.sent = p.sent ∧ p.deactivate.sta = {p.sta with plinkState := .blocked} := by
  unfold Peer.deactivate
  split <;> exact ⟨rfl,rfl⟩

theorem other_turn (opnAcpt : event ≠ .opnAcpt) (cnfAcpt : event ≠ .cnfAcpt) (ran : p.meshPlinkFsm event draws = some q) :
    ∃ fs, Sends p q fs ∧ Turn (drawnIds draws) heard p.sta.link q.sta.link fs := by
  have stays : ∃ fs, Sends p p fs ∧ Turn (drawnIds draws) heard p.sta.link p.sta.link fs :=
    ⟨[],silent_sends rfl,.stay p.sta.plinkState p.sta.phase id id id fun _ none => by cases none⟩
  have closes : ∀ (r : Peer) (state : PlinkState), r.sent = p.sent → r.sta.link = {p.sta.link with state := state} →
      (state.confirmed = true → p.sta.plinkState.confirmed = true) → (state.active = true → p.sta.plinkState.active = true) →
      ∃ fs, Sends p (r.answer .peeringClose) fs ∧ Turn (drawnIds draws) heard p.sta.link (r.answer .peeringClose).sta.link fs := by
    intro r state sent link confirmed active
    refine ⟨_,answer_turn sent (congrArg Link.addr link) _,?_⟩
    rw [sta_answer,link]
    refine .stay state p.sta.phase id confirmed active fun s member => .inl ?_
    obtain ⟨_,_,_,action⟩ := frames_spec _ .peeringClose s member
    exact action.elim id fun both => by cases both.1
  have deactivated := deactivate_sta p
  unfold Peer.meshPlinkFsm at ran
  split at ran
  case h_2 => exact absurd rfl opnAcpt
  case h_1 => cases ran; exact ⟨[],silent_sends rfl,.restart⟩
  case h_19 => cases ran; exact ⟨[],silent_sends rfl,.restart⟩
  case h_17 =>
    cases ran
    refine closes _ .holding deactivated.1 ?_ (fun on => by cases on) fun on => by cases on
    show ({p.deactivate.sta with reason := _,plinkState := _,plinkTimer := _} : StaInfo).link = _
    rw [deactivated.2]
    rfl
  all_goals
    cases ran
    first
      | exact absurd rfl opnAcpt
      | exact absurd rfl cnfAcpt
      | exact stays
      | exact closes _ .holding rfl rfl (fun on => by cases on) fun on => by cases on
      | exact closes _ p.sta.plinkState rfl rfl id id

theorem stay_turn (sent : q.sent = p.sent) (phase : Phase) (listed : phase = .listed → p.sta.phase = .listed)
    (link : q.sta.link = {p.sta.link with phase := phase}) : ∃ fs, Sends p q fs ∧ Turn ids heard p.sta.link q.sta.link fs := by
  refine ⟨[],silent_sends sent,?_⟩
  rw [link]
  exact .stay p.sta.plinkState phase listed id id fun _ none => by cases none

theorem open_turn (listen : p.sta.plinkState = .listen) (ran : p.meshPlinkOpen draws = some q) :
    ∃ fs, Sends p q fs ∧ Turn (drawnIds draws) heard p.sta.link q.sta.link fs := by
  unfold Peer.meshPlinkOpen at ran
  split at ran
  · cases ran
    exact stay_turn rfl p.sta.phase id rfl
  obtain ⟨llid,drawn,rfl⟩ := Option.map_eq_some_iff.mp ran
  dsimp only
  split
  · rename_i busy
    have listen : (p.setLlid llid).sta.plinkState = .listen := listen
    rw [listen] at busy
    cases busy
  · refine ⟨_,⟨rfl,fun s member => ?_⟩,.open listen (drawn_member drawn) fun s member => ?_⟩
    · rw [mem_singleton.mp member]
      rfl
    · rw [mem_singleton.mp member]
      exact ⟨rfl,rfl⟩

theorem deactivate_link (p : Peer) : p.meshPlinkDeactivate.sta.link = {p.sta.link with state := .blocked} := by
  show ({p.deactivate.sta with reason := _} : StaInfo).link = _
  rw [(deactivate_sta p).2]
  rfl

theorem deactivate_turn (p : Peer) (phase : Phase) (listed : phase = .listed → p.sta.phase = .listed) {r : Peer} (given : r.sta = p.sta)
    (sent : r.sent = p.sent) (link : q.sta.link = {r.meshPlinkDeactivate.sta.link with phase := phase}) (same : q.sent = r.meshPlinkDeactivate.sent) :
    ∃ fs, Sends p q fs ∧ Turn ids heard p.sta.link q.sta.link fs := by
  have deactivated := deactivate_sta r
  have blocked : r.meshPlinkDeactivate.sta.link = {p.sta.link with state := .blocked} := by
    rw [deactivate_link,given]
  have told : r.meshPlinkDeactivate.sent = r.deactivate.sent ++ [⟨.peeringClose,r.deactivate.sta.addr,r.deactivate.sta.llid,r.deactivate.sta.plid,.peerCanceled⟩] := rfl
  refine ⟨_,⟨same.trans (told.trans (by rw [deactivated.1,sent])),fun s member => ?_⟩,?_⟩
  · rw [mem_singleton.mp member,deactivated.2,given]
  · rw [link,blocked]
    refine .stay .blocked phase listed (fun on => by cases on) (fun on => by cases on) fun s member => .inl ?_
    rw [mem_singleton.mp member]
    rfl

theorem handler_turn (rand : UInt32) (ran : (p.setRunning false).meshPlinkTimer rand = q) :
    ∃ fs, Sends p q fs ∧ Turn ids heard p.sta.link q.sta.link fs := by
  unfold Peer.meshPlinkTimer at ran
  split at ran
  · exact ran ▸ stay_turn rfl p.sta.phase id rfl
  split at ran
  · exact ran ▸ stay_turn rfl p.sta.phase id rfl
  split at ran
  · exact ran ▸ stay_turn rfl p.sta.phase id rfl
  rw [← ran]
  unfold Peer.expired
  have kind : (p.setRunning false).sta.plinkState = p.sta.plinkState := rfl
  -- The link is given up, and the neighbour is told so.
  have gives : ∀ reason, ∃ fs, Sends p ((((p.setRunning false).setState .holding).modPlinkTimer
        (p.setRunning false).sdata.mshcfg.holdingTimeout.toNat).frameTx .peeringClose p.sta.llid p.sta.plid reason) fs ∧
      Turn ids heard p.sta.link ((((p.setRunning false).setState .holding).modPlinkTimer
        (p.setRunning false).sdata.mshcfg.holdingTimeout.toNat).frameTx .peeringClose p.sta.llid p.sta.plid reason).sta.link fs := by
    intro _
    refine ⟨_,⟨rfl,fun s member => ?_⟩,.stay .holding p.sta.phase id (fun on => by cases on) (fun on => by cases on) fun s member => .inl ?_⟩
    · rw [mem_singleton.mp member]
      rfl
    · rw [mem_singleton.mp member]
      rfl
  rw [kind]
  cases state : p.sta.plinkState with
  | opnSnt | opnRcvd =>
    dsimp only
    split
    · refine ⟨_,⟨rfl,fun s member => ?_⟩,.stay p.sta.plinkState p.sta.phase id id id fun s member => .inr ?_⟩
      · rw [mem_singleton.mp member]
        rfl
      · rw [mem_singleton.mp member]
        exact ⟨rfl,rfl,(congrArg PlinkState.active state).trans rfl⟩
    · exact gives _
  | cnfRcvd => exact gives _
  | holding => exact ⟨[],silent_sends rfl,.restart⟩
  | _ => exact stay_turn rfl p.sta.phase id rfl

end turns

end Mac80211.MeshPlink

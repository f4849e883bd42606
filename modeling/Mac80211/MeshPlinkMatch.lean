import Mac80211.MeshPlinkMoves

namespace Mac80211.MeshPlink
open Ieee80211

-- A known peer is authenticated and not blocked, and there is a free link.
def acceptable (sdata : Sdata) (sta : Option StaInfo) : Bool :=
  meshPlinkFreeCount sdata != 0 && sta.all fun sta => sta.auth && sta.plinkState != .blocked

def TurnedAway (sdata : Sdata) (sta : Option StaInfo) (ftype : ActionCode) (llid plid : UInt16) : Prop :=
  ∀ known, sta = some known → acceptable sdata sta = false ∨ ftype = .peeringClose ∨
    known.plid ≠ 0 ∧ known.plid ≠ plid ∨ ftype = .peeringConfirm ∧ known.llid ≠ llid

def Event.heard (w : World) : Event → List (EthAddr × Bool)
  | .frame rx _ _ => [(rx.sa,meshMatchesLocal w.sdata rx.elems)]
  | _ => []

def World.sender (w : World) (rx : PeeringFrame) : Option StaInfo := (w.staInfoGet rx.sa).bind (w.stations[·]?)

def Event.Guarded (w : World) (e : Event) : Prop :=
  ∀ rx room draws, e = .frame rx room draws → meshMatchesLocal w.sdata rx.elems = false →
    TurnedAway w.sdata (w.sender rx) rx.action rx.llid rx.plid

inductive Hearing (start : World) (met : World → Event → Prop) : List (EthAddr × Bool) → World → Prop where
  | refl : Hearing start met [] start
  | step (prior : Hearing start met heard w) (ok : met w e) (ran : step e w = some w') :
      Hearing start met (heard ++ e.heard w) w'

theorem event_unknown (fails : meshMatchesLocal sdata elems = false ∨ acceptable sdata none = false) :
    meshPlinkGetEvent sdata none elems ftype llid plid ≠ .opnAcpt ∧
      meshPlinkGetEvent sdata none elems ftype llid plid ≠ .cnfAcpt := by
  unfold meshPlinkGetEvent
  dsimp only
  split
  · simp
  rename_i matched
  split
  · simp
  · rename_i opening
    split
    · simp
    · rename_i free
      rcases fails with mismatch | full
      · simp [mismatch] at matched
        simp [matched] at opening
      · simp [acceptable] at full
        simp [full] at free

theorem event_known (known : StaInfo) : (meshPlinkGetEvent sdata (some known) elems ftype llid plid ≠ .opnAcpt ∧
    meshPlinkGetEvent sdata (some known) elems ftype llid plid ≠ .cnfAcpt) ↔
      TurnedAway sdata (some known) ftype llid plid := by
  have turned : TurnedAway sdata (some known) ftype llid plid ↔
      (acceptable sdata (some known) = false ∨ ftype = .peeringClose ∨
        known.plid ≠ 0 ∧ known.plid ≠ plid ∨ ftype = .peeringConfirm ∧ known.llid ≠ llid) := by
    simp [TurnedAway]
  rw [turned]
  unfold meshPlinkGetEvent acceptable
  by_cases auth : known.auth = true
  · by_cases blocked : known.plinkState = .blocked
    · simp [blocked]
    cases ftype with
    | peeringOpen =>
      by_cases free : meshPlinkFreeCount sdata = 0
      · simp [auth,blocked,free]
      · by_cases ids : known.plid ≠ 0 ∧ known.plid ≠ plid <;> simp [auth,blocked,free,ids]
    | peeringConfirm =>
      by_cases free : meshPlinkFreeCount sdata = 0
      · simp [auth,blocked,free]
      · by_cases ids : known.plid ≠ 0 ∧ known.plid ≠ plid
        · simp [auth,blocked,free,ids]
        · by_cases llid : known.llid = llid <;> simp [auth,blocked,free,ids,llid]
    | peeringClose =>
      repeat' split
      all_goals simp_all
  · simp [auth]

theorem event_turned (fails : meshMatchesLocal sdata elems = false ∨ acceptable sdata sta = false) :
    (meshPlinkGetEvent sdata sta elems ftype llid plid ≠ .opnAcpt ∧
      meshPlinkGetEvent sdata sta elems ftype llid plid ≠ .cnfAcpt) ↔ TurnedAway sdata sta ftype llid plid := by
  cases sta with
  | none =>
    constructor
    · intro _ known same
      cases same
    · intro _
      exact event_unknown fails
  | some known => exact event_known known

theorem moves_estab (moves : Moves why now llids v v') (estab : v'.state = .estab) :
    v'.addr = v.addr ∧ (v.state = .estab ∨ why.accepted) := by
  cases moves with
  | idle | relisten | relabel | unlink | leave | expire | ignore => exact ⟨rfl,.inl estab⟩
  | release | receive | close | block | clean => cases estab
  | start was next => rcases next with _ | _ <;> simp_all
  | rearm was next =>
    rcases next with same | _ | _
    · exact ⟨rfl,.inl (same ▸ estab)⟩
    · simp_all
    · simp_all
  | establish accepted => exact ⟨rfl,.inr accepted⟩

variable {e : Event}

def Known (heard : List (EthAddr × Bool)) (w : World) : Prop :=
  ∀ sta ∈ w.stations, sta.plinkState = .estab → (sta.addr,true) ∈ heard

theorem added_known (known : Known heard w) (added : Added w mid sta) : Known heard mid := by
  intro other member estab
  rw [added.stations] at member
  rcases List.mem_append.mp member with old | new
  · exact known other old estab
  · cases List.mem_singleton.mp new
    rcases added.state with state | state <;> simp [state] at estab

theorem accepted_matches (guarded : e.Guarded w) (accepted : (e.cause w i sta).accepted) : (sta.addr,true) ∈ e.heard w := by
  obtain ⟨rx,room,draws,rfl,sender,event⟩ := accepted
  cases matched : meshMatchesLocal w.sdata rx.elems with
  | true => simp [Event.heard,matched,sender]
  | false =>
    have turned := (event_turned (.inl matched)).mpr (guarded rx room draws rfl matched)
    rcases event with opened | confirmed
    · exact absurd opened turned.1
    · exact absurd confirmed turned.2

theorem effect_known (known : Known heard mid) (guarded : e.Guarded w) (effect : Effect e w mid w') :
    Known (heard ++ e.heard w) w' := by
  intro other member estab
  cases effect with
  | still still =>
    rw [still.stations] at member
    exact List.mem_append_left _ (known other member estab)
  | @move i sta p found alive moves =>
    rcases List.mem_or_eq_of_mem_set member with old | rfl
    · exact List.mem_append_left _ (known other old estab)
    · obtain ⟨addr,before⟩ := moves_estab moves estab
      have named : p.sta.addr = sta.addr := addr
      rw [named]
      rcases before with was | accepted
      · exact List.mem_append_left _ (known sta (List.mem_of_getElem? found) was)
      · exact List.mem_append_right _ (accepted_matches guarded accepted)

theorem hearing_known (hearing : Hearing start (fun w e => e.Guarded w) heard w) (empty : start.stations = []) :
    Known heard w := by
  induction hearing with
  | refl =>
    intro _ member
    rw [empty] at member
    cases member
  | step prior ok ran ih =>
    obtain ⟨_,before,effect⟩ := step_effect ran
    rcases before with rfl | ⟨_,_,new⟩
    · exact effect_known ih ok effect
    · exact effect_known (added_known ih new) ok effect

theorem mismatch_turned_away (sdata : Sdata) (sta : Option StaInfo) (elems : Elems) (ftype : ActionCode) (llid plid : UInt16)
    (start w : World) (heard : List (EthAddr × Bool)) :
    (meshMatchesLocal sdata elems = false ∨ acceptable sdata sta = false →
      ((meshPlinkGetEvent sdata sta elems ftype llid plid ≠ .opnAcpt ∧
        meshPlinkGetEvent sdata sta elems ftype llid plid ≠ .cnfAcpt) ↔ TurnedAway sdata sta ftype llid plid)) ∧
    (start.Initial → Hearing start (fun w e => e.Guarded w) heard w →
      ∀ sta ∈ w.stations, sta.plinkState = .estab → (sta.addr,true) ∈ heard) := by
  constructor
  · exact event_turned
  · intro initial hearing
    exact hearing_known hearing initial.1

def otherMesh : List UInt8 := [111,116,104,101,114]

def heardOn : List Event → World → List (EthAddr × Bool)
  | [],_ => []
  | e :: rest,w => e.heard w ++ ((step e w).map (heardOn rest)).getD []

theorem run_hearing (prior : Hearing start (fun _ _ => True) heard w) (ran : run events w = some w') :
    Hearing start (fun _ _ => True) (heard ++ heardOn events w) w' := by
  induction events generalizing w heard with
  | nil =>
    cases ran
    simpa [heardOn] using prior
  | cons e rest ih =>
    obtain ⟨_,stepped,ran⟩ := Option.bind_eq_some_iff.mp ran
    have onward := ih (.step prior trivial stepped) ran
    simpa [heardOn,stepped] using onward

theorem frame_guarded (matched : meshMatchesLocal w.sdata rx.elems = true) : (Event.frame rx room draws).Guarded w := by
  rintro _ _ _ ⟨⟩ mismatch
  rw [matched] at mismatch
  cases mismatch

theorem mismatch_turned_away_sample :
    meshPlinkGetEvent sampleMesh.sdata none (sampleOpen otherMesh).elems .peeringOpen 0 34 ≠ .opnAcpt ∧
    ∃ heard w, Hearing sampleMesh (fun w e => e.Guarded w) heard w ∧ (∃ sta ∈ w.stations, sta.plinkState = .estab) ∧
      ∀ sta ∈ w.stations, sta.plinkState = .estab → (sta.addr,true) ∈ heard := by
  have turned : TurnedAway sampleMesh.sdata none .peeringOpen 0 34 := by
    intro _ same
    cases same
  have fails : meshMatchesLocal sampleMesh.sdata (sampleOpen otherMesh).elems = false := by decide
  have start : Hearing sampleMesh (fun w e => e.Guarded w) [] sampleMesh := .refl
  have beacon : step (.beacon samplePeer (sampleElems sampleMesh.sdata.meshId []) sampleRoom []) sampleMesh =
      some (sampleWorld ((samplePeering sampleMesh.sdata.meshId).take 1)) := by decide
  have opened : step (.frame (sampleOpen sampleMesh.sdata.meshId) sampleRoom [16])
      (sampleWorld ((samplePeering sampleMesh.sdata.meshId).take 1)) =
      some (sampleWorld ((samplePeering sampleMesh.sdata.meshId).take 2)) := by decide
  have confirmed : step (.frame (sampleConfirm sampleMesh.sdata.meshId) sampleRoom [])
      (sampleWorld ((samplePeering sampleMesh.sdata.meshId).take 2)) =
      some (sampleWorld (samplePeering sampleMesh.sdata.meshId)) := by decide
  have hearing := ((start.step (by rintro _ _ _ ⟨⟩) beacon).step
    (frame_guarded (by decide)) opened).step (frame_guarded (by decide)) confirmed
  have frames := mismatch_turned_away sampleMesh.sdata none (sampleOpen otherMesh).elems .peeringOpen 0 34 sampleMesh sampleMesh []
  exact ⟨((frames.1 (.inl fails)).mpr turned).1,_,_,hearing,by decide,
    (mismatch_turned_away sampleMesh.sdata none (sampleOpen otherMesh).elems .peeringOpen 0 34 _ _ _).2 ⟨rfl,rfl,rfl⟩ hearing⟩

theorem mismatch_established :
    meshMatchesLocal sampleMesh.sdata (sampleOpen otherMesh).elems = false ∧
    meshPlinkGetEvent sampleMesh.sdata (some (newSta samplePeer true)) (sampleOpen otherMesh).elems .peeringOpen 0 34
      = .opnAcpt ∧
    ∃ heard w, Hearing sampleMesh (fun _ _ => True) heard w ∧ (∀ frame ∈ heard, frame.2 = false) ∧
      ∃ sta ∈ w.stations, sta.plinkState = .estab := by
  have ran : run (samplePeering otherMesh) sampleMesh = some (sampleWorld (samplePeering otherMesh)) := by decide
  have start : Hearing sampleMesh (fun _ _ => True) [] sampleMesh := .refl
  have hearing := run_hearing start ran
  exact ⟨by decide,by decide,_,_,hearing,by decide,by decide⟩

end Mac80211.MeshPlink

import Mac80211.MeshPlinkTurns

namespace Mac80211.MeshPlink
open Ieee80211

def Event.draws : Event → List UInt16
  | .frame _ _ draws | .beacon _ _ _ draws | .plinkOpen _ draws => draws
  | _ => []

def Event.heardFrame : Event → Option PeeringFrame
  | .frame rx _ _ => some rx
  | _ => none

def Event.peers : Event → Bool
  | .plinkOpen .. | .plinkBlock _ => false
  | _ => true

structure Joined (w mid : World) (sta : StaInfo) : Prop where
  stations : mid.stations = w.stations ++ [sta]
  sent : ∃ fs, mid.sent = w.sent ++ fs ∧ ∀ s ∈ fs, s.closes
  llid : sta.llid = 0
  plid : sta.plid = 0
  inactive : sta.plinkState.active = false
  alone : sta.phase = .listed → ∀ other ∈ w.stations, other.phase = .listed → other.addr ≠ sta.addr

inductive Course (ids : List UInt16) (heard : Option PeeringFrame) (w : World) : World → Prop where
  | still (stations : w'.stations = w.stations) (sent : w'.sent = w.sent ++ fs) (closes : ∀ s ∈ fs, s.closes) : Course ids heard w w'
  | turn (found : w.stations[i]? = some sta) (from_ : ∀ rx, heard = some rx → rx.sa = sta.addr ∧ sta.phase = .listed) (sends : Sends (w.peer sta) p fs)
      (turn : Turn ids heard sta.link p.sta.link fs) : Course ids heard w (w.put i p)

section course
variable {w : World}

theorem Course.idle (w : World) : Course ids heard w w := .still rfl (List.append_nil _).symm fun _ none => by cases none

theorem on_course (ran : w.on i f = some w')
    (turns : ∀ sta q, w.stations[i]? = some sta → f (w.peer sta) = some q → (∀ rx, heard = some rx → rx.sa = sta.addr ∧ sta.phase = .listed) ∧
      ∃ fs, Sends (w.peer sta) q fs ∧ Turn ids heard sta.link q.sta.link fs) : Course ids heard w w' := by
  obtain ⟨sta,found,ran⟩ := Option.bind_eq_some_iff.mp ran
  obtain ⟨q,gave,rfl⟩ := Option.map_eq_some_iff.mp ran
  obtain ⟨from_,_,sends,turn⟩ := turns sta q found gave
  exact .turn found from_ sends turn

theorem when_course (ran : w.on i (Peer.when test f) = some w')
    (turns : ∀ sta q, f (w.peer sta) = some q → ∃ fs, Sends (w.peer sta) q fs ∧ Turn ids none sta.link q.sta.link fs) :
    Course ids none w w' := by
  refine on_course ran fun sta q _ gave => ⟨fun _ none => (by cases none),?_⟩
  unfold Peer.when at gave
  split at gave
  · exact turns sta q gave
  · cases gave

theorem staInfoGet_none (none : w.staInfoGet addr = none) (other : StaInfo) (member : other ∈ w.stations) (listed : other.phase = .listed) :
    other.addr ≠ addr := by
  intro same
  have passed := List.findIdx?_eq_none_iff.mp none other member
  rw [listed,same] at passed
  simp at passed

theorem staInfoInsert_joined (addr : EthAddr) (auth : Bool) (room : Room) : w.staInfoInsert (newSta addr auth) room = (w,none) ∨
    ∃ added, Joined w (w.staInfoInsert (newSta addr auth) room).1 added ∧
      ∀ i, (w.staInfoInsert (newSta addr auth) room).2 = some i → i = w.stations.length ∧ added = newSta addr auth := by
  unfold World.staInfoInsert
  split
  · exact .inl rfl
  split
  · exact .inl rfl
  split
  · exact .inl rfl
  rename_i absent
  have absent : w.staInfoGet addr = none := Option.not_isSome_iff_eq_none.mp absent
  right
  split
  · exact ⟨newSta addr auth,⟨rfl,⟨[],(List.append_nil _).symm,fun _ none => (by cases none)⟩,rfl,rfl,rfl,fun _ => staInfoGet_none absent⟩,
      fun i same => ⟨(Option.some.inj same).symm,rfl⟩⟩
  -- The driver does not take it, so its peering is cleaned up.
  let given := (w.add {newSta addr auth with phase := .freed}).peer {newSta addr auth with phase := .freed}
  have stations : (w.stations ++ [{newSta addr auth with phase := .freed}]).set w.stations.length given.meshStaCleanup.sta = w.stations ++ [given.meshStaCleanup.sta] := by
    simp
  refine ⟨given.meshStaCleanup.sta,⟨stations,?_,?_,?_,?_,?_⟩,fun i same => by cases same⟩
  all_goals
    have cleaned : given.meshStaCleanup.sta.llid = 0 ∧ given.meshStaCleanup.sta.plid = 0 ∧ given.meshStaCleanup.sta.phase = .freed ∧
        given.meshStaCleanup.sta.plinkState.active = false ∧ ∃ fs, given.meshStaCleanup.sent = w.sent ++ fs ∧ ∀ s ∈ fs, s.closes := by
      unfold Peer.meshStaCleanup
      dsimp only
      split
      · exact ⟨rfl,rfl,rfl,rfl,_,rfl,fun s member => by rw [List.mem_singleton.mp member]; rfl⟩
      · exact ⟨rfl,rfl,rfl,rfl,[],(List.append_nil _).symm,fun _ none => by cases none⟩
  · exact cleaned.2.2.2.2
  · exact cleaned.1
  · exact cleaned.2.1
  · exact cleaned.2.2.2.1
  · intro listed
    rw [cleaned.2.2.1] at listed
    cases listed

theorem meshStaInfoGet_joined (got : w.meshStaInfoGet addr room = (mid,r)) : (mid = w ∨ ∃ added, Joined w mid added) ∧
      ∀ i, r = some i → (mid = w ∧ w.staInfoGet addr = some i) ∨ mid.stations[i]? = some (newSta addr true) := by
  rcases meshStaInfoGet_cases got with ⟨rfl,found⟩ | inserted
  · exact ⟨.inl rfl,fun i same => .inl ⟨rfl,found i same⟩⟩
  rcases staInfoInsert_joined (w := w) addr true room with refused | ⟨added,new,listed⟩
  · rw [refused] at inserted
    cases inserted
    exact ⟨.inl rfl,fun i none => by cases none⟩
  · rw [inserted] at new listed
    refine ⟨.inr ⟨added,new⟩,fun i same => .inr ?_⟩
    obtain ⟨rfl,rfl⟩ := listed i same
    rw [new.stations]
    simp

theorem event_open
    (event : meshPlinkGetEvent sdata known elems ftype llid plid = .opnAcpt) :
    ftype = .peeringOpen ∧ ∀ sta, known = some sta → sta.plid = 0 ∨ sta.plid = plid := by
  unfold meshPlinkGetEvent at event
  cases known with
  | none =>
    dsimp only at event
    split at event
    · cases event
    split at event
    · cases event
    rename_i opens
    exact ⟨by simpa using opens,fun _ none => by cases none⟩
  | some sta =>
    dsimp only at event
    split at event
    · cases event
    split at event
    · cases event
    cases ftype with
    | peeringOpen =>
      refine ⟨rfl,fun other same => ?_⟩
      cases same
      dsimp only at event
      split at event
      · cases event
      · rename_i fits
        by_cases zero : sta.plid = 0
        · exact .inl zero
        · by_cases same : sta.plid = plid
          · exact .inr same
          · simp [zero,same] at fits
    | peeringConfirm =>
      dsimp only at event
      split at event <;> cases event
    | peeringClose =>
      dsimp only at event
      split at event
      · cases event
      split at event
      · cases event
      split at event <;> cases event

theorem event_confirm
    (event : meshPlinkGetEvent sdata (some sta) elems ftype llid plid = .cnfAcpt) :
    ftype = .peeringConfirm ∧ sta.llid = llid ∧ (sta.plid = 0 ∨ sta.plid = plid) := by
  unfold meshPlinkGetEvent at event
  dsimp only at event
  split at event
  · cases event
  split at event
  · cases event
  cases ftype with
  | peeringOpen =>
    dsimp only at event
    split at event <;> cases event
  | peeringConfirm =>
    dsimp only at event
    split at event
    · cases event
    · rename_i fits
      by_cases own : sta.llid = llid
      · refine ⟨rfl,own,?_⟩
        by_cases zero : sta.plid = 0
        · exact .inl zero
        · by_cases same : sta.plid = plid
          · exact .inr same
          · simp [own,zero,same] at fits
      · simp [own] at fits
  | peeringClose =>
    dsimp only at event
    split at event
    · cases event
    split at event
    · cases event
    split at event <;> cases event

theorem neighbour_course (ran : w.meshNeighbourUpdate addr elems room draws = some w') :
    ∃ mid, (mid = w ∨ ∃ added, Joined w mid added) ∧ Course (drawnIds draws) none mid w' := by
  unfold World.meshNeighbourUpdate at ran
  split at ran
  · rename_i mid got
    cases ran
    exact ⟨_,(meshStaInfoGet_joined got).1,.idle _⟩
  · rename_i mid i got
    refine ⟨mid,(meshStaInfoGet_joined got).1,on_course ran fun sta q _ updated => ⟨fun _ none => (by cases none),?_⟩⟩
    split at updated
    · rename_i ready
      simp only [Bool.and_eq_true,beq_iff_eq] at ready
      exact open_turn ready.1.1.1.2 updated
    · cases updated
      exact stay_turn rfl sta.phase id rfl

theorem process_course (ran : w.meshProcessPlinkFrame rx room draws = some w') :
    ∃ mid, (mid = w ∨ ∃ added, Joined w mid added) ∧ Course (drawnIds draws) (some rx) mid w' := by
  unfold World.meshProcessPlinkFrame at ran
  split at ran
  · cases ran
    exact ⟨w,.inl rfl,.idle w⟩
  dsimp only at ran
  split at ran
  · cases ran
    exact ⟨w,.inl rfl,.idle w⟩
  split at ran
  · rename_i accepted
    obtain ⟨opens,known⟩ := event_open (beq_iff_eq.mp accepted)
    rw [beq_iff_eq.mp accepted] at ran
    split at ran
    · rename_i mid got
      cases ran
      exact ⟨_,(meshStaInfoGet_joined got).1,.idle _⟩
    rename_i mid i got
    obtain ⟨added,named⟩ := meshStaInfoGet_joined got
    refine ⟨mid,added,on_course ran fun sta q found stepped => ?_⟩
    -- The station is the one that was found, or a new one that knows no id yet.
    have fits : (rx.sa = sta.addr ∧ sta.phase = .listed) ∧ (sta.plid = 0 ∨ sta.plid = rx.plid) := by
      rcases named i rfl with ⟨rfl,got⟩ | new
      · obtain ⟨other,member,listed,addr⟩ := staInfoGet_found got
        cases Option.some.inj (member.symm.trans found)
        refine ⟨⟨addr.symm,listed⟩,known sta ?_⟩
        rw [got]
        exact member
      · cases Option.some.inj (new.symm.trans found)
        exact ⟨⟨rfl,rfl⟩,.inl rfl⟩
    refine ⟨fun other same => ?_,opnAcpt_turn opens fits.2 stepped⟩
    cases same
    exact fits.1
  rename_i other
  split at ran
  · split at ran
    · cases ran
      exact ⟨w,.inl rfl,.still rfl rfl fun s member => by rw [List.mem_singleton.mp member]; rfl⟩
    · cases ran
      exact ⟨w,.inl rfl,.idle w⟩
  rename_i i got
  split at ran
  · cases ran
    exact ⟨w,.inl rfl,.idle w⟩
  obtain ⟨known,member,listed,addr⟩ := staInfoGet_found got
  refine ⟨w,.inl rfl,on_course ran fun sta q found stepped => ?_⟩
  cases Option.some.inj (member.symm.trans found)
  refine ⟨fun other same => ?_,?_⟩
  · cases same
    exact ⟨addr.symm,listed⟩
  generalize given : meshPlinkGetEvent w.sdata ((w.staInfoGet rx.sa).bind (w.stations[·]?)) rx.elems rx.action rx.llid rx.plid = event
    at stepped other
  rw [got,Option.bind_some,member] at given
  by_cases confirms : event = .cnfAcpt
  · rw [confirms] at stepped given
    have confirms := given
    obtain ⟨confirms,own,fits⟩ := event_confirm confirms
    refine cnfAcpt_turn confirms own fits ?_ ?_ stepped
    · split
      · rfl
      · rename_i set
        rcases fits with zero | same
        · have zero : (w.peer known).sta.plid = 0 := zero
          rw [zero] at set
          exact absurd rfl set
        · rw [← same]
          rfl
    · split <;> rfl
  · refine other_turn (fun opens => other (beq_iff_eq.mpr opens)) confirms ?_
    split at stepped
    · rename_i both
      exact absurd (beq_iff_eq.mp (Bool.and_eq_true_iff.mp both).2) confirms
    · exact stepped

theorem step_course (ran : step e w = some w') (peers : e.peers = true) :
    ∃ mid, (mid = w ∨ ∃ added, Joined w mid added) ∧ Course (drawnIds e.draws) e.heardFrame mid w' := by
  have alone : Course (drawnIds e.draws) e.heardFrame w w' → ∃ mid, (mid = w ∨ ∃ added, Joined w mid added) ∧
      Course (drawnIds e.draws) e.heardFrame mid w' := fun course => ⟨w,.inl rfl,course⟩
  cases e with
  | frame =>
    simp only [step,World.meshRxPlinkFrame] at ran
    split at ran
    · cases ran
      exact alone (.idle w)
    split at ran
    · cases ran
      exact alone (.idle w)
    exact process_course ran
  | beacon =>
    simp only [step] at ran
    split at ran
    · exact neighbour_course ran
    · cases ran
      exact alone (.idle w)
  | plinkOpen | plinkBlock => cases peers
  | plinkDeactivate =>
    refine alone (when_course ran fun sta q deactivated => ?_)
    cases deactivated
    exact deactivate_turn (w.peer sta) sta.phase id rfl rfl (by rw [deactivate_link]; rfl) rfl
  | addStation addr auth room =>
    cases ran
    rcases staInfoInsert_joined (w := w) addr auth room with refused | ⟨added,new,_⟩
    · refine alone ?_
      rw [refused]
      exact .idle w
    · exact ⟨_,.inr ⟨added,new⟩,.idle _⟩
  | setAuth | setSignal =>
    refine alone (when_course ran fun sta q set => ?_)
    cases set
    exact stay_turn rfl sta.phase id rfl
  | unlink =>
    refine alone (when_course ran fun sta q unlinked => ?_)
    cases unlinked
    exact stay_turn rfl .unlinked (fun listed => by cases listed) rfl
  | destroy =>
    refine alone (when_course ran fun sta q destroyed => ?_)
    cases destroyed
    unfold Peer.meshStaCleanup
    dsimp only
    split
    · exact deactivate_turn (r := {w.peer sta with numSta := (w.peer sta).numSta - 1,sdata := meshAcceptPlinksUpdate w.sdata ((w.peer sta).numSta - 1)})
        (w.peer sta) .freed (fun listed => by cases listed) rfl rfl rfl rfl
    · exact stay_turn rfl .freed (fun listed => by cases listed) rfl
  | expire =>
    refine alone (when_course ran fun sta q expired => ?_)
    split at expired
    · cases expired
      exact stay_turn rfl sta.phase id rfl
    · cases expired
  | handler i rand =>
    refine alone (when_course ran fun sta q handled => ?_)
    split at handled
    · exact handler_turn rand (Option.some.inj handled)
    · cases handled
  | tick =>
    simp only [step] at ran
    split at ran
    · cases ran
      exact alone (.still rfl (List.append_nil _).symm fun _ none => by cases none)
    · cases ran
  | quiesce | config | stations =>
    cases ran
    exact alone (.still rfl (List.append_nil _).symm fun _ none => by cases none)

end course

end Mac80211.MeshPlink

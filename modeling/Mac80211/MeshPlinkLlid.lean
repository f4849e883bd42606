import Mac80211.MeshPlinkMoves

namespace Mac80211.MeshPlink

def PlinkState.keeps (state : PlinkState) : Bool := state != .listen && state != .holding

def Event.Opens (e : Event) (i : Nat) (sta : StaInfo) : Prop := ∃ draws, e = .plinkOpen i draws ∧ sta.auth = true

-- The link since the step in which it left LISTEN, no open request having reached it.
inductive Instance (start : World) (i : Nat) : UInt16 → World → Prop where
  | left (prior : Reach start w) (was : ∀ sta, w.stations[i]? = some sta → sta.plinkState.keeps = false)
      (ran : step e w = some w') (found : w'.stations[i]? = some sta) (keeps : sta.plinkState.keeps = true) :
      Instance start i sta.llid w'
  | stay (prior : Instance start i llid w) (ran : step e w = some w')
      (met : ∀ sta, w.stations[i]? = some sta → ¬ e.Opens i sta)
      (found : w'.stations[i]? = some sta) (keeps : sta.plinkState.keeps = true) : Instance start i llid w'

theorem moves_llid (moves : Moves why now llids v v') (keeps : v.state.keeps = true) (asked : ¬ why.opens) :
    v'.llid = v.llid := by
  simp only [PlinkState.keeps,Bool.and_eq_true,bne_iff_ne] at keeps
  cases moves with
  | idle => rfl
  | relisten was => exact absurd was keeps.1
  | release was => exact absurd was keeps.2
  | start was =>
    rcases was with listen | ⟨opens,_⟩
    · exact absurd listen keeps.1
    · exact absurd opens asked
  | relabel opens => exact absurd opens asked
  | receive => rfl
  | rearm => rfl
  | establish => rfl
  | close => rfl
  | block => rfl
  | unlink => rfl
  | clean => rfl
  | leave => rfl
  | expire => rfl
  | ignore => rfl

variable {w : World}

theorem llid_listed (member : sta ∈ w.stations) (listed : sta.listed = true) : sta.llid ∈ w.staList := by
  apply List.mem_append_left
  apply List.mem_map_of_mem
  exact List.mem_filter.mpr ⟨member,listed⟩

theorem open_llid {p : Peer} (auth : p.sta.auth = true) (ran : p.meshPlinkOpen draws = some q) : q.sta.llid ∉ p.llids := by
  unfold Peer.meshPlinkOpen at ran
  simp only [auth,Bool.not_true,Bool.false_eq_true,if_false] at ran
  obtain ⟨_,drawn,rfl⟩ := Option.map_eq_some_iff.mp ran
  have fresh := meshGetNewLlid_fresh drawn
  split
  · exact fresh
  · exact fresh

theorem step_llid (ran : step e w = some w') (found : w.stations[i]? = some sta) (keeps : sta.plinkState.keeps = true)
    (asked : ¬ e.Opens i sta) : ∃ sta', w'.stations[i]? = some sta' ∧ sta'.llid = sta.llid := by
  obtain ⟨mid,before,effect⟩ := step_effect ran
  have kept : mid.stations[i]? = some sta := by
    rcases before with rfl | ⟨_,_,new⟩
    · exact found
    · rw [new.stations,List.getElem?_append_left (List.getElem?_eq_some_iff.mp found).1]
      exact found
  cases effect with
  | still still => exact ⟨sta,by rw [still.stations]; exact kept,rfl⟩
  | @move j other p there alive moves =>
    by_cases same : j = i
    · subst same
      cases Option.some.inj (kept.symm.trans there)
      refine ⟨p.sta,?_,?_⟩
      · exact List.getElem?_set_self (List.getElem?_eq_some_iff.mp kept).1
      · exact moves_llid moves keeps asked
    · refine ⟨sta,?_,rfl⟩
      show (mid.stations.set j p.sta)[i]? = some sta
      rw [List.getElem?_set_ne same]
      exact kept

theorem open_step_llid (ran : step e w = some w') (found : w.stations[i]? = some sta) (asked : e.Opens i sta) :
    ∃ sta', w'.stations[i]? = some sta' ∧ sta'.llid ≠ sta.llid := by
  obtain ⟨_,rfl,auth⟩ := asked
  obtain ⟨_,there,ran⟩ := Option.bind_eq_some_iff.mp ran
  cases Option.some.inj (found.symm.trans there)
  obtain ⟨q,opened,rfl⟩ := Option.map_eq_some_iff.mp ran
  unfold Peer.when at opened
  split at opened
  · rename_i listed
    refine ⟨q.sta,List.getElem?_set_self (List.getElem?_eq_some_iff.mp found).1,?_⟩
    intro kept
    apply open_llid (p := w.peer sta) auth opened
    rw [kept]
    exact llid_listed (List.mem_of_getElem? found) listed
  · cases opened

theorem instance_kept (kept : Instance start i llid w) :
    ∃ sta, w.stations[i]? = some sta ∧ sta.plinkState.keeps = true ∧ sta.llid = llid := by
  induction kept with
  | left prior was ran found keeps => exact ⟨_,found,keeps,rfl⟩
  | stay prior ran met found keeps ih =>
    obtain ⟨sta,there,kept,same⟩ := ih
    obtain ⟨_,arrived,llid⟩ := step_llid ran there kept (met sta there)
    cases Option.some.inj (arrived.symm.trans found)
    exact ⟨_,arrived,keeps,llid.trans same⟩

theorem llid_kept (start w : World) (i : Nat) (sta : StaInfo) (found : w.stations[i]? = some sta) :
    (∀ e w', step e w = some w' → sta.plinkState.keeps = true →
      ∃ sta', w'.stations[i]? = some sta' ∧ (sta'.llid = sta.llid ↔ ¬ e.Opens i sta)) ∧
    (∀ llid, Instance start i llid w → sta.llid = llid) := by
  constructor
  · intro e _ ran keeps
    by_cases asked : e.Opens i sta
    · obtain ⟨sta',there,changed⟩ := open_step_llid ran found asked
      exact ⟨sta',there,fun same => absurd same changed,fun unasked => absurd asked unasked⟩
    · obtain ⟨sta',there,same⟩ := step_llid ran found keeps asked
      exact ⟨sta',there,fun _ => asked,fun _ => same⟩
  · intro _ kept
    obtain ⟨_,there,_,same⟩ := instance_kept kept
    cases Option.some.inj (there.symm.trans found)
    exact same

theorem llid_kept_sample : ∃ sta sta', (sampleWorld sampleAsked).stations[0]? = some sta ∧
    (sampleWorld (sampleAsked ++ [.tick 1001])).stations[0]? = some sta' ∧
    (sta'.llid = sta.llid ↔ ¬ (Event.tick 1001).Opens 0 sta) ∧ sta'.llid = 17 := by
  have ticked : step (.tick 1001) (sampleWorld sampleAsked) = some (sampleWorld (sampleAsked ++ [.tick 1001])) := by
    decide
  have left : Instance sampleMesh 0 17 (sampleWorld sampleAsked) := by
    have found : (sampleWorld sampleAsked).stations[0]? = some {newSta samplePeer true with
        plinkState := .opnSnt,llid := 17,plinkTimeout := 100,plinkTimer := ⟨true,1025,false⟩} := by decide
    refine .left (Reach.refl.step sample_added) ?_ sample_opened found rfl
    intro sta found
    cases found
    rfl
  have kept : Instance sampleMesh 0 17 (sampleWorld (sampleAsked ++ [.tick 1001])) := by
    have found : (sampleWorld (sampleAsked ++ [.tick 1001])).stations[0]? = some {newSta samplePeer true with
        plinkState := .opnSnt,llid := 17,plinkTimeout := 100,plinkTimer := ⟨true,1025,false⟩} := by decide
    refine .stay left ticked ?_ found rfl
    rintro _ there ⟨_,⟨⟩,_⟩
  obtain ⟨sta',there,exact'⟩ := (llid_kept sampleMesh (sampleWorld sampleAsked) 0 _ rfl).1 _ _ ticked rfl
  exact ⟨_,sta',rfl,there,exact',(llid_kept sampleMesh _ 0 sta' there).2 17 kept⟩

theorem llid_changed : ∃ before sta sta', Reach sampleMesh (sampleWorld (sampleAsked.take 1)) ∧
    (sampleWorld (sampleAsked.take 1)).stations[0]? = some before ∧ before.plinkState = .listen ∧
    step (.plinkOpen 0 [16]) (sampleWorld (sampleAsked.take 1)) = some (sampleWorld sampleAsked) ∧
    (sampleWorld sampleAsked).stations[0]? = some sta ∧ sta.plinkState = .opnSnt ∧ sta.llid = 17 ∧
    step (.plinkOpen 0 [40]) (sampleWorld sampleAsked) = some (sampleWorld (sampleAsked ++ [.plinkOpen 0 [40]])) ∧
    (sampleWorld (sampleAsked ++ [.plinkOpen 0 [40]])).stations[0]? = some sta' ∧ sta'.plinkState = .opnSnt ∧
    sta'.llid = 41 := by
  refine ⟨_,_,_,Reach.refl.step sample_added,rfl,rfl,sample_opened,rfl,rfl,rfl,?_,rfl,rfl,rfl⟩
  decide

end Mac80211.MeshPlink

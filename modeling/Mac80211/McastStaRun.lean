import Mac80211.McastSta

namespace Mac80211.McastSta
open Tally
open Function (update_of_ne update_self)

def StaState.moved (old new : StaState) : StaState := if allowedMove old new then new else old

def StaState.reached (moves : List StaState) : StaState := moves.foldl StaState.moved .staNone

def World.right (w : World) (d : Nat) : Prop := w.countsOn d = !(w.sdata d).type.is4addr

def World.rightWithout (w : World) (s d : Nat) : Prop :=
  ((w.sdata d).type.vlanSta.isNone || (w.sdata d).type.vlanSta == some s) = !(w.sdata d).type.is4addr

def World.busy (w : World) (t : Nat) : Bool := (w.sdata t).type.is4addr && (w.sdata t).type.vlanSta.isSome

def World.fair (w : World) : Event → Prop
  | .add s d moves inserted =>
    s ∉ w.stations → StaState.reached moves = .staAuthorized → w.countsOn d = (inserted && !(w.sdata d).type.is4addr)
  | .move s new accept =>
    s ∈ w.stations → accept → allowedMove (w.sta s).state new → ((w.sta s).state = .staAuthorized ∨ new = .staAuthorized) →
      w.right (w.sta s).sdata
  | .changeVlan s t =>
    s ∈ w.stations → t ≠ (w.sta s).sdata → w.busy t = false → (w.sta s).state = .staAuthorized →
      w.right (w.sta s).sdata ∧ ((w.sdata t).bss = (w.sdata (w.sta s).sdata).bss ∨ (w.sdata (w.sta s).sdata).type.is4addr)
  | .changeIface d use4addr =>
    (w.sdata d).type = .ap ∨ (w.sdata d).type.is4addr = use4addr ∨
      ∀ s ∈ w.stations, (w.sta s).sdata = d → (w.sta s).state ≠ .staAuthorized
  | .destroy s accept =>
    s ∈ w.stations → (w.sta s).state = .staAuthorized →
      if accept .staAssoc then w.rightWithout s (w.sta s).sdata else (w.sdata (w.sta s).sdata).type.is4addr

section types
variable {w : World}

theorem setType_self (w : World) (d : Nat) (type : SdataType) : (w.setType d type).sdata d = ⟨type,(w.sdata d).bss⟩ :=
  update_self ..

theorem setType_other (type : SdataType) (apart : i ≠ d) : (w.setType d type).sdata i = w.sdata i :=
  update_of_ne apart ..

theorem setType_bss (w : World) (d i : Nat) (type : SdataType) : ((w.setType d type).sdata i).bss = (w.sdata i).bss := by
  by_cases here : i = d
  · rw [here,setType_self]
  · rw [setType_other type here]

theorem setType_due (w : World) (d i : Nat) (type : SdataType) (same : type.is4addr = (w.sdata d).type.is4addr) :
    (w.setType d type).due i = w.due i := by
  unfold World.due
  by_cases here : i = d
  · rw [here,setType_self,same]
  · rw [setType_other type here]

structure Retyped (w after : World) : Prop where
  stations : after.stations = w.stations
  sta : after.sta = w.sta
  num : after.numMcastSta = w.numMcastSta
  bss : ∀ d, (after.sdata d).bss = (w.sdata d).bss
  due : ∀ d, after.due d = w.due d

theorem retyped_refl (w : World) : Retyped w w := ⟨rfl,rfl,rfl,fun _ => rfl,fun _ => rfl⟩

theorem Retyped.trans (first : Retyped w mid) (second : Retyped mid after) : Retyped w after where
  stations := second.stations.trans first.stations
  sta := second.sta.trans first.sta
  num := second.num.trans first.num
  bss d := (second.bss d).trans (first.bss d)
  due d := (second.due d).trans (first.due d)

theorem setType_retyped (type : SdataType) (same : type.is4addr = (w.sdata d).type.is4addr) : Retyped w (w.setType d type) :=
  ⟨rfl,rfl,rfl,fun i => setType_bss w d i type,fun i => setType_due w d i type same⟩

end types

section states

theorem moveState_state (w : World) (s : Nat) (new : StaState) (accept : Bool) :
    ((moveState w s new accept).1.sta s).state = if accept then (w.sta s).state.moved new else (w.sta s).state := by
  have set : ∀ v : World, v.sta = (w.setSta s {w.sta s with state := new}).sta → (v.sta s).state = new := by
    intro v same
    rw [same]
    unfold World.setSta
    dsimp only
    rw [update_self]
  unfold moveState StaState.moved
  by_cases same : (w.sta s).state = new
  · rw [if_pos same,same,ite_self,ite_self]
  rw [if_neg same]
  cases allowed : allowedMove (w.sta s).state new with
  | false => rw [Bool.not_false,if_pos rfl,if_neg Bool.false_ne_true,ite_self]
  | true =>
    rw [Bool.not_true,if_neg Bool.false_ne_true,if_pos rfl]
    cases accept with
    | false => rw [Bool.not_false,if_pos rfl,if_neg Bool.false_ne_true]
    | true =>
      rw [Bool.not_true,if_neg Bool.false_ne_true,if_pos rfl]
      split
      · split <;> exact set _ rfl
      · split
        · split <;> exact set _ rfl
        · exact set _ rfl

theorem moveState_ok (w : World) (s : Nat) (new : StaState) (accept : Bool) (apart : (w.sta s).state ≠ new)
    (allowed : allowedMove (w.sta s).state new = true) : (moveState w s new accept).2 = accept := by
  unfold moveState
  rw [if_neg apart,allowed,Bool.not_true,if_neg Bool.false_ne_true]
  cases accept with
  | false => rfl
  | true =>
    rw [Bool.not_true,if_neg Bool.false_ne_true]
    split
    · rfl
    · split <;> rfl

theorem moves_fold (s : Nat) (moves : List StaState) (w : World) :
    Moves w s (moves.foldl (fun w new => (moveState w s new true).1) w) ∧
      ((moves.foldl (fun w new => (moveState w s new true).1) w).sta s).state = moves.foldl StaState.moved (w.sta s).state := by
  induction moves generalizing w with
  | nil => exact ⟨moves_refl w s,rfl⟩
  | cons new rest ih =>
    obtain ⟨moves,state⟩ := ih (moveState w s new true).1
    rw [moveState_state,if_pos rfl] at state
    exact ⟨(moveState_moves w s new true).trans moves,state⟩

section
variable (s : Nat) (accept : StaState → Bool)

theorem moveDown_moves (turns : Nat) (w : World) : Moves w s (moveDown s accept turns w) := by
  induction turns generalizing w with
  | zero => exact moves_refl w s
  | succ turns ih =>
    unfold moveDown
    dsimp only
    split
    · exact moves_refl w s
    · split
      · exact (moveState_moves ..).trans (ih _)
      · exact moveState_moves ..

theorem moveDown_low (turns : Nat) (w : World) (low : (w.sta s).state ≠ .staAuthorized) :
    ((moveDown s accept turns w).sta s).state ≠ .staAuthorized := by
  have step : ∀ w : World, (w.sta s).state ≠ .staAuthorized →
      ((moveState w s (w.sta s).state.below (accept (w.sta s).state.below)).1.sta s).state ≠ .staAuthorized := by
    intro w low
    rw [moveState_state]
    revert low
    cases (w.sta s).state <;> intro low <;> split <;> first | exact absurd rfl low | decide
  induction turns generalizing w with
  | zero => exact low
  | succ turns ih =>
    unfold moveDown
    dsimp only
    split
    · exact low
    · split
      · exact ih _ (step w low)
      · exact step w low

theorem moveDown_rank (w : World) (high : (w.sta s).state = .staAuthorized) :
    ((moveDown s accept 3 w).sta s).state.rank = one (!accept .staAssoc) := by
  have allowed : allowedMove (w.sta s).state .staAssoc = true := by rw [high]; rfl
  have apart : (w.sta s).state ≠ .staAssoc := by rw [high]; decide
  have first : ((moveState w s .staAssoc (accept .staAssoc)).1.sta s).state =
      if accept .staAssoc then .staAssoc else .staAuthorized := by
    rw [moveState_state,StaState.moved,if_pos allowed,high]
  have answer : (moveState w s .staAssoc (accept .staAssoc)).2 = accept .staAssoc := moveState_ok w s .staAssoc _ apart allowed
  unfold moveDown
  dsimp only
  rw [if_neg (by rw [high]; decide),high]
  rw [show StaState.below .staAuthorized = .staAssoc from rfl,answer]
  cases accepted : accept .staAssoc with
  | false =>
    rw [accepted,if_neg Bool.false_ne_true] at first
    rw [if_neg Bool.false_ne_true,first]
    rfl
  | true =>
    rw [accepted,if_pos rfl] at first
    rw [if_pos rfl]
    have low := moveDown_low s accept 2 (moveState w s .staAssoc true).1 (by rw [first]; decide)
    unfold StaState.rank
    rw [beq_eq_false_iff_ne.mpr low]
    rfl

end

end states

section balance
variable {w after : World}

theorem shift_balanced (balanced : w.balanced) (n : Nat → Int) (shift : ∀ bss, after.excess bss = w.excess bss + n bss) :
    after.balanced ↔ ∀ bss, n bss = 0 := by
  rw [balanced_iff] at balanced ⊢
  exact forall_congr' fun bss => by rw [shift,balanced,Int.zero_add]

theorem at_zero (c : Nat) (n : Int) : (∀ bss, (if c = bss then n else 0) = 0) ↔ n = 0 := by
  refine ⟨fun each => by simpa using each c,fun zero bss => ?_⟩
  rw [zero,ite_self]

theorem receivers_at (nodup : w.stations.Nodup) (member : s ∈ w.stations) (bss : Nat) (list : after.stations = w.stations)
    (same : ∀ i, i ≠ s → after.share bss i = w.share bss i) :
    (after.receivers bss : Int) = w.receivers bss - w.share bss s + after.share bss s := by
  rw [receivers_total,receivers_total,list]
  exact total_change nodup member fun i _ apart => same i apart

theorem receivers_list (w : World) (list : List Nat) (bss : Nat) :
    (({w with stations := list} : World).receivers bss : Int) = total (w.share bss) list :=
  receivers_total _ bss

theorem share_same (bss i : Nat) (sta : after.sta i = w.sta i) (sdata : after.sdata = w.sdata) : after.share bss i = w.share bss i := by
  unfold World.share World.receives
  rw [sta,sdata]

-- A move counts what the interface is taken for: wrong by how far that is from what it stands for.
theorem Moves.excess (moves : Moves w s after) (nodup : w.stations.Nodup) (member : s ∈ w.stations) (bss : Nat) :
    after.excess bss = w.excess bss + if (w.sdata (w.sta s).sdata).bss = bss then
      ((after.sta s).state.rank - (w.sta s).state.rank) * (w.taken (w.sta s).sdata - w.due (w.sta s).sdata) else 0 := by
  have due : after.due (w.sta s).sdata = w.due (w.sta s).sdata := by
    unfold World.due
    rw [moves.sdata]
  have share := receivers_at nodup member bss moves.stations fun i apart => share_same bss i (moves.other i apart) moves.sdata
  rw [share_eq,share_eq,moves.place,moves.sdata,due] at share
  unfold World.excess
  rw [moves.num,share]
  split
  · rw [Int.mul_sub,Int.sub_mul,Int.sub_mul]
    omega
  · omega

theorem one_sub (a b : Bool) : one a - one b = 0 ↔ a = b := by
  cases a <;> cases b <;> decide

theorem pair_zero (c e : Nat) (a b : Bool) :
    (∀ n, (if c = n then one a else 0) - (if e = n then one b else 0) = 0) ↔ b = a ∧ (e = c ∨ !a) := by
  constructor
  · intro each
    have atC := each c
    have atE := each e
    rw [if_pos rfl] at atC atE
    by_cases same : e = c
    · subst same
      rw [if_pos rfl,one_sub] at atC
      exact ⟨atC.symm,.inl rfl⟩
    · rw [if_neg same] at atC
      revert atC atE
      cases a <;> cases b <;> simp [one]
  · rintro ⟨rfl,place⟩ n
    rcases place with same | nothing
    · rw [same,Int.sub_self]
    · rw [Bool.not_eq_true'] at nothing
      rw [nothing,show one false = 0 from rfl,ite_self,ite_self,Int.sub_self]

theorem rank_moved (old new : StaState) (accept : Bool) : (if accept then old.moved new else old).rank - old.rank = 0 ↔
      ¬(accept = true ∧ allowedMove old new = true ∧ (old = .staAuthorized ∨ new = .staAuthorized)) := by
  cases old <;> cases new <;> cases accept <;> decide

theorem move_balanced (balanced : w.balanced) (nodup : w.stations.Nodup) (s : Nat) (new : StaState) (accept : Bool) :
    (step w (.move s new accept)).balanced ↔ w.fair (.move s new accept) := by
  unfold step World.fair
  dsimp only
  split
  · rename_i member
    have moves := moveState_moves w s new accept
    rw [shift_balanced balanced _ (moves.excess nodup member),at_zero,Int.mul_eq_zero,moveState_state,rank_moved]
    unfold World.taken World.due World.right
    rw [one_sub]
    tauto
  · rename_i absent
    exact ⟨fun _ member => absurd member absent,fun _ => balanced⟩

theorem add_balanced (balanced : w.balanced) (s d : Nat) (moves : List StaState) (inserted : Bool) :
    (step w (.add s d moves inserted)).balanced ↔ w.fair (.add s d moves inserted) := by
  unfold step World.fair addStation
  dsimp only
  split
  · rename_i member
    exact ⟨fun _ absent => absurd member absent,fun _ => balanced⟩
  rename_i absent
  obtain ⟨moved,state⟩ := moves_fold s moves (w.setSta s ⟨d,.staNone⟩)
  generalize moves.foldl (fun w new => (moveState w s new true).1) (w.setSta s ⟨d,.staNone⟩) = last at moved state
  have fresh : (w.setSta s ⟨d,.staNone⟩).sta s = ⟨d,.staNone⟩ := update_self ..
  have num := moved.num
  rw [fresh] at state num
  have place : (last.sta s).sdata = d := moved.place.trans (congrArg StaInfo.sdata fresh)
  have others : ∀ bss, total (last.share bss) w.stations = w.receivers bss := by
    intro bss
    rw [receivers_total]
    refine total_congr fun i member => share_same bss i ?_ moved.sdata
    have apart : i ≠ s := fun same => absent (same ▸ member)
    exact (moved.other i apart).trans (update_of_ne apart ..)
  have shift : ∀ bss, (if inserted then {last with stations := s :: last.stations} else last).excess bss = w.excess bss +
      if (w.sdata d).bss = bss then (StaState.reached moves).rank * (w.taken d - one (inserted && !(w.sdata d).type.is4addr)) else 0 := by
    intro bss
    have count : last.numMcastSta bss = w.numMcastSta bss +
        if (w.sdata d).bss = bss then (StaState.reached moves).rank * w.taken d else 0 := by
      have moved := num bss
      rw [state,show StaState.rank .staNone = 0 from rfl,Int.sub_zero] at moved
      exact moved
    have new : last.share bss s = if (w.sdata d).bss = bss then (StaState.reached moves).rank * w.due d else 0 := by
      have share := share_eq last bss s
      unfold World.due at share
      rw [place,moved.sdata,state] at share
      exact share
    cases inserted with
    | false =>
      rw [if_neg Bool.false_ne_true,Bool.false_and]
      unfold World.excess
      rw [receivers_total last,moved.stations,count]
      rw [show (w.setSta s ⟨d,.staNone⟩).stations = w.stations from rfl,others]
      rw [show one false = 0 from rfl,Int.sub_zero]
      omega
    | true =>
      rw [if_pos rfl,Bool.true_and]
      have old : total (last.share bss) last.stations = w.receivers bss := by
        rw [moved.stations]
        exact others bss
      unfold World.excess
      rw [receivers_list,total_cons,old,new,Int.mul_sub]
      dsimp only
      unfold World.due
      split <;> omega
  rw [shift_balanced balanced _ shift,at_zero,Int.mul_eq_zero]
  unfold World.taken
  rw [one_sub]
  have authorized : one (StaState.reached moves == .staAuthorized) = 0 ↔ StaState.reached moves ≠ .staAuthorized := by
    cases StaState.reached moves <;> decide
  tauto

theorem destroyPart1_retyped (w : World) (s : Nat) : Retyped w (destroyPart1 w s) := by
  unfold destroyPart1
  dsimp only
  split
  · exact setType_retyped _ rfl
  · exact retyped_refl w

theorem destroyPart1_taken (w : World) (s : Nat) : (destroyPart1 w s).countsOn (w.sta s).sdata =
      ((w.sdata (w.sta s).sdata).type.vlanSta.isNone || (w.sdata (w.sta s).sdata).type.vlanSta == some s) := by
  unfold destroyPart1 World.countsOn World.setType
  dsimp only
  split
  · rename_i held
    dsimp only
    rw [update_self,held,beq_self_eq_true,Bool.or_true]
    rfl
  · rename_i free
    rw [beq_eq_false_iff_ne.mpr free,Bool.or_false]

theorem destroy_balanced (balanced : w.balanced) (nodup : w.stations.Nodup) (s : Nat) (accept : StaState → Bool) :
    (step w (.destroy s accept)).balanced ↔ w.fair (.destroy s accept) := by
  unfold step World.fair destroy
  dsimp only
  split
  · rename_i member
    obtain ⟨stations,sta,num,bss,due⟩ := destroyPart1_retyped w s
    have taken := destroyPart1_taken w s
    generalize destroyPart1 w s = mid at stations sta num bss due taken
    have down := moveDown_moves s accept 3 mid
    have low := moveDown_low s accept 3 mid
    have high := moveDown_rank s accept mid
    generalize moveDown s accept 3 mid = last at down low high
    rw [sta] at low high
    have shift : ∀ b, ({last with stations := last.stations.erase s} : World).excess b = w.excess b +
        if (w.sdata (w.sta s).sdata).bss = b then
          ((last.sta s).state.rank - (w.sta s).state.rank) * mid.taken (w.sta s).sdata + (w.sta s).state.rank * w.due (w.sta s).sdata else 0 := by
      intro b
      have moved := down.excess (stations ▸ nodup) (stations ▸ member) b
      have part := share_eq last b s
      have same : ∀ d, last.due d = mid.due d := fun d => by
        unfold World.due
        rw [down.sdata]
      have before : mid.excess b = w.excess b := by
        unfold World.excess
        rw [num,receivers_total,receivers_total,stations]
        refine congrArg _ (total_congr fun i _ => ?_)
        rw [share_eq,share_eq,sta,bss,due]
      rw [same,down.place,down.sdata,sta,bss,due] at part
      rw [sta,bss,due,before] at moved
      have erased : (({last with stations := last.stations.erase s} : World).receivers b : Int) = last.receivers b - last.share b s := by
        rw [receivers_list,total_erase _ (by rw [down.stations,stations]; exact member),receivers_total]
      unfold World.excess at moved ⊢
      dsimp only
      rw [Int.mul_sub,Int.sub_mul,Int.sub_mul] at moved
      rw [Int.sub_mul]
      split at moved
      · omega
      · omega
    rw [shift_balanced balanced _ shift,at_zero]
    by_cases authorized : (w.sta s).state = .staAuthorized
    · rw [high authorized,authorized]
      unfold World.taken World.due World.rightWithout
      rw [taken]
      generalize ((w.sdata (w.sta s).sdata).type.vlanSta.isNone || (w.sdata (w.sta s).sdata).type.vlanSta == some s) = counts
      generalize (w.sdata (w.sta s).sdata).type.is4addr = use4addr
      cases accept .staAssoc <;> cases counts <;> cases use4addr <;> simp [one,StaState.rank,member]
    · have still := low authorized
      have none : ∀ state : StaState, state ≠ .staAuthorized → state.rank = 0 := by
        intro state
        cases state <;> decide
      rw [none _ authorized,none _ still]
      exact ⟨fun _ _ high => absurd high authorized,fun _ => by omega⟩
  · rename_i absent
    exact ⟨fun _ member => absurd member absent,fun _ => balanced⟩

theorem changeIface_balanced (balanced : w.balanced) (d : Nat) (use4addr : Bool) :
    (step w (.changeIface d use4addr)).balanced ↔ w.fair (.changeIface d use4addr) := by
  unfold step World.fair changeIface
  dsimp only
  cases type : (w.sdata d).type with
  | ap => exact ⟨fun _ => .inl rfl,fun _ => balanced⟩
  | apVlan old sta =>
    dsimp only
    generalize (if use4addr then sta else none) = kept
    let held : Nat → Bool := fun i => (w.sta i).sdata == d && (w.sta i).state == .staAuthorized
    have shift : ∀ bss, (w.setType d (.apVlan use4addr kept)).excess bss = w.excess bss +
        if (w.sdata d).bss = bss then (w.stations.countP held : Int) * (one (!old) - one (!use4addr)) else 0 := by
      intro bss
      have change : ∀ i, (w.setType d (.apVlan use4addr kept)).share bss i - w.share bss i =
          one (held i) * (if (w.sdata d).bss = bss then one (!use4addr) - one (!old) else 0) := by
        intro i
        rw [share_eq,share_eq,setType_bss]
        unfold World.due
        dsimp only [held]
        rw [show (w.setType d (.apVlan use4addr kept)).sta = w.sta from rfl]
        by_cases here : (w.sta i).sdata = d
        · rw [here,setType_self,type,beq_self_eq_true,Bool.true_and]
          unfold StaState.rank SdataType.is4addr
          split
          · rw [Int.mul_sub]
          · omega
        · rw [setType_other _ here,beq_eq_false_iff_ne.mpr here,Bool.false_and,Int.sub_self]
          exact (Int.zero_mul _).symm
      have counted : total (fun i => one (held i)) w.stations = w.stations.countP held := total_countP held w.stations
      have totals := total_sub ((w.setType d (.apVlan use4addr kept)).share bss) (w.share bss) w.stations
      rw [total_congr fun i _ => change i,total_mul,counted,← receivers_total] at totals
      have after : ((w.setType d (.apVlan use4addr kept)).receivers bss : Int) =
          total ((w.setType d (.apVlan use4addr kept)).share bss) w.stations := receivers_total _ bss
      unfold World.excess
      rw [show (w.setType d (.apVlan use4addr kept)).numMcastSta = w.numMcastSta from rfl]
      split at totals
      · rename_i here
        rw [if_pos here,Int.mul_sub]
        rw [Int.mul_sub] at totals
        omega
      · omega
    rw [shift_balanced balanced _ shift,at_zero,Int.mul_eq_zero,one_sub,Int.natCast_eq_zero,List.countP_eq_zero]
    unfold SdataType.is4addr
    simp [held,or_comm]

-- A switch counts on the new interface alone: what it stands for, less what the old one was taken for.
structure Switches (w : World) (s t : Nat) (after : World) : Prop where
  stations : after.stations = w.stations
  other : ∀ i, i ≠ s → after.sta i = w.sta i
  place : after.sta s = ⟨t,(w.sta s).state⟩
  bss : ∀ d, (after.sdata d).bss = (w.sdata d).bss
  due : ∀ d, after.due d = w.due d
  num : ∀ b, after.numMcastSta b = w.numMcastSta b +
    if (w.sdata t).bss = b then (w.sta s).state.rank * (w.due t - w.taken (w.sta s).sdata) else 0

theorem changeVlan_busy (held : w.busy t = true) : changeVlan w s t = w := by
  unfold World.busy at held
  unfold changeVlan
  dsimp only
  split
  · rfl
  cases type : (w.sdata t).type with
  | ap =>
    rw [type] at held
    cases held
  | apVlan use4addr sta =>
    rw [type] at held
    cases use4addr with
    | false => cases held
    | true =>
      cases sta with
      | none => cases held
      | some => rfl

theorem switched (s t : Nat) (retyped : Retyped w mid) :
    Switches w s t (if (w.sta s).state = .staAuthorized ∧ (w.sdata (w.sta s).sdata).type.vlanSta.isSome ≠ (w.sdata t).type.is4addr then
      (mid.setSta s {w.sta s with sdata := t}).addMcast (mid.sdata t).bss (if (w.sdata t).type.is4addr then -1 else 1)
      else mid.setSta s {w.sta s with sdata := t}) := by
  have placed : ∀ v : World, v.sta = (mid.setSta s {w.sta s with sdata := t}).sta →
      (∀ i, i ≠ s → v.sta i = w.sta i) ∧ v.sta s = ⟨t,(w.sta s).state⟩ := by
    intro v same
    rw [same,← retyped.sta]
    exact ⟨fun i apart => update_of_ne apart ..,update_self ..⟩
  have taken : w.taken (w.sta s).sdata = one (!(w.sdata (w.sta s).sdata).type.vlanSta.isSome) := by
    unfold World.taken World.countsOn
    rw [Option.not_isSome]
  have due : w.due t = one (!(w.sdata t).type.is4addr) := rfl
  generalize (w.sdata (w.sta s).sdata).type.vlanSta.isSome = prev4addr at taken ⊢
  generalize (w.sdata t).type.is4addr = new4addr at due ⊢
  split
  · rename_i counted
    obtain ⟨authorized,differ⟩ := counted
    obtain ⟨other,place⟩ := placed ((mid.setSta s {w.sta s with sdata := t}).addMcast (mid.sdata t).bss (if new4addr then -1 else 1)) rfl
    refine ⟨retyped.stations,other,place,retyped.bss,retyped.due,fun b => ?_⟩
    rw [addMcast_at,retyped.bss,taken,due,authorized]
    rw [show (mid.setSta s {w.sta s with sdata := t}).numMcastSta = w.numMcastSta from retyped.num]
    revert differ
    cases prev4addr <;> cases new4addr <;> intro differ <;> first | exact absurd rfl differ | rfl
  · rename_i uncounted
    obtain ⟨other,place⟩ := placed (mid.setSta s {w.sta s with sdata := t}) rfl
    refine ⟨retyped.stations,other,place,retyped.bss,retyped.due,fun b => ?_⟩
    rw [show (mid.setSta s {w.sta s with sdata := t}).numMcastSta = w.numMcastSta from retyped.num,taken,due]
    have nothing : (w.sta s).state.rank * (one (!new4addr) - one (!prev4addr)) = 0 := by
      revert uncounted
      cases (w.sta s).state <;> cases prev4addr <;> cases new4addr <;> decide
    rw [nothing,ite_self,Int.add_zero]

theorem changeVlan_switches (apart : t ≠ (w.sta s).sdata) (free : w.busy t = false) : Switches w s t (changeVlan w s t) := by
  have second : ∀ mid : World, (mid.sdata (w.sta s).sdata).type.is4addr = (w.sdata (w.sta s).sdata).type.is4addr → Retyped w mid →
      Retyped w (if (w.sdata (w.sta s).sdata).type.vlanSta.isSome then
        mid.setType (w.sta s).sdata (.apVlan (mid.sdata (w.sta s).sdata).type.is4addr none) else mid) := by
    intro mid _ retyped
    split
    · exact retyped.trans (setType_retyped _ rfl)
    · exact retyped
  unfold World.busy at free
  unfold changeVlan
  rw [if_neg apart]
  have last := fun (mid : World) (retyped : Retyped w mid) => switched s t retyped
  cases type : (w.sdata t).type with
  | ap =>
    rw [type] at last
    exact last _ (second w rfl (retyped_refl w))
  | apVlan use4addr sta =>
    rw [type] at free last
    cases use4addr with
    | false => exact last _ (second w rfl (retyped_refl w))
    | true =>
      cases sta with
      | some => cases free
      | none =>
        refine last _ (second _ ?_ (setType_retyped _ (by rw [type]; rfl)))
        exact congrArg (fun sdata => sdata.type.is4addr) (setType_other _ (Ne.symm apart))

theorem changeVlan_balanced (balanced : w.balanced) (nodup : w.stations.Nodup) (s t : Nat) :
    (step w (.changeVlan s t)).balanced ↔ w.fair (.changeVlan s t) := by
  unfold step World.fair
  dsimp only
  split
  · rename_i member
    by_cases apart : t = (w.sta s).sdata
    · have same : changeVlan w s t = w := by
        exact if_pos apart
      rw [same]
      exact ⟨fun _ _ other => absurd apart other,fun _ => balanced⟩
    cases free : w.busy t with
    | true =>
      rw [changeVlan_busy free]
      exact ⟨fun _ _ _ other => absurd other (by decide),fun _ => balanced⟩
    | false =>
      have moved := changeVlan_switches apart free
      have shift : ∀ b, (changeVlan w s t).excess b = w.excess b + (w.sta s).state.rank *
          ((if (w.sdata (w.sta s).sdata).bss = b then w.due (w.sta s).sdata else 0) -
            if (w.sdata t).bss = b then w.taken (w.sta s).sdata else 0) := by
        intro b
        have share := receivers_at nodup member b moved.stations fun i apart => by
          rw [share_eq,share_eq,moved.other i apart,moved.bss,moved.due]
        rw [share_eq,share_eq,moved.place,moved.bss,moved.due] at share
        dsimp only at share
        unfold World.excess
        rw [moved.num,share,Int.mul_sub,Int.mul_sub,mul_ite,mul_ite,Int.mul_zero]
        split <;> split <;> omega
      rw [shift_balanced balanced _ shift]
      by_cases authorized : (w.sta s).state = .staAuthorized
      · have rank : (w.sta s).state.rank = 1 := by rw [authorized]; rfl
        rw [forall_congr' fun b => by rw [rank,Int.one_mul]]
        unfold World.due World.taken
        rw [pair_zero]
        rw [Bool.not_not]
        tauto
      · have rank : (w.sta s).state.rank = 0 := by
          revert authorized
          cases (w.sta s).state <;> decide
        rw [rank]
        exact ⟨fun _ _ _ _ high => absurd high authorized,fun _ _ => Int.zero_mul _⟩
  · rename_i absent
    exact ⟨fun _ member => absurd member absent,fun _ => balanced⟩

end balance

section run

theorem step_balanced (balanced : w.balanced) (nodup : w.stations.Nodup) (e : Event) : (step w e).balanced ↔ w.fair e := by
  cases e with
  | add s d moves inserted => exact add_balanced balanced s d moves inserted
  | move s new accept => exact move_balanced balanced nodup s new accept
  | changeVlan s t => exact changeVlan_balanced balanced nodup s t
  | changeIface d use4addr => exact changeIface_balanced balanced d use4addr
  | destroy s accept => exact destroy_balanced balanced nodup s accept

theorem changeVlan_stations (w : World) (s t : Nat) : (changeVlan w s t).stations = w.stations := by
  by_cases apart : t = (w.sta s).sdata
  · exact congrArg World.stations (if_pos apart)
  · cases free : w.busy t with
    | true => rw [changeVlan_busy free]
    | false => exact (changeVlan_switches apart free).stations

theorem step_nodup (nodup : w.stations.Nodup) (e : Event) : (step w e).stations.Nodup := by
  unfold step
  cases e with
  | add s d moves =>
    dsimp only
    unfold addStation
    split
    · exact nodup
    · rename_i absent
      have same := (moves_fold s moves (w.setSta s ⟨d,.staNone⟩)).1.stations
      split
      · exact List.nodup_cons.mpr ⟨same ▸ absent,same ▸ nodup⟩
      · exact same ▸ nodup
  | move s new accept =>
    dsimp only
    split
    · exact (moveState_moves w s new accept).stations ▸ nodup
    · exact nodup
  | changeVlan s t =>
    dsimp only
    split
    · exact changeVlan_stations w s t ▸ nodup
    · exact nodup
  | changeIface =>
    dsimp only
    unfold changeIface
    split <;> exact nodup
  | destroy s =>
    dsimp only
    split
    · unfold destroy
      dsimp only
      rw [(moveDown_moves ..).stations,(destroyPart1_retyped w s).stations]
      exact nodup.erase s
    · exact nodup

def run (w : World) (events : List Event) : World := events.foldl step w

def fairRun (w : World) : List Event → Prop
  | [] => True
  | e :: rest => w.fair e ∧ fairRun (step w e) rest

theorem run_balanced (balanced : w.balanced) (nodup : w.stations.Nodup) (events : List Event) :
    (∀ n, (run w (events.take n)).balanced) ↔ fairRun w events := by
  induction events generalizing w with
  | nil => exact ⟨fun _ => trivial,fun _ n => by rw [List.take_nil]; exact balanced⟩
  | cons e rest ih =>
    constructor
    · intro each
      have first : (step w e).balanced := each 1
      exact ⟨(step_balanced balanced nodup e).mp first,(ih first (step_nodup nodup e)).mp fun n => each (n + 1)⟩
    · rintro ⟨fair,later⟩ n
      have first := (step_balanced balanced nodup e).mpr fair
      cases n with
      | zero => exact balanced
      | succ n => exact (ih first (step_nodup nodup e)).mpr later n

theorem numMcastSta_counts (sdata : Nat → SubIf) (events : List Event) :
    (∀ n bss, (run (start sdata) (events.take n)).numMcastSta bss = (run (start sdata) (events.take n)).receivers bss ∧
      0 ≤ (run (start sdata) (events.take n)).numMcastSta bss) ↔ fairRun (start sdata) events := by
  rw [← run_balanced (fun _ => rfl) List.nodup_nil]
  refine forall_congr' fun n => forall_congr' fun bss => ⟨And.left,fun equal => ⟨equal,?_⟩⟩
  rw [equal]
  exact Int.natCast_nonneg _

theorem numMcastSta_negative :
    (run (start fun d => ⟨if d = 0 then .ap else .apVlan true none,0⟩)
      [.add 7 0 [.staAuth,.staAssoc,.staAuthorized] true,.changeVlan 7 1,.destroy 7 fun _ => true]).numMcastSta 0 = -1 := by
  decide

end run

end Mac80211.McastSta

import Mac80211.Tally

namespace Mac80211.McastSta

inductive StaState where
  | staNone | staAuth | staAssoc | staAuthorized
deriving DecidableEq

structure StaInfo where
  sdata : Nat
  state : StaState

inductive SdataType where
  | ap
  | apVlan (use4addr : Bool) (sta : Option Nat)

structure SubIf where
  type : SdataType
  bss : Nat

-- num_mcast_sta is that of each BSS.
structure World where
  stations : List Nat
  sta : Nat → StaInfo
  sdata : Nat → SubIf
  numMcastSta : Nat → Int

def World.setSta (w : World) (s : Nat) (sta : StaInfo) : World := {w with sta := Function.update w.sta s sta}
def World.setType (w : World) (d : Nat) (type : SdataType) : World := {w with sdata := Function.update w.sdata d ⟨type,(w.sdata d).bss⟩}
def World.addMcast (w : World) (bss : Nat) (n : Int) : World := {w with numMcastSta := Function.update w.numMcastSta bss (w.numMcastSta bss + n)}

def SdataType.vlanSta : SdataType → Option Nat
  | .ap => none
  | .apVlan _ sta => sta

def SdataType.is4addr : SdataType → Bool
  | .ap => false
  | .apVlan use4addr _ => use4addr

def World.countsOn (w : World) (d : Nat) : Bool := (w.sdata d).type.vlanSta.isNone

def allowedMove (old new : StaState) : Bool :=
  match new with
  | .staNone => old == .staAuth
  | .staAuth => old == .staNone || old == .staAssoc
  | .staAssoc => old == .staAuth || old == .staAuthorized
  | .staAuthorized => old == .staAssoc

def moveState (w : World) (s : Nat) (new : StaState) (accept : Bool) : World × Bool :=
  let sta := w.sta s
  if sta.state = new then (w,true)
  else if !allowedMove sta.state new then (w,false)
  else if !accept then (w,false)
  else
    let moved := w.setSta s {sta with state := new}
    let bss := (w.sdata sta.sdata).bss
    if new = .staAssoc ∧ sta.state = .staAuthorized then
      (if w.countsOn sta.sdata then moved.addMcast bss (-1) else moved,true)
    else if new = .staAuthorized ∧ sta.state = .staAssoc then
      (if w.countsOn sta.sdata then moved.addMcast bss 1 else moved,true)
    else (moved,true)

-- The station is moved and then inserted, or given up. Names are not used again.
def addStation (w : World) (s d : Nat) (moves : List StaState) (inserted : Bool) : World :=
  if s ∈ w.stations then w
  else
    let w := moves.foldl (fun w new => (moveState w s new true).1) (w.setSta s ⟨d,.staNone⟩)
    if inserted then {w with stations := s :: w.stations} else w

def changeVlan (w : World) (s t : Nat) : World :=
  let sta := w.sta s
  if t = sta.sdata then w
  else
    match (w.sdata t).type with
    | .apVlan true (some _) => w
    | type =>
      let prev4addr := (w.sdata sta.sdata).type.vlanSta.isSome
      let new4addr := type.is4addr
      let w := if new4addr then w.setType t (.apVlan true (some s)) else w
      let w := if prev4addr then w.setType sta.sdata (.apVlan (w.sdata sta.sdata).type.is4addr none) else w
      let w := w.setSta s {sta with sdata := t}
      if sta.state = .staAuthorized ∧ prev4addr ≠ new4addr then w.addMcast (w.sdata t).bss (if new4addr then -1 else 1) else w

def changeIface (w : World) (d : Nat) (use4addr : Bool) : World :=
  match (w.sdata d).type with
  | .ap => w
  | .apVlan _ sta => w.setType d (.apVlan use4addr (if use4addr then sta else none))

def destroyPart1 (w : World) (s : Nat) : World :=
  let d := (w.sta s).sdata
  if (w.sdata d).type.vlanSta = some s then w.setType d (.apVlan (w.sdata d).type.is4addr none) else w

def StaState.below : StaState → StaState
  | .staAuthorized => .staAssoc
  | .staAssoc => .staAuth
  | _ => .staNone

-- A refusal ends the loop of __sta_info_destroy_part2; there are three states above the lowest.
def moveDown (s : Nat) (accept : StaState → Bool) : Nat → World → World
  | 0,w => w
  | turns + 1,w =>
    if (w.sta s).state = .staNone then w
    else
      let new := (w.sta s).state.below
      let out := moveState w s new (accept new)
      if out.2 then moveDown s accept turns out.1 else out.1

def destroy (w : World) (s : Nat) (accept : StaState → Bool) : World :=
  let w := moveDown s accept 3 (destroyPart1 w s)
  {w with stations := w.stations.erase s}

inductive Event where
  | add (s d : Nat) (moves : List StaState) (inserted : Bool)
  | move (s : Nat) (new : StaState) (accept : Bool)
  | changeVlan (s t : Nat)
  | changeIface (d : Nat) (use4addr : Bool)
  | destroy (s : Nat) (accept : StaState → Bool)

def step (w : World) (e : Event) : World :=
  match e with
  | .add s d moves inserted => addStation w s d moves inserted
  | .move s new accept => if s ∈ w.stations then (moveState w s new accept).1 else w
  | .changeVlan s t => if s ∈ w.stations then changeVlan w s t else w
  | .changeIface d use4addr => changeIface w d use4addr
  | .destroy s accept => if s ∈ w.stations then destroy w s accept else w

def start (sdata : Nat → SubIf) : World where
  stations := []
  sta := fun _ => ⟨0,.staNone⟩
  sdata := fun d => match (sdata d).type with
    | .ap => sdata d
    | .apVlan use4addr _ => ⟨.apVlan use4addr none,(sdata d).bss⟩
  numMcastSta := fun _ => 0

open Tally
open Function (update_of_ne update_self)

def World.receives (w : World) (bss s : Nat) : Bool :=
  (w.sta s).state == .staAuthorized && (w.sdata (w.sta s).sdata).bss == bss && !(w.sdata (w.sta s).sdata).type.is4addr

def World.receivers (w : World) (bss : Nat) : Nat := w.stations.countP (w.receives bss)

def World.balanced (w : World) : Prop := ∀ bss, w.numMcastSta bss = w.receivers bss

def World.excess (w : World) (bss : Nat) : Int := w.numMcastSta bss - w.receivers bss

def one (b : Bool) : Int := if b then 1 else 0

def StaState.rank (state : StaState) : Int := one (state == .staAuthorized)

-- What an interface is taken for, and what it stands for.
def World.taken (w : World) (d : Nat) : Int := one (w.countsOn d)
def World.due (w : World) (d : Nat) : Int := one (!(w.sdata d).type.is4addr)

section count
variable {w : World}

theorem balanced_iff : w.balanced ↔ ∀ bss, w.excess bss = 0 := by
  unfold World.balanced World.excess
  exact forall_congr' fun bss => by omega

def World.share (w : World) (bss s : Nat) : Int := one (w.receives bss s)

theorem receivers_total (w : World) (bss : Nat) : (w.receivers bss : Int) = total (w.share bss) w.stations :=
  (total_countP (w.receives bss) w.stations).symm

theorem share_eq (w : World) (bss s : Nat) :
    w.share bss s = if (w.sdata (w.sta s).sdata).bss = bss then (w.sta s).state.rank * w.due (w.sta s).sdata else 0 := by
  unfold World.share World.receives StaState.rank World.due one
  by_cases here : (w.sdata (w.sta s).sdata).bss = bss
  · rw [if_pos here,beq_iff_eq.mpr here,Bool.and_true]
    cases ((w.sta s).state == .staAuthorized) <;> cases (w.sdata (w.sta s).sdata).type.is4addr <;> rfl
  · rw [if_neg here,beq_eq_false_iff_ne.mpr here,Bool.and_false,Bool.false_and]
    rfl

structure Moves (w : World) (s : Nat) (after : World) : Prop where
  stations : after.stations = w.stations
  sdata : after.sdata = w.sdata
  other : ∀ i, i ≠ s → after.sta i = w.sta i
  place : (after.sta s).sdata = (w.sta s).sdata
  num : ∀ bss, after.numMcastSta bss = w.numMcastSta bss +
    if (w.sdata (w.sta s).sdata).bss = bss then ((after.sta s).state.rank - (w.sta s).state.rank) * w.taken (w.sta s).sdata else 0

theorem moves_refl (w : World) (s : Nat) : Moves w s w := by
  refine ⟨rfl,rfl,fun _ _ => rfl,rfl,fun bss => ?_⟩
  split <;> omega

theorem Moves.trans (first : Moves w s mid) (second : Moves mid s after) : Moves w s after where
  stations := second.stations.trans first.stations
  sdata := second.sdata.trans first.sdata
  other i apart := (second.other i apart).trans (first.other i apart)
  place := second.place.trans first.place
  num bss := by
    have same : mid.taken (mid.sta s).sdata = w.taken (w.sta s).sdata := by
      unfold World.taken World.countsOn
      rw [first.place,first.sdata]
    rw [second.num,first.num,same,first.place,first.sdata]
    split
    · rw [Int.sub_mul,Int.sub_mul,Int.sub_mul]
      omega
    · omega

theorem addMcast_at (w : World) (bss b : Nat) (n : Int) :
    (w.addMcast bss n).numMcastSta b = w.numMcastSta b + if bss = b then n else 0 := by
  unfold World.addMcast
  dsimp only
  by_cases here : b = bss
  · subst here
    rw [update_self,if_pos rfl]
  · rw [update_of_ne here,if_neg (Ne.symm here),Int.add_zero]

theorem setSta_moves (new : StaState) (counted : ((w.sta s).state.rank = new.rank)) : Moves w s (w.setSta s {w.sta s with state := new}) := by
  unfold World.setSta
  refine ⟨rfl,rfl,fun i apart => update_of_ne apart ..,?_,fun bss => ?_⟩
  · dsimp only
    rw [update_self]
  · dsimp only
    rw [update_self,counted,Int.sub_self,Int.zero_mul]
    split <;> omega

theorem setSta_counted (new : StaState) (n : Int) (changed : new.rank - (w.sta s).state.rank = n) :
    Moves w s (if w.countsOn (w.sta s).sdata then
      (w.setSta s {w.sta s with state := new}).addMcast (w.sdata (w.sta s).sdata).bss n
      else w.setSta s {w.sta s with state := new}) := by
  have placed : ∀ v : World, v.sta = (w.setSta s {w.sta s with state := new}).sta →
      (∀ i, i ≠ s → v.sta i = w.sta i) ∧ (v.sta s).sdata = (w.sta s).sdata ∧ (v.sta s).state = new := by
    intro v same
    rw [same]
    unfold World.setSta
    dsimp only
    exact ⟨fun i apart => update_of_ne apart ..,by rw [update_self],by rw [update_self]⟩
  split
  · rename_i counts
    obtain ⟨other,place,state⟩ := placed ((w.setSta s {w.sta s with state := new}).addMcast (w.sdata (w.sta s).sdata).bss n) rfl
    refine ⟨rfl,rfl,other,place,fun bss => ?_⟩
    rw [addMcast_at,state,changed]
    unfold World.taken one
    rw [counts,if_pos rfl,Int.mul_one]
    rfl
  · rename_i counts
    obtain ⟨other,place,state⟩ := placed (w.setSta s {w.sta s with state := new}) rfl
    refine ⟨rfl,rfl,other,place,fun bss => ?_⟩
    unfold World.taken one
    rw [if_neg counts,Int.mul_zero]
    split <;> exact (Int.add_zero _).symm

theorem moveState_moves (w : World) (s : Nat) (new : StaState) (accept : Bool) : Moves w s (moveState w s new accept).1 := by
  unfold moveState
  dsimp only
  split
  · exact moves_refl w s
  rename_i apart
  split
  · exact moves_refl w s
  rename_i allowed
  split
  · exact moves_refl w s
  split
  · rename_i down
    obtain ⟨rfl,old⟩ := down
    exact setSta_counted .staAssoc (-1) (by rw [old]; rfl)
  rename_i notDown
  split
  · rename_i up
    obtain ⟨rfl,old⟩ := up
    exact setSta_counted .staAuthorized 1 (by rw [old]; rfl)
  · rename_i notUp
    refine setSta_moves new ?_
    -- The only moves into and out of staAuthorized are the two above.
    revert apart allowed notDown notUp
    cases (w.sta s).state <;> cases new <;> decide

end count

end Mac80211.McastSta

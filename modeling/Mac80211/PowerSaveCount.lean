import Mac80211.PowerSave
import Mac80211.Tally

namespace Mac80211.PowerSave
open Ieee80211 Tally

def StaInfo.owner (sta : StaInfo) : Option Nat := if sta.alive && sta.asleep then sta.ps? else none

def World.owners (w : World) : List (Option Nat) := w.stations.map StaInfo.owner
def World.num (w : World) (b : Nat) : Option Int := (w.interfaces[b]?).map PsData.numStaPs

def counts (b : Nat) (owner : Option Nat) : Int := if owner == some b then 1 else 0

def Counted (w : World) : Prop := ∀ b n, w.num b = some n → n = total (counts b) w.owners

structure Placed (w : World) : Prop where
  inside : ∀ sta ∈ w.stations, sta.type ≠ .other → sta.ps < w.interfaces.length
  asleep : ∀ sta ∈ w.stations, sta.type.bssOrVlan = true → sta.psSta = true → sta.asleep = true

structure Same (w w' : World) : Prop where
  owners : w'.owners = w.owners
  num : ∀ b, w'.num b = w.num b
  placed : Placed w → Placed w'

structure Alike (sta sta' : StaInfo) : Prop where
  type : sta'.type = sta.type
  ps : sta'.ps = sta.ps
  alive : sta'.alive = sta.alive
  asleep : sta'.asleep = sta.asleep
  psSta : sta'.psSta = true → sta.psSta = true

variable {w w' : World} {sta : StaInfo} {i : Nat}

theorem Same.refl (w : World) : Same w w := ⟨rfl,fun _ => rfl,id⟩

theorem Same.trans (first : Same w w') (second : Same w' w'') : Same w w'' :=
  ⟨second.owners.trans first.owners,fun b => (second.num b).trans (first.num b),second.placed ∘ first.placed⟩

theorem Alike.owner (alike : Alike sta sta') : sta'.owner = sta.owner := by
  simp [StaInfo.owner,StaInfo.ps?,alike.type,alike.ps,alike.alive,alike.asleep]

theorem Same.counted (same : Same w w') : Counted w' ↔ Counted w := by
  unfold Counted
  rw [same.owners]
  constructor
  · intro counted b n found
    exact counted b n ((same.num b).trans found)
  · intro counted b n found
    exact counted b n ((same.num b).symm.trans found)

theorem owners_get (found : w.stations[i]? = some sta) : w.owners[i]? = some sta.owner := by
  simp [World.owners,found]

theorem owners_setSta (w : World) (i : Nat) (sta : StaInfo) : (w.setSta i sta).owners = w.owners.set i sta.owner :=
  List.map_set

theorem placed_set (placed : Placed w) (found : w.stations[i]? = some sta) (stations : w'.stations = w.stations.set i sta')
    (length : w'.interfaces.length = w.interfaces.length) (type : sta'.type = sta.type) (ps : sta'.ps = sta.ps)
    (asleep : sta.type.bssOrVlan = true → sta'.psSta = true → sta'.asleep = true) : Placed w' := by
  have member := List.mem_of_getElem? found
  constructor
  · intro other among place
    rw [stations] at among
    rw [length]
    rcases List.mem_or_eq_of_mem_set among with old | rfl
    · exact placed.inside other old place
    · rw [ps]
      exact placed.inside sta member (type ▸ place)
  · intro other among
    rw [stations] at among
    rcases List.mem_or_eq_of_mem_set among with old | rfl
    · exact placed.asleep other old
    · rw [type]
      exact asleep

theorem sta_same (found : w.stations[i]? = some sta) (stations : w'.stations = w.stations.set i sta')
    (interfaces : w'.interfaces = w.interfaces) (alike : Alike sta sta') : Same w w' := by
  constructor
  · unfold World.owners
    rw [stations,List.map_set,alike.owner]
    obtain ⟨inside,value⟩ := List.getElem?_eq_some_iff.mp (owners_get found)
    rw [← value]
    exact List.set_getElem_self inside
  · intro b
    unfold World.num
    rw [interfaces]
  · intro placed
    refine placed_set placed found stations (by rw [interfaces]) alike.type alike.ps ?_
    intro type psSta
    rw [alike.asleep]
    exact placed.asleep sta (List.mem_of_getElem? found) type (alike.psSta psSta)

theorem setSta_same (found : w.stations[i]? = some sta) (sta' : StaInfo) (alike : Alike sta sta') :
    Same w (w.setSta i sta') :=
  sta_same found rfl rfl alike

theorem ps_same (found : w.interfaces[b]? = some ps) (interfaces : w'.interfaces = w.interfaces.set b ps')
    (stations : w'.stations = w.stations) (num : ps'.numStaPs = ps.numStaPs) : Same w w' := by
  constructor
  · unfold World.owners
    rw [stations]
  · intro c
    unfold World.num
    rw [interfaces]
    by_cases same : b = c
    · subst same
      have inside := (List.getElem?_eq_some_iff.mp found).1
      rw [List.getElem?_set_self inside,found]
      simp [num]
    · rw [List.getElem?_set_ne same]
  · intro placed
    constructor
    · rw [stations,interfaces,List.length_set]
      exact placed.inside
    · rw [stations]
      exact placed.asleep

theorem num_addNumStaPs (w : World) (b c : Nat) (change : Int) :
    (w.addNumStaPs b change).num c = if b = c then (w.num c).map (· + change) else w.num c := by
  unfold World.addNumStaPs
  split
  · rename_i missing
    split
    · rename_i same
      subst same
      simp [World.num,missing]
    · rfl
  · rename_i ps found
    unfold World.num World.setPs
    by_cases same : b = c
    · subst same
      have inside := (List.getElem?_eq_some_iff.mp found).1
      rw [List.getElem?_set_self inside,found]
      simp
    · rw [List.getElem?_set_ne same,if_neg same]

structure Turns (w w' : World) (i : Nat) (sta : StaInfo) (after : Bool) (change : Int) : Prop where
  owners : w'.owners = w.owners.set i (if after then some sta.ps else none)
  num : ∀ b, w'.num b = if sta.ps = b then (w.num b).map (· + change) else w.num b
  placed : Placed w → Placed w'

theorem owner_value (alive : sta.alive = true) (place : sta.type ≠ .other) :
    sta.owner = if sta.asleep then some sta.ps else none := by
  simp [StaInfo.owner,StaInfo.ps?,alive,place]

theorem bssOrVlan_place (type : sta.type.bssOrVlan = true) : sta.type ≠ .other := by
  intro other
  rw [other] at type
  cases type

theorem turns_counted (counted : Counted w) (found : w.stations[i]? = some sta) (alive : sta.alive = true)
    (place : sta.type ≠ .other) (inside : sta.ps < w.interfaces.length) (turns : Turns w w' i sta after change) :
    Counted w' ↔ change = (if after then 1 else 0) - (if sta.asleep then 1 else 0) := by
  have owner := owner_value alive place
  have moved : ∀ b, total (counts b) w'.owners =
      total (counts b) w.owners - counts b sta.owner + counts b (if after then some sta.ps else none) := by
    intro b
    rw [turns.owners]
    exact total_set (owners_get found) _
  have present : w.num sta.ps = some (w.interfaces[sta.ps].numStaPs) := by
    simp [World.num,inside]
  constructor
  · intro balanced
    have before := counted _ _ present
    have later := balanced sta.ps (w.interfaces[sta.ps].numStaPs + change) (by rw [turns.num,present]; simp)
    rw [moved,owner] at later
    cases after <;> cases asleep : sta.asleep <;> simp [counts,asleep] at later ⊢ <;> omega
  intro matched b n there
  rw [moved,owner]
  rw [turns.num] at there
  by_cases same : sta.ps = b
  · subst same
    rw [present] at there
    simp only [if_true,Option.map_some,Option.some.injEq] at there
    have before := counted _ _ present
    cases after <;> cases asleep : sta.asleep <;> simp [counts,asleep] at matched ⊢ <;> omega
  · rw [if_neg same] at there
    have before := counted _ _ there
    have none : ∀ o : Bool, counts b (if o then some sta.ps else none) = 0 := by
      intro o
      cases o <;> simp [counts,same]
    rw [none,none]
    omega

theorem purged_alike (sta : StaInfo) : Alike sta sta.purged := by
  unfold StaInfo.purged
  split <;> exact ⟨rfl,rfl,rfl,rfl,id⟩

theorem makeRoom_same (w : World) : Same w w.makeRoom := by
  unfold World.makeRoom
  split
  · constructor
    · simp only [World.owners,World.purgeOldPsBuffers,List.map_map]
      exact List.map_congr_left fun sta _ => (purged_alike sta).owner
    · intro b
      simp only [World.num,World.purgeOldPsBuffers,List.getElem?_map,Option.map_map]
      rfl
    intro placed
    constructor
    · intro _ among place
      obtain ⟨old,member,rfl⟩ := List.mem_map.mp among
      have alike := purged_alike old
      rw [alike.ps]
      simpa [World.purgeOldPsBuffers] using placed.inside old member (alike.type ▸ place)
    · intro _ among type psSta
      obtain ⟨old,member,rfl⟩ := List.mem_map.mp among
      have alike := purged_alike old
      rw [alike.asleep]
      exact placed.asleep old member (alike.type ▸ type) (alike.psSta psSta)
  · exact Same.refl w

theorem multicast_same (w : World) (b : Nat) (skb : Skb) : Same w (w.txHMulticastPsBuf b skb).1 := by
  unfold World.txHMulticastPsBuf
  split
  · exact Same.refl w
  split
  · exact Same.refl w
  split
  · exact Same.refl w
  split
  · exact Same.refl w
  split
  · exact Same.refl w
  dsimp only
  split
  · exact makeRoom_same w
  · rename_i found
    apply (makeRoom_same w).trans
    unfold World.queueBc
    split <;> exact ps_same found rfl rfl rfl

theorem unicast_same (w : World) (i : Nat) (sta : StaInfo) (skb : Skb) : Same w (w.txHUnicastPsBuf i sta skb).1 := by
  unfold World.txHUnicastPsBuf
  split
  · split
    · exact Same.refl w
    dsimp only
    split
    · exact makeRoom_same w
    · rename_i found
      apply (makeRoom_same w).trans
      unfold World.queueUc
      dsimp only
      split <;> exact sta_same found rfl rfl ⟨rfl,rfl,rfl,rfl,id⟩
  · exact Same.refl w

theorem response_same (found : w.stations[i]? = some sta) (alike : Alike sta sta') :
    Same w (w.staPsDeliverResponse i sta' nFrames ignoredAcs pspoll) :=
  sta_same found rfl rfl ⟨alike.type,alike.ps,alike.alive,alike.asleep,alike.psSta⟩

theorem Alike.refl (sta : StaInfo) : Alike sta sta := ⟨rfl,rfl,rfl,rfl,id⟩

theorem uapsd_same (found : w.stations[i]? = some sta) : Same w (w.staPsDeliverUapsd i sta) := by
  unfold World.staPsDeliverUapsd
  split
  · exact Same.refl w
  · exact response_same found (Alike.refl sta)

theorem rxPoll_same (found : w.stations[i]? = some sta) (fc : UInt16) (ac : Ac) :
    Same w (w.rxHUapsdAndPspoll i sta fc ac) := by
  unfold World.rxHUapsdAndPspoll
  split
  · exact Same.refl w
  split
  · exact Same.refl w
  split
  · exact Same.refl w
  split
  · split
    · exact Same.refl w
    split
    · exact response_same found (Alike.refl sta)
    · exact sta_same found rfl rfl ⟨rfl,rfl,rfl,rfl,id⟩
  split
  · split
    · exact Same.refl w
    split
    · exact Same.refl w
    split
    · exact uapsd_same found
    · exact sta_same found rfl rfl ⟨rfl,rfl,rfl,rfl,id⟩
  · exact Same.refl w

theorem blockAwake_alike (sta : StaInfo) (block : Bool) : Alike sta (sta.blockAwake block) := by
  unfold StaInfo.blockAwake
  repeat' split
  all_goals exact ⟨rfl,rfl,rfl,rfl,id⟩

theorem mpsDeliver_same (found : w.stations[i]? = some sta) (nFrames : Option Nat) :
    Same w (w.mpsFrameDeliver i sta nFrames) :=
  sta_same found rfl rfl ⟨rfl,rfl,rfl,rfl,id⟩

theorem bufferedBc_same (found : w.interfaces[b]? = some ps) (drops : Skb → Bool) :
    Same w (w.getBufferedBc b ps drops).1 := by
  unfold World.getBufferedBc
  split
  · exact Same.refl w
  split
  · exact Same.refl w
  split
  · exact Same.refl w
  · exact ps_same found rfl rfl rfl

theorem expire_same (found : w.stations[i]? = some sta) : Same w (w.cleanupExpireBuffered i sta) := by
  unfold World.cleanupExpireBuffered
  split
  · exact Same.refl w
  · exact sta_same found rfl rfl ⟨rfl,rfl,rfl,rfl,id⟩

theorem length_addNumStaPs (w : World) (b : Nat) (change : Int) :
    (w.addNumStaPs b change).interfaces.length = w.interfaces.length := by
  unfold World.addNumStaPs
  split
  · rfl
  · exact List.length_set

theorem interfaces_addNumStaPs (same : w'.interfaces = w.interfaces) (b : Nat) (change : Int) :
    (w'.addNumStaPs b change).interfaces = (w.addNumStaPs b change).interfaces := by
  unfold World.addNumStaPs
  rw [same]
  split
  · exact same
  · simp [World.setPs,same]

theorem sta_turns (sta' : StaInfo) (found : w.stations[i]? = some sta) (place : sta.type ≠ .other)
    (stations : w'.stations = w.stations.set i sta') (interfaces : w'.interfaces = (w.addNumStaPs sta.ps change).interfaces)
    (type : sta'.type = sta.type) (ps : sta'.ps = sta.ps) (owner : sta'.alive = true ∨ sta'.asleep = false)
    (asleep : sta.type.bssOrVlan = true → sta'.psSta = true → sta'.asleep = true) :
    Turns w w' i sta sta'.asleep change := by
  constructor
  · unfold World.owners
    rw [stations,List.map_set]
    congr 1
    rcases owner with alive | awake
    · rw [owner_value alive (type ▸ place),ps]
    · simp [StaInfo.owner,awake]
  · intro b
    rw [← num_addNumStaPs]
    unfold World.num
    rw [interfaces]
  · intro placed
    exact placed_set placed found stations (by rw [interfaces,length_addNumStaPs]) type ps asleep

theorem start_turns (found : w.stations[i]? = some sta) (type : sta.type.bssOrVlan = true) (alive : sta.alive = true)
    (txq : Option UInt16) : Turns w (w.staPsStart i sta txq) i sta true 1 := by
  unfold World.staPsStart
  rw [if_pos type]
  let next := {sta with psSta := true,txqBufferedTids := txq.getD sta.txqBufferedTids,asleep := true}
  have stations : ((w.addNumStaPs sta.ps 1).setSta i next).stations = w.stations.set i next := by
    rw [← stations_addNumStaPs w sta.ps 1]
    rfl
  exact sta_turns next found (bssOrVlan_place type) stations rfl rfl rfl (.inl alive) fun _ _ => rfl

theorem wakeup_turns (sta' : StaInfo) (found : w.stations[i]? = some sta) (place : sta.type ≠ .other) (type : sta'.type = sta.type)
    (ps : sta'.ps = sta.ps) (awake : sta'.psSta = true → sta.type.bssOrVlan = false) :
    Turns w ((w.setSta i sta').staPsDeliverWakeup i sta') i sta false (-1) := by
  have given : sta'.ps? = some sta.ps := by
    simp [StaInfo.ps?,ps,type,place]
  unfold World.staPsDeliverWakeup
  rw [given]
  have stations : (((w.setSta i sta').setSta i sta'.delivered).addNumStaPs sta.ps (-1)).stations =
      w.stations.set i sta'.delivered := by
    rw [stations_addNumStaPs]
    exact List.set_set _
  have unchanged : ((w.setSta i sta').setSta i sta'.delivered).interfaces = w.interfaces := rfl
  have interfaces := interfaces_addNumStaPs unchanged sta.ps (-1)
  refine sta_turns sta'.delivered found place stations interfaces type ps (.inr rfl) ?_
  intro bss psSta
  rw [awake psSta] at bss
  cases bss

def World.changesPs (w : World) (sta : StaInfo) (fc : UInt16) : Bool :=
  !w.apLinkPs && !hasMoreFrags fc && sta.type.bssOrVlan && (!isMgmt fc || isBufferableMmpdu fc)

-- No sleep before waking up is complete, frames are delivered only to stations asleep, a mesh peer's mode
-- is updated while its flag is right, no mesh peer expires in its sleep (its removal takes it off the counter
-- once more), and only stations asleep are removed while held.
def Event.Fair (w : World) : Event → Prop
  | .rxSta i fc _ => ∀ sta, w.stations[i]? = some sta → w.changesPs sta fc = true → hasPm fc = true →
      sta.psSta = false → sta.asleep = false
  | .transition i start _ => ∀ sta, w.stations[i]? = some sta → start = true → sta.psSta = false → sta.asleep = false
  | .work i => ∀ sta, w.stations[i]? = some sta → sta.dead = false → sta.psSta = false → sta.type ≠ .other →
      sta.asleep = true
  | .mpsStatus i _ => ∀ sta, w.stations[i]? = some sta → sta.asleep = sta.psSta
  | .staExpire i => ∀ sta, w.stations[i]? = some sta → sta.type = .meshPoint → sta.psSta = false
  | .destroy i => ∀ sta, w.stations[i]? = some sta → sta.type ≠ .other → sta.blocked = sta.asleep
  | _ => True

def Exact (w w' : World) (e : Event) : Prop := (Placed w → Placed w') ∧ (Placed w → Counted w → (Counted w' ↔ e.Fair w))

theorem Same.exact (same : Same w w') (fair : Placed w → e.Fair w) : Exact w w' e :=
  ⟨same.placed,fun placed counted => ⟨fun _ => fair placed,fun _ => same.counted.mpr counted⟩⟩

theorem Turns.exact (turns : Turns w w' i sta after change) (found : w.stations[i]? = some sta) (alive : sta.alive = true)
    (place : sta.type ≠ .other)
    (fair : Placed w → (change = (if after then 1 else 0) - (if sta.asleep then 1 else 0) ↔ e.Fair w)) : Exact w w' e := by
  refine ⟨turns.placed,?_⟩
  intro placed counted
  have inside := placed.inside sta (List.mem_of_getElem? found) place
  exact (turns_counted counted found alive place inside turns).trans (fair placed)

section
variable (found : w.stations[i]? = some sta) (alive : sta.alive = true)
include found alive

theorem psEnd_exact (type : sta.type.bssOrVlan = true) (psSta : sta.psSta = true) (fair : e.Fair w) : Exact w (w.staPsEnd i sta) e := by
  unfold World.staPsEnd
  split
  · exact Same.exact (sta_same found rfl rfl ⟨rfl,rfl,rfl,rfl,fun none => by cases none⟩) fun _ => fair
  · have turns := wakeup_turns {sta with psDeliver := true,psSta := false} found (bssOrVlan_place type)
      rfl rfl (fun none => by cases none)
    refine turns.exact found alive (bssOrVlan_place type) ?_
    intro placed
    have asleep := placed.asleep sta (List.mem_of_getElem? found) type psSta
    simp [asleep,fair]

theorem rxSta_exact : Exact w (w.rxHStaProcess i sta fc txq) (.rxSta i fc txq) := by
  unfold World.rxHStaProcess
  split
  · rename_i changes
    have type : sta.type.bssOrVlan = true := by
      simp only [Bool.and_eq_true] at changes
      exact changes.1.2
    split
    · rename_i psSta
      have fair : Event.Fair w (.rxSta i fc txq) := by
        intro other there _ _ awake
        cases Option.some.inj (found.symm.trans there)
        rw [psSta] at awake
        cases awake
      split
      · exact psEnd_exact found alive type psSta fair
      · exact (Same.refl w).exact fun _ => fair
    rename_i psSta
    split
    · rename_i pm
      refine (start_turns found type alive txq).exact found alive (bssOrVlan_place type) ?_
      intro _
      rw [Event.Fair,forall_found found]
      simp only [show w.changesPs sta fc = true from changes,pm,psSta,true_implies]
      cases sta.asleep <;> simp
    · rename_i pm
      refine (Same.refl w).exact ?_
      intro _ _ there _ sleeps
      exact absurd sleeps pm
  · rename_i idle
    refine (Same.refl w).exact ?_
    intro _ _ there changes
    cases Option.some.inj (found.symm.trans there)
    exact absurd changes idle

theorem transition_exact
    (type : sta.type.bssOrVlan = true) : Exact w (w.staPsTransition i sta start txq) (.transition i start txq) := by
  unfold World.staPsTransition
  split
  · rename_i already
    refine (Same.refl w).exact ?_
    intro _ other there begins awake
    cases Option.some.inj (found.symm.trans there)
    simp [begins,awake] at already
  split
  · rename_i other begins
    have psSta : sta.psSta = false := by simpa [begins] using other
    refine (start_turns found type alive txq).exact found alive (bssOrVlan_place type) ?_
    intro placed
    rw [Event.Fair,forall_found found]
    simp only [begins,psSta,true_implies]
    cases sta.asleep <;> simp
  rename_i other ends
  simp only [Bool.not_eq_true] at ends
  have psSta : sta.psSta = true := by simpa [ends] using other
  have fair : Event.Fair w (.transition i start txq) := by
    intro _ _ begins
    rw [ends] at begins
    cases begins
  exact psEnd_exact found alive type psSta fair

theorem work_exact :
    Exact w ((w.setSta i {sta with deliverWk := false}).staDeliverPsFrames i {sta with deliverWk := false}) (.work i) := by
  have taken : Same w (w.setSta i {sta with deliverWk := false}) := sta_same found rfl rfl ⟨rfl,rfl,rfl,rfl,id⟩
  have there := found_setSta found {sta with deliverWk := false}
  have asleep : sta.psSta = true → Event.Fair w (.work i) := by
    intro psSta other there _ awake
    cases Option.some.inj (found.symm.trans there)
    rw [psSta] at awake
    cases awake
  unfold World.staDeliverPsFrames
  split
  · rename_i dead
    refine taken.exact ?_
    intro _ other there alive
    cases Option.some.inj (found.symm.trans there)
    rw [dead] at alive
    cases alive
  rename_i dead
  simp only [Bool.not_eq_true] at dead
  split
  · rename_i awake
    simp only [Bool.not_eq_true'] at awake
    by_cases place : sta.type = .other
    · have none : ({sta with deliverWk := false} : StaInfo).ps? = none := by simp [StaInfo.ps?,place]
      unfold World.staPsDeliverWakeup
      rw [none]
      refine taken.exact ?_
      intro _ _ there _ _ elsewhere
      cases Option.some.inj (found.symm.trans there)
      exact absurd place elsewhere
    have turns := wakeup_turns {sta with deliverWk := false} found place rfl rfl (by
      intro psSta
      rw [awake] at psSta
      cases psSta)
    refine turns.exact found alive place ?_
    intro _
    rw [Event.Fair,forall_found found]
    simp only [dead,awake,place,ne_eq,not_false_eq_true,true_implies]
    cases sta.asleep <;> simp
  rename_i psSta
  have psSta : sta.psSta = true := by simpa using psSta
  split
  · have polled := found_setSta there {sta with deliverWk := false,pspoll := false}
    have cleared := taken.trans (setSta_same there {sta with deliverWk := false,pspoll := false} ⟨rfl,rfl,rfl,rfl,id⟩)
    exact (cleared.trans (response_same polled (Alike.refl _))).exact fun _ => asleep psSta
  split
  · have polled := found_setSta there {sta with deliverWk := false,uapsd := false}
    have cleared := taken.trans (setSta_same there {sta with deliverWk := false,uapsd := false} ⟨rfl,rfl,rfl,rfl,id⟩)
    exact (cleared.trans (uapsd_same polled)).exact fun _ => asleep psSta
  · exact taken.exact fun _ => asleep psSta

theorem mpsStatus_exact (type : sta.type = .meshPoint) :
    Exact w (w.mpsStaStatusUpdate i sta doBuffer) (.mpsStatus i doBuffer) := by
  have place : sta.type ≠ .other := by simp [type]
  have bss : sta.type.bssOrVlan = false := by simp [type,IfType.bssOrVlan]
  have fair : Event.Fair w (.mpsStatus i doBuffer) ↔ sta.asleep = sta.psSta := forall_found found
  unfold World.mpsStaStatusUpdate
  split
  · rename_i already
    have psSta : sta.psSta = doBuffer := by simpa using already
    have turns : Turns w (w.setSta i {sta with asleep := doBuffer}) i sta doBuffer 0 := by
      constructor
      · rw [owners_setSta]
        congr 1
        exact owner_value alive place
      · intro b
        show w.num b = _
        split <;> simp
      · intro placed
        exact placed_set placed found rfl rfl rfl rfl (by simp [bss])
    refine turns.exact found alive place ?_
    intro placed
    rw [fair,psSta]
    cases doBuffer <;> cases sta.asleep <;> simp
  rename_i other
  split
  · rename_i buffers
    subst buffers
    have psSta : sta.psSta = false := by simpa using other
    let next := {sta with psSta := true,asleep := true}
    have stations : ((w.addNumStaPs sta.ps 1).setSta i next).stations = w.stations.set i next := by
      rw [← stations_addNumStaPs w sta.ps 1]
      rfl
    have turns := sta_turns next found place stations rfl rfl rfl (.inl alive) (by simp [bss])
    refine turns.exact found alive place ?_
    intro _
    rw [fair,psSta]
    cases sta.asleep <;> simp [next]
  rename_i wakes
  have psSta : sta.psSta = true := by simpa [wakes] using other
  have unset : w.setSta i sta = w := by
    obtain ⟨_,value⟩ := List.getElem?_eq_some_iff.mp found
    unfold World.setSta
    rw [← value,List.set_getElem_self]
  have turns := wakeup_turns sta found place rfl rfl (fun _ => bss)
  rw [unset] at turns
  refine turns.exact found alive place ?_
  intro _
  rw [fair,psSta]
  cases sta.asleep <;> simp

end

theorem other_same (sta' : StaInfo) (found : w.stations[i]? = some sta) (other : sta.type = .other)
    (stations : w'.stations = w.stations.set i sta') (interfaces : w'.interfaces = w.interfaces)
    (type : sta'.type = sta.type) (ps : sta'.ps = sta.ps) : Same w w' := by
  have owner : sta'.owner = sta.owner := by simp [StaInfo.owner,StaInfo.ps?,type,other]
  constructor
  · unfold World.owners
    rw [stations,List.map_set,owner]
    obtain ⟨inside,value⟩ := List.getElem?_eq_some_iff.mp (owners_get found)
    rw [← value]
    exact List.set_getElem_self inside
  · intro b
    unfold World.num
    rw [interfaces]
  · intro placed
    exact placed_set placed found stations (by rw [interfaces]) type ps (by simp [other,IfType.bssOrVlan])

theorem destroy_exact (found : w.stations[i]? = some sta) (alive : sta.alive = true) :
    Exact w (w.cleanupSingleSta i {sta with dead := true}) (.destroy i) := by
  let gone : StaInfo := {sta with dead := true}
  by_cases place : sta.type = .other
  · have fair : Event.Fair w (.destroy i) := by
      intro other there elsewhere
      cases Option.some.inj (found.symm.trans there)
      exact absurd place elsewhere
    unfold World.cleanupSingleSta
    split
    · exact Same.exact (other_same {sta with dead := true,phase := .freed} found place rfl rfl rfl rfl) fun _ => fair
    · rename_i kept
      have free : ({sta with dead := true} : StaInfo).blocked = false := by
        simpa [place] using kept
      simp only [free,Bool.false_eq_true,if_false]
      exact Same.exact (other_same gone.cleaned found place rfl rfl rfl rfl) fun _ => fair
  have fair : Event.Fair w (.destroy i) ↔ sta.blocked = sta.asleep := by
    rw [Event.Fair,forall_found found]
    exact imp_iff_right place
  have elsewhere : (sta.type == IfType.other) = false := by simpa using place
  have held : ({sta with dead := true} : StaInfo).blocked = sta.blocked := rfl
  unfold World.cleanupSingleSta
  simp only [held,elsewhere,Bool.and_false,Bool.false_eq_true,if_false]
  cases blocked : sta.blocked with
  | true =>
    have stations : ((w.addNumStaPs sta.ps (-1)).setSta i gone.cleaned).stations =
        w.stations.set i gone.cleaned := by
      rw [← stations_addNumStaPs w sta.ps (-1)]
      rfl
    refine Turns.exact (sta_turns gone.cleaned found place stations rfl rfl rfl
      (.inr rfl) fun _ psSta => by cases psSta) found alive place ?_
    intro placed
    rw [fair,blocked]
    cases sta.asleep <;> simp [StaInfo.cleaned]
  | false =>
    have turns : Turns w {w.setSta i gone.cleaned with
        totalPsBuffered := w.totalPsBuffered - sta.psTxBuf.len} i sta false 0 := by
      constructor
      · exact owners_setSta w i gone.cleaned
      · intro b
        show w.num b = _
        split <;> simp
      · intro placed
        exact placed_set placed found rfl rfl rfl rfl (fun _ psSta => by cases psSta)
    refine Turns.exact turns found alive place ?_
    intro _
    rw [fair,blocked]
    cases sta.asleep <;> simp

theorem staExpire_exact (found : w.stations[i]? = some sta) (listed : sta.phase = .listed) :
    Exact w (w.staExpire i sta) (.staExpire i) := by
  have alive : sta.alive = true := by simp [StaInfo.alive,listed]
  have fair : Event.Fair w (.staExpire i) ↔ (sta.type = .meshPoint → sta.psSta = false) := forall_found found
  unfold World.staExpire
  split
  · rename_i lowers
    simp only [Bool.and_eq_true,beq_iff_eq] at lowers
    have place : sta.type ≠ .other := by simp [lowers.1]
    have bss : sta.type.bssOrVlan = false := by simp [lowers.1,IfType.bssOrVlan]
    let next := {sta with phase := .unlinked}
    have stations : ((w.addNumStaPs sta.ps (-1)).setSta i next).stations = w.stations.set i next := by
      rw [← stations_addNumStaPs w sta.ps (-1)]
      rfl
    -- The peer still counts until __cleanup_single_sta, which lowers the counter again.
    have turns := sta_turns next found place stations rfl rfl rfl (.inl rfl) (by simp [bss])
    refine turns.exact found alive place ?_
    intro _
    rw [fair]
    cases sta.asleep <;> simp [lowers]
  · rename_i keeps
    simp only [Bool.and_eq_true,beq_iff_eq,not_and,Bool.not_eq_true] at keeps
    exact (setSta_same found {sta with phase := .unlinked} ⟨rfl,rfl,alive.symm,rfl,id⟩).exact fun _ => fair.mpr keeps

theorem addSta_exact (place : type = .other ∨ ps < w.interfaces.length) :
    Exact w {w with stations := w.stations ++ [newSta type ps uapsdQueues maxSp listenInterval beaconInt]}
      (.addSta type ps uapsdQueues maxSp listenInterval beaconInt) := by
  constructor
  · intro placed
    constructor
    · intro sta member elsewhere
      rcases List.mem_append.mp member with old | new
      · exact placed.inside sta old elsewhere
      · cases List.mem_singleton.mp new
        exact place.resolve_left elsewhere
    · intro sta member type psSta
      rcases List.mem_append.mp member with old | new
      · exact placed.asleep sta old type psSta
      · cases List.mem_singleton.mp new
        cases psSta
  · intro _ counted
    refine ⟨fun _ => trivial,fun _ => ?_⟩
    intro b n found
    have before := counted b n found
    simpa [World.owners,StaInfo.owner,newSta,counts] using before

theorem step_exact (ran : step e w = some w') : Exact w w' e := by
  cases e with
  | txUnicast i skb =>
    obtain ⟨sta,found,alive,rfl⟩ := onSta_inv ran
    exact (unicast_same w i sta skb).exact fun _ => trivial
  | txMulticast b skb =>
    cases ran
    exact (multicast_same w b skb).exact fun _ => trivial
  | filtered =>
    obtain ⟨sta,found,alive,rfl⟩ := onSta_inv ran
    refine Same.exact ?_ fun _ => trivial
    unfold World.handleFilteredFrame
    dsimp only
    split
    · exact sta_same found rfl rfl ⟨rfl,rfl,rfl,rfl,id⟩
    · exact Same.refl w
  | rxSta =>
    obtain ⟨sta,found,alive,rfl⟩ := onSta_inv ran
    exact rxSta_exact found alive
  | rxPoll i fc ac =>
    obtain ⟨sta,found,alive,rfl⟩ := onSta_inv ran
    exact (rxPoll_same found fc ac).exact fun _ => trivial
  | transition =>
    obtain ⟨sta,found,test,rfl⟩ := onSta_inv ran
    simp only [Bool.and_eq_true] at test
    exact transition_exact found test.1.1 test.1.2
  | blockAwake i block =>
    obtain ⟨sta,found,alive,rfl⟩ := onSta_inv ran
    exact (setSta_same found _ (blockAwake_alike sta block)).exact fun _ => trivial
  | work =>
    obtain ⟨sta,found,test,rfl⟩ := onSta_inv ran
    simp only [Bool.and_eq_true] at test
    exact work_exact found test.1
  | eosp | setBuffered =>
    obtain ⟨sta,found,alive,rfl⟩ := onSta_inv ran
    exact Same.exact (setSta_same found _ ⟨rfl,rfl,rfl,rfl,id⟩) fun _ => trivial
  | mpsStatus =>
    obtain ⟨sta,found,test,rfl⟩ := onSta_inv ran
    simp only [Bool.and_eq_true,beq_iff_eq] at test
    exact mpsStatus_exact found test.1 test.2
  | mpsDeliver i nFrames =>
    obtain ⟨sta,found,test,rfl⟩ := onSta_inv ran
    exact (mpsDeliver_same found nFrames).exact fun _ => trivial
  | bufferedBc b drops =>
    obtain ⟨ps,found,rfl⟩ := onPs_inv ran
    exact (bufferedBc_same found drops).exact fun _ => trivial
  | expire =>
    obtain ⟨sta,found,test,rfl⟩ := onSta_inv ran
    exact (expire_same found).exact fun _ => trivial
  | addSta =>
    simp only [step] at ran
    split at ran
    · rename_i place
      cases ran
      exact addSta_exact (by simpa using place)
    · cases ran
  | unlink =>
    obtain ⟨sta,found,test,rfl⟩ := onSta_inv ran
    have alive : sta.alive = true := by simp [StaInfo.alive,beq_iff_eq.mp test]
    exact Same.exact (setSta_same found {sta with phase := .unlinked} ⟨rfl,rfl,alive.symm,rfl,id⟩) fun _ => trivial
  | staExpire =>
    obtain ⟨sta,found,test,rfl⟩ := onSta_inv ran
    exact staExpire_exact found (beq_iff_eq.mp test)
  | destroy =>
    obtain ⟨sta,found,test,rfl⟩ := onSta_inv ran
    have unlinked : sta.phase = .unlinked := by simpa using test
    exact destroy_exact found (by simp [StaInfo.alive,unlinked])
  | stop | stopVlan =>
    obtain ⟨ps,found,rfl⟩ := onPs_inv ran
    exact Same.exact (ps_same found rfl rfl rfl) fun _ => trivial
  | beacon =>
    obtain ⟨_,found,rfl⟩ := onPs_inv ran
    exact Same.exact (ps_same found rfl rfl rfl) fun _ => trivial
  | tick =>
    cases ran
    exact Same.exact ⟨rfl,fun _ => rfl,fun placed => ⟨placed.inside,placed.asleep⟩⟩ fun _ => trivial

inductive FairRun (start : World) : World → Prop where
  | refl : FairRun start start
  | step (prior : FairRun start before) (fair : e.Fair before) (ran : step e before = some after) : FairRun start after

theorem initial_counted (initial : w.Initial) : Placed w ∧ Counted w := by
  obtain ⟨empty,_,zero⟩ := initial
  refine ⟨⟨?_,?_⟩,?_⟩
  · intro _ member
    rw [empty] at member
    cases member
  · intro _ member
    rw [empty] at member
    cases member
  · intro b n found
    obtain ⟨ps,there,rfl⟩ := Option.map_eq_some_iff.mp found
    rw [World.owners,empty]
    exact (zero ps (List.mem_of_getElem? there)).2

theorem fair_counted (fair : FairRun start w) (initial : start.Initial) : Placed w ∧ Counted w := by
  induction fair with
  | refl => exact initial_counted initial
  | step prior fair ran ih =>
    obtain ⟨placed,counted⟩ := ih
    obtain ⟨keeps,exact'⟩ := step_exact ran
    exact ⟨keeps placed,(exact' placed counted).mpr fair⟩

def World.sleeping (w : World) (b : Nat) : Nat :=
  w.stations.countP fun sta => sta.alive && sta.asleep && sta.ps? == some b

def Accounted (w : World) : Prop :=
  ∀ (b : Nat) (ps : PsData), w.interfaces[b]? = some ps → ps.numStaPs = (w.sleeping b : Int)

theorem counted_accounted (w : World) : Counted w ↔ Accounted w := by
  have number : ∀ b, total (counts b) w.owners = w.sleeping b := by
    intro b
    unfold World.sleeping World.owners
    rw [← total_countP,total,total,List.map_map]
    congr 1
    apply List.map_congr_left
    intro sta _
    simp only [Function.comp,counts,StaInfo.owner]
    by_cases alive : sta.alive = true <;> by_cases asleep : sta.asleep = true <;> simp [alive,asleep]
  constructor
  · intro counted b ps found
    rw [← number]
    exact counted b ps.numStaPs (by simp [World.num,found])
  · intro accounted b n found
    obtain ⟨ps,there,rfl⟩ := Option.map_eq_some_iff.mp found
    rw [number]
    exact accounted b ps there

theorem num_sta_ps_counts (initial : start.Initial) (fair : FairRun start w) :
    Accounted w ∧ (∀ (b : Nat) (ps : PsData), w.interfaces[b]? = some ps → 0 ≤ ps.numStaPs) ∧
      ∀ e w', step e w = some w' → (Accounted w' ↔ e.Fair w) := by
  obtain ⟨placed,counted⟩ := fair_counted fair initial
  have accounted := (counted_accounted w).mp counted
  refine ⟨accounted,?_,?_⟩
  · intro b ps found
    rw [accounted b ps found]
    exact Int.natCast_nonneg _
  · intro e _ ran
    rw [← counted_accounted]
    exact (step_exact ran).2 placed counted

theorem num_sta_ps_sample : (sampleAfter [sampleJoins,sampleSleeps]).sleeping 0 = 1 ∧
    Accounted (sampleAfter [sampleJoins,sampleSleeps]) ∧
    (∀ (b : Nat) (ps : PsData), (sampleAfter [sampleJoins,sampleSleeps]).interfaces[b]? = some ps → 0 ≤ ps.numStaPs) ∧
    ∀ e w', step e (sampleAfter [sampleJoins,sampleSleeps]) = some w' →
      (Accounted w' ↔ e.Fair (sampleAfter [sampleJoins,sampleSleeps])) := by
  have joins : step sampleJoins sampleBss = some (sampleAfter [sampleJoins]) := by decide
  have sleeps : step sampleSleeps (sampleAfter [sampleJoins]) = some (sampleAfter [sampleJoins,sampleSleeps]) := by decide
  have free : sampleJoins.Fair sampleBss := trivial
  have fair : sampleSleeps.Fair (sampleAfter [sampleJoins]) := by
    intro _ found _ _ _
    cases found
    rfl
  have start : FairRun sampleBss sampleBss := .refl
  exact ⟨by decide,num_sta_ps_counts sample_initial ((start.step free joins).step fair sleeps)⟩

-- Falling asleep while the wake-up is blocked is counted twice, and waking up before the delivery work is
-- taken away twice.
theorem num_sta_ps_drifts :
    (∃ w, Reach sampleBss w ∧ w.sleeping 0 = 1 ∧ w.num 0 = some 2) ∧
      ∃ w, Reach sampleBss w ∧ w.sleeping 0 = 0 ∧ w.num 0 = some (-1) := by
  have twice : (run [sampleJoins,sampleSleeps,.blockAwake 0 true,sampleWakes,sampleSleeps] sampleBss).any
      (fun w => w.sleeping 0 == 1 && w.num 0 == some 2) = true := by decide
  have away : (run [sampleJoins,sampleSleeps,.blockAwake 0 true,.rxPoll 0 0x00a4 .be,.blockAwake 0 false,sampleWakes,.work 0]
      sampleBss).any (fun w => w.sleeping 0 == 0 && w.num 0 == some (-1)) = true := by decide
  constructor
  · obtain ⟨w,ran,found⟩ := (Option.any_eq_true _ _).mp twice
    exact ⟨w,Transitions.run_reach .step .refl ran,by simpa using found⟩
  · obtain ⟨w,ran,found⟩ := (Option.any_eq_true _ _).mp away
    exact ⟨w,Transitions.run_reach .step .refl ran,by simpa using found⟩

end Mac80211.PowerSave

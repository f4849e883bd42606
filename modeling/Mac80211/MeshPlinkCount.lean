import Mac80211.MeshPlinkMoves
import Mac80211.Tally
import Mac80211.Transitions

namespace Mac80211.MeshPlink
open Tally

def StaInfo.established (sta : StaInfo) : Bool := sta.phase != .freed && sta.plinkState == .estab

structure Counted (w : World) : Prop where
  userMpm : w.sdata.userMpm = false
  count : w.sdata.estabPlinks = total (fun sta => if sta.established then 1 else 0) w.stations

-- A freed station is off the list, whatever state it was left in.
def View.weight (v : View) : Int := if v.phase != .freed && v.state == .estab then 1 else 0

theorem moves_weight (moves : Moves why now llids v v') (alive : v.phase ≠ .freed) (mpm : v.userMpm = false) :
    v'.userMpm = false ∧ v'.estab - v'.weight = v.estab - v.weight := by
  cases moves with
  | idle | relisten | relabel | expire | ignore => exact ⟨mpm,rfl⟩
  | release was => exact ⟨mpm,by simp [View.weight,View.disarmed,was]⟩
  | @start state llid was next =>
    have left : v.state ≠ .estab := by
      rcases was with _ | ⟨_,_⟩ <;> simp [*]
    have arrived : state ≠ .estab := by
      rcases next with _ | received <;> simp [*]
    exact ⟨mpm,by simp [View.weight,View.armed,left,arrived]⟩
  | receive was => exact ⟨mpm,by simp [View.weight,was]⟩
  | @rearm state was next =>
    have left : v.state ≠ .estab := by
      rcases was with _ | _ | confirmed <;> simp [*]
    have arrived : state ≠ .estab := by
      rcases next with _ | _ | _ <;> simp [*]
    exact ⟨mpm,by simp [View.weight,View.armed,left,arrived]⟩
  | establish accepted was =>
    have left : v.state ≠ .estab := by
      rcases was with _ | _ <;> simp [*]
    exact ⟨mpm,by simp [View.weight,View.disarmed,left,alive]⟩
  | close was => exact ⟨mpm,by simp [View.weight,View.armed,was,alive]⟩
  | block | clean mpm =>
    refine ⟨mpm,?_⟩
    by_cases estab : v.state = .estab <;> simp [View.weight,estab,alive]
  | unlink => exact ⟨mpm,by simp [View.weight,alive]⟩
  | leave user => simp [mpm] at user


theorem added_counted (counted : Counted w) (added : Added w mid sta) : Counted mid := by
  constructor
  · rw [added.userMpm]
    exact counted.userMpm
  · have out : sta.established = false := by
      rcases added.state with state | state <;> simp [StaInfo.established,state]
    rw [added.estab,added.stations,counted.count]
    simp [out]

theorem effect_counted (counted : Counted w) (effect : Effect e before w w') : Counted w' := by
  cases effect with
  | still still =>
    constructor
    · rw [still.userMpm]
      exact counted.userMpm
    · rw [still.estab,still.stations]
      exact counted.count
  | @move i sta p found alive moves =>
    obtain ⟨mpm,same⟩ := moves_weight moves alive counted.userMpm
    have moved : p.sdata.estabPlinks - (if p.sta.established then 1 else 0) =
        w.sdata.estabPlinks - (if sta.established then 1 else 0) := same
    refine ⟨mpm,?_⟩
    show p.sdata.estabPlinks = total _ (w.stations.set i p.sta)
    rw [total_set found]
    have count := counted.count
    omega

theorem run_counted (run : Reach start w) (counted : Counted start) : Counted w := by
  induction run with
  | refl => exact counted
  | step prior ran ih =>
    obtain ⟨_,before,effect⟩ := step_effect ran
    rcases before with rfl | ⟨_,_,new⟩
    · exact effect_counted ih effect
    · exact effect_counted (added_counted ih new) effect

end Mac80211.MeshPlink

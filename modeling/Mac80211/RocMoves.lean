import Mathlib.Tactic.Abel
import Mac80211.RocLive
import Mac80211.RocLedger

namespace Mac80211.Roc

open List (map_cons map_append flatMap_map flatMap_cons map_nil map_map)
open Multiset (coe_add cons_add cons_coe add_cons coe_nil cons_swap coe_singleton singleton_add)

def Entry.requests (e : Entry) : List Request := (e.roc :: e.dependents).map RocWork.toRequest

def requests (list : List Entry) : List Request := list.flatMap Entry.requests

def live (list : List Entry) : Multiset Request := requests list

def World.ledger (w : World) : Ledger := ⟨live w.rocList + live w.tmpList,w.toBeFreed,w.asked,w.reports⟩

section places
variable (e : Entry) (list rest : List Entry)

theorem live_nil : live [] = 0 := rfl

theorem live_cons : live (e :: list) = (e.requests : Multiset Request) + live list := by
  unfold live requests
  rw [flatMap_cons,coe_add]

theorem live_append : live (list ++ rest) = live list + live rest := by
  unfold live requests
  rw [List.flatMap_append,coe_add]

theorem live_middle : live (list ++ e :: rest) = (e.requests : Multiset Request) + live (list ++ rest) := by
  rw [live_append,live_append,live_cons]
  abel

theorem live_extend (roc : RocWork) : ((e.extend roc).requests : Multiset Request) = roc.toRequest ::ₘ (e.requests : Multiset Request) := by
  unfold Entry.requests Entry.extend
  rw [map_cons,map_cons,map_append,← cons_coe,← coe_add,List.map_singleton,coe_singleton,
    ← cons_coe,cons_swap,← singleton_add roc.toRequest,add_comm]

theorem live_takeIn (roc : RocWork) : (({e with dependents := e.dependents ++ [roc]} : Entry).requests : Multiset Request) =
    roc.toRequest ::ₘ (e.requests : Multiset Request) := live_extend e roc

theorem live_fresh (rocs : List RocWork) : live (rocs.map fresh) = (rocs.map RocWork.toRequest : List Request) := by
  induction rocs with
  | nil => rfl
  | cons roc rest ih =>
    rw [map_cons,live_cons,ih,map_cons,← cons_coe]
    rfl

theorem live_map (f : Entry → Entry) (same : ∀ e, (f e).requests = e.requests) : live (list.map f) = live list := by
  unfold live requests
  rw [flatMap_map]
  exact congrArg _ (List.flatMap_congr fun e _ => same e)

theorem live_filter (p : Entry → Bool) : live (list.filter p) + live (list.filter fun e => !p e) = live list := by
  induction list with
  | nil => rfl
  | cons e rest ih =>
    rw [List.filter_cons,List.filter_cons]
    cases p e
    · rw [if_neg Bool.false_ne_true,if_pos (by rfl),live_cons,live_cons,← ih]
      abel
    · rw [if_pos rfl,if_neg (by simp),live_cons,live_cons,← ih]
      abel

end places

section lists

-- It waits, or is told that it has started.
inductive Joined (new : Request) : Request → List Report → Prop where
  | waits : Joined new new []
  | told : Joined new new.handleStarted.1 new.handleStarted.2

theorem coalesce_live
    (found : coalesceStartedRoc cfg j new cur list = some out) :
    live out.1 = new.toRequest.handleStarted.1 ::ₘ live (cur :: list) ∧ out.2 = new.toRequest.handleStarted.2 := by
  unfold coalesceStartedRoc at found
  dsimp only at found
  split at found
  · cases found
  split at found
  · cases found
  split at found
  · cases found
    refine ⟨?_,rfl⟩
    rw [live_cons,live_takeIn,live_cons,cons_add]
    rfl
  split at found
  · cases found
    refine ⟨?_,rfl⟩
    rw [live_cons,live_cons,live_nil,live_cons,live_nil,add_zero,add_zero,add_comm]
    rfl
  split at found
  · cases found
    refine ⟨?_,rfl⟩
    rw [live_cons,live_cons,live_extend,live_cons,live_cons,cons_add,add_cons]
    rfl
  · cases found
    refine ⟨?_,rfl⟩
    rw [live_cons,live_cons,live_cons,add_left_comm]
    rfl

theorem combine_live (found : checkCombine cfg j new list = some out) :
    ∃ r, Joined new.toRequest r out.2 ∧ live out.1 = r ::ₘ live list := by
  induction list generalizing out with
  | nil => cases found
  | cons tmp rest ih =>
    unfold checkCombine at found
    split at found
    · obtain ⟨_,within,same⟩ := Option.map_eq_some_iff.mp found
      obtain ⟨r,joined,placed⟩ := ih within
      cases same
      refine ⟨r,joined,?_⟩
      rw [live_cons,live_cons,placed,add_cons]
    split at found
    · cases found
      refine ⟨_,.waits,?_⟩
      rw [live_cons,live_cons,live_extend,cons_add]
    split at found
    · split at found
      · cases found
        refine ⟨_,.waits,?_⟩
        rw [live_cons,live_cons,live_takeIn,cons_add]
      · obtain ⟨placed,told⟩ := coalesce_live found
        exact ⟨_,told ▸ .told,placed⟩
    · split at found
      · cases found
        refine ⟨_,.told,?_⟩
        rw [live_cons,live_cons,live_takeIn,cons_add]
        rfl
      · cases found

theorem erase_live {deps : List RocWork} (here : deps.find? p = some dep) :
    (deps.map RocWork.toRequest : Multiset Request) = dep.toRequest ::ₘ ((deps.eraseP p).map RocWork.toRequest : List Request) := by
  induction deps with
  | nil => cases here
  | cons other rest ih =>
    rw [List.find?_cons] at here
    rw [List.eraseP_cons]
    cases this : p other with
    | true =>
      rw [this] at here
      cases here
      rfl
    | false =>
      rw [this] at here
      rw [cond_false,map_cons,map_cons,← cons_coe,ih here,cons_swap]
      rfl

theorem find_live (found : find p list = some (.dependent rest dep)) :
    live list = dep.toRequest ::ₘ live rest := by
  induction list generalizing rest with
  | nil => cases found
  | cons roc others ih =>
    unfold find at found
    split at found
    · rename_i dep' here
      cases found
      rw [live_cons,live_cons,← cons_add]
      refine congrArg (· + live others) ?_
      unfold Entry.requests
      rw [map_cons,map_cons,← cons_coe,← cons_coe,erase_live here,cons_swap]
    · split at found
      · cases found
      · obtain ⟨inner,within,same⟩ := Option.map_eq_some_iff.mp found
        cases inner with
        | entry => cases same
        | dependent =>
          cases same
          rw [live_cons,live_cons,ih within,add_cons]

theorem begin_live (deps : List RocWork) (duration : Nat) (stay moved : List RocWork) :
    (((beginDependents deps duration stay moved).2.1 ++ (beginDependents deps duration stay moved).2.2).map RocWork.toRequest : List Request) =
      (((stay ++ moved).map RocWork.toRequest : List Request) : Multiset Request) + (deps.map fun dep => dep.toRequest.handleStarted.1 : List Request) := by
  induction deps generalizing duration stay moved with
  | nil =>
    rw [map_nil,coe_nil,add_zero]
    rfl
  | cons dep rest ih =>
    unfold beginDependents
    dsimp only
    split
    · rw [ih]
      simp only [map_append,map_cons,← coe_add,← cons_coe,cons_add,add_cons]
      rfl
    · rw [ih]
      simp only [map_append,map_cons,← coe_add,← cons_coe,map_nil,coe_nil,cons_add,add_cons,add_zero]
      rfl

end lists

section destroy
variable (e : Entry) (there : Multiset Request) (held : Multiset Nat) (asked : List Nat) (reports : Multiset Report)

theorem destroy_free : Moves ⟨e.requests + there,held,asked,reports⟩ ⟨there,held,asked,reports + (notifyDestroy e true : Multiset Report)⟩ := by
  have moves := moves_leaveAll e.requests ⟨there,held,asked,reports⟩
  have same : (notifyDestroy e true : Multiset Report) = (e.requests.flatMap fun r => r.destroyReports ++ [Report.freed r.id] : List Report) := by
    unfold notifyDestroy Entry.requests
    rw [map_cons,flatMap_cons,flatMap_map,if_pos rfl]
    simp only [← coe_add]
    abel
  rwa [same]

theorem destroy_hold : Moves ⟨e.requests + there,held,asked,reports⟩
    ⟨there,e.roc.id ::ₘ held,asked,reports + (notifyDestroy e false : Multiset Report)⟩ := by
  have first := moves_leaveAll (e.dependents.map RocWork.toRequest) ⟨e.roc.toRequest ::ₘ there,held,asked,reports⟩
  have last : Moves _ _ := .single (.destroy e.roc.toRequest ⟨there,held,asked,
    reports + ((e.dependents.map RocWork.toRequest).flatMap fun r => r.destroyReports ++ [Report.freed r.id] : List Report)⟩)
  have same : (notifyDestroy e false : Multiset Report) =
      ((e.dependents.map RocWork.toRequest).flatMap fun r => r.destroyReports ++ [Report.freed r.id] : List Report) + (e.roc.destroyReports : Multiset Report) := by
    unfold notifyDestroy
    rw [flatMap_map,if_neg Bool.false_ne_true,List.append_nil,← coe_add,add_comm]
  have here : ((e.requests : Multiset Request) + there) = (e.dependents.map RocWork.toRequest : List Request) + e.roc.toRequest ::ₘ there := by
    unfold Entry.requests
    rw [map_cons,← cons_coe,cons_add,add_cons]
  rw [same,here,← add_assoc]
  exact first.trans last

theorem destroy_all (list : List Entry) : ∀ reports : Multiset Report, Moves ⟨live list + there,held,asked,reports⟩
    ⟨there,held,asked,reports + (list.flatMap fun roc => notifyDestroy roc true : List Report)⟩ := by
  induction list with
  | nil =>
    intro reports
    rw [live_nil,zero_add,List.flatMap_nil,coe_nil,add_zero]
    exact .refl
  | cons roc rest ih =>
    intro reports
    rw [live_cons,add_assoc (roc.requests : Multiset Request),flatMap_cons,← coe_add,← add_assoc reports]
    exact (destroy_free roc (live rest + there) held asked reports).trans (ih _)

theorem started_reports : (e.requests.flatMap fun r => r.handleStarted.2) = e.startReports := by
  unfold Entry.requests Entry.startReports
  rw [flatMap_map,flatMap_cons]
  rfl

theorem started_requests : (e.requests.map fun r => r.handleStarted.1) = e.handleStarted.requests := by
  unfold Entry.requests Entry.handleStarted
  rw [map_map,map_cons,map_cons,map_map]
  rfl

end destroy

section moves

theorem startNext_ledger (w : World) (accept : Bool) : (startNextRoc cfg w accept).ledger = w.ledger := by
  unfold startNextRoc
  split
  · rfl
  · rename_i roc rest list
    split
    · rfl
    · unfold World.ledger
      split <;> rw [list,live_cons,live_cons] <;> rfl

theorem request_moves (sdata chan duration txskb type : Nat) (busy : Bool) (j : Nat) (accept : Bool) :
    Moves w.ledger (startRocWork cfg w sdata chan duration txskb type busy j accept).ledger := by
  obtain ⟨beside,_,new,_,became⟩ := startRocWork_asked cfg w sdata chan duration txskb type busy j accept
  generalize startRocWork cfg w sdata chan duration txskb type busy j accept = after at beside became
  have asks : Moves w.ledger _ := .single (.ask txskb w.ledger)
  unfold World.ledger at *
  rw [beside.tmpList,beside.toBeFreed]
  cases became with
  | refused list asked reports =>
    rw [list,asked,reports]
    exact .refl
  | combined list reports found same asked told =>
    obtain ⟨r,joined,placed⟩ := combine_live found
    rw [same,asked,told,placed,cons_add,← coe_add]
    cases joined with
    | waits =>
      rw [new,coe_nil,add_zero]
      exact asks
    | told =>
      rw [new]
      exact asks.tail (.tell (newRequest w txskb) ⟨live w.rocList + live w.tmpList,w.toBeFreed,w.asked ++ [txskb],w.reports⟩)
  | behind e same alone abort list asked told =>
    rw [list,asked,told,live_append,add_right_comm,live_cons,live_nil,add_zero]
    unfold Entry.requests
    rw [alone,same,List.map_singleton,new,coe_singleton,add_comm _ {newRequest w txskb},singleton_add]
    exact asks

theorem cancel_moves (cookie : Nat) (mgmtTx drvOk accept : Bool) : Moves w.ledger (cancelRoc cfg w cookie mgmtTx drvOk accept).ledger := by
  unfold cancelRoc
  split
  · exact .refl
  · rename_i list dep found
    have leaves := moves_leave dep.toRequest ⟨live list + live w.tmpList,w.toBeFreed,w.asked,w.reports⟩
    unfold World.ledger World.report
    rw [find_live found,cons_add,← coe_add]
    exact leaves
  rename_i before roc after found
  have split := find_entry found
  split
  · split
    · exact .refl
    have started : ∀ mid : World, mid.ledger = ⟨live (before ++ after) + live w.tmpList,w.toBeFreed,w.asked,w.reports⟩ →
        Moves w.ledger (mid.report (notifyDestroy roc true)).ledger := by
      intro _ same
      have destroys := destroy_free roc (live (before ++ after) + live w.tmpList) w.toBeFreed w.asked w.reports
      rw [← add_assoc,← live_middle,← split] at destroys
      have placed := congrArg Ledger.live same
      have held := congrArg Ledger.held same
      have asked := congrArg Ledger.asked same
      have reports := congrArg Ledger.reports same
      dsimp only [World.ledger] at placed held asked reports
      unfold World.ledger World.report
      rw [placed,held,asked,← coe_add,reports]
      exact destroys
    split
    · exact started _ (startNext_ledger _ accept)
    · exact started _ rfl
  · unfold World.ledger
    rw [split,live_middle,live_middle]
    exact .refl

theorem finish_moves (w : World) (roc : Entry) :
    Moves ⟨roc.requests + (live w.rocList + live w.tmpList),w.toBeFreed,w.asked,w.reports⟩ (finish cfg w roc).ledger := by
  unfold finish
  have same : ∀ mid : World, (if roc.started then startNextRoc cfg mid true else mid).ledger = mid.ledger := by
    intro mid
    split
    · exact startNext_ledger mid true
    · rfl
  rw [same]
  unfold World.ledger World.report
  cases abort : roc.abort with
  | true =>
    have destroys := destroy_hold roc (live w.rocList + live w.tmpList) w.toBeFreed w.asked w.reports
    rw [if_pos rfl]
    rw [← coe_add,← coe_add,add_comm (w.toBeFreed : Multiset Nat),coe_singleton,singleton_add]
    exact destroys
  | false =>
    have destroys := destroy_free roc (live w.rocList + live w.tmpList) w.toBeFreed w.asked w.reports
    exact destroys

theorem work_moves (id : Nat) : Moves w.ledger (swRocWork cfg w id).ledger := by
  unfold swRocWork
  split
  · rename_i before roc after found
    obtain ⟨e,split,_,made⟩ := take_some found
    have requests : roc.requests = e.requests := by rw [made]; rfl
    have placed : w.ledger = ⟨roc.requests + (live (before ++ after) + live w.tmpList),w.toBeFreed,w.asked,w.reports⟩ := by
      unfold World.ledger
      rw [split,live_middle,requests,add_assoc]
    rw [placed]
    split
    · exact finish_moves {w with rocList := before ++ after} roc
    split
    · unfold World.ledger
      rw [live_middle,add_assoc]
      exact .refl
    rename_i first
    have alone : before = [] := by
      cases before with
      | nil => rfl
      | cons => exact absurd rfl first
    subst alone
    split
    · have tells := moves_tellAll roc.requests ⟨live after + live w.tmpList,w.toBeFreed,w.asked,w.reports⟩
      rw [started_requests,started_reports] at tells
      refine tells.trans ?_
      dsimp only
      split
      · have ends := @finish_moves cfg ({w.report roc.startReports with rocList := after} : World) roc.handleStarted
        exact ends
      · unfold World.ledger World.report
        rw [live_cons,add_assoc,← coe_add]
        exact .refl
    · exact finish_moves {w with rocList := after} roc
  split
  · rename_i before roc after found
    obtain ⟨e,split,_,made⟩ := take_some found
    have requests : roc.requests = e.requests := by rw [made]; rfl
    have ends := @finish_moves cfg {w with tmpList := before ++ after} roc
    have placed : w.ledger = ⟨roc.requests + (live w.rocList + live (before ++ after)),w.toBeFreed,w.asked,w.reports⟩ := by
      unfold World.ledger
      rw [split,live_middle,requests,add_left_comm]
    rw [placed]
    exact ends
  · exact .refl

theorem hwStart_moves : Moves w.ledger (hwRocStartWork w).ledger := by
  unfold hwRocStartWork
  split
  · exact .refl
  dsimp only
  split
  · exact .refl
  rename_i roc rest list
  split
  · exact .refl
  have tells := moves_tellAll roc.requests ⟨live rest + live w.tmpList,w.toBeFreed,w.asked,w.reports⟩
  have begins := begin_live roc.dependents roc.roc.duration [] []
  rw [started_reports] at tells
  unfold World.ledger World.report
  rw [list,live_cons,add_assoc]
  refine tells.trans ?_
  rw [List.cons_append,live_cons,live_append,live_fresh,← coe_add]
  rw [List.nil_append,map_nil,coe_nil,zero_add,map_append,← coe_add] at begins
  have same : (roc.requests.map fun r => r.handleStarted.1 : Multiset Request) + (live rest + live w.tmpList) =
      ((roc.roc.toRequest.handleStarted.1 ::ₘ ((beginDependents roc.dependents roc.roc.duration [] []).2.1.map RocWork.toRequest : Multiset Request)) +
        (((beginDependents roc.dependents roc.roc.duration [] []).2.2.map RocWork.toRequest : List Request) + live rest)) + live w.tmpList := by
    unfold Entry.requests
    rw [map_cons,map_cons,← cons_coe,map_map]
    rw [show ((List.map ((fun r => r.handleStarted.1) ∘ RocWork.toRequest) roc.dependents : List Request) : Multiset Request) = _ from begins.symm]
    simp only [cons_add]
    abel_nf
  rw [same]
  exact .refl

theorem hwDone_moves (accept : Bool) : Moves w.ledger (hwRocDoneWork cfg w accept).ledger := by
  unfold hwRocDoneWork
  split
  · exact .refl
  dsimp only
  split
  · exact .refl
  · rename_i roc rest list
    split
    · exact .refl
    · have destroys := destroy_free roc (live rest + live w.tmpList) w.toBeFreed w.asked w.reports
      rw [startNext_ledger]
      unfold World.ledger World.report
      rw [list,live_cons,add_assoc,← coe_add]
      exact destroys

theorem purge_moves (sdata : Option Nat) (empty : w.tmpList = []) : Moves w.ledger (rocPurge cfg w sdata).ledger := by
  have placed := live_filter w.rocList fun roc => sdata.all (· == roc.roc.sdata)
  unfold rocPurge
  split
  · have destroys := destroy_all (live (w.rocList.filter fun roc => !sdata.all (· == roc.roc.sdata)) + live w.tmpList) w.toBeFreed w.asked
      (w.rocList.filter fun roc => sdata.all (· == roc.roc.sdata)) w.reports
    rw [← add_assoc,placed] at destroys
    exact destroys
  · unfold World.ledger
    rw [live_map _ (fun roc => {roc with abort := true}) fun _ => rfl,empty,live_nil,add_zero,add_comm,placed]
    exact .refl

theorem fire_ledger (id : Nat) : (fire w id).ledger = w.ledger := by
  unfold fire World.ledger
  rw [live_map,live_map]
  all_goals
    intro e
    split <;> rfl

end moves

end Mac80211.Roc

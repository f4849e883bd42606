import Mac80211.Ibss
import Mac80211.Transitions

namespace Mac80211.Ibss
open Chan (Chandef Mode)
open RxReorder (Jiffies)
open Transitions (Run)

def Consistent (s : Sdata) : Prop :=
  s.ibss.presp.isSome = decide (s.ibss.state = .joined) ∧
  s.conf.ibssJoined = decide (s.ibss.state = .joined) ∧
  s.chanctxConf.isSome = decide (s.ibss.state = .joined)

def granted (a : Answers) (chandef : Chandef) (mode : Mode) : Bool :=
  match a.dfsRequired chandef,a.context chandef mode with
  | .ok radar,.ok _ =>
    (a.checkCombinations chandef mode (if radar then some chandef.width else none)).isNone && a.assign.isNone
  | _,_ => false

def buildable (hw : Hw) (a : Answers) (s : Sdata) (n : Announced) (csa : Option CsaSettings) : Bool :=
  a.alloc && decide ((ibssPresp hw s.ibss.htCapa s.ibss.htCapaMask n (s.extra a.other) csa).head.length ≤ frameLen s.ibss.ieLen)

-- It may fail while searching, but not for want of a beacon on a channel it got, and not while joined.
def harmless (hw : Hw) (a : Answers) (s : Sdata) (j : Join) : Bool :=
  match beaconChandef a j.chandef with
  | none => s.ibss.state == .search
  | some chandef =>
    if dfsAllowed a s.ibss.userspaceHandlesDfs chandef && granted a chandef s.ibss.mode then
      buildable hw a s (announced s j chandef) none && (s.ibss.state == .search || a.drvJoinIbss.isNone)
    else s.ibss.state == .search

def clean (hw : Hw) (hz : Jiffies) (s : Sdata) : Event → Bool
  | .join a p _ => s.ibss.state == .search || (joinRefusal a p).isSome
  | .work a now active found random => (workAttempt hw hz now active found random s).all (harmless hw a s)
  | .beacon a bss ssid handled beaconTimestamp rxTimestamp =>
    (beaconAttempt hw bss ssid handled beaconTimestamp rxTimestamp s).all (harmless hw a s)
  | .finishSwitch a csaChandef tsf => s.ibss.state == .joined || tsf.all fun tsf =>
    !buildable hw a s ⟨s.ibss.bssid,s.ibss.ssid,s.conf.beaconInt,s.conf.basicRates,s.privacy,tsf,csaChandef⟩ none
  | .leave | .scanCompleted _ | .connectionDrop | .announceSwitch _ _ _ => true

section join
variable {hw : Hw} {a : Answers} {s : Sdata}

theorem buildPresp_none : buildPresp hw a s n csa = none ↔ buildable hw a s n csa = false := by
  unfold buildPresp buildable
  rw [ibssBuildPresp_none]
  simp

theorem vifUseChannel_cases (a : Answers) (chandef : Chandef) (mode : Mode) (s : Sdata) :
    (granted a chandef mode = true ∧ ∃ conf, vifUseChannel a chandef mode s = (none,{s with chanctxConf := some conf})) ∨
    (granted a chandef mode = false ∧ ∃ err kept, (kept = s.chanctxConf ∨ kept = none) ∧
      vifUseChannel a chandef mode s = (some err,{s with chanctxConf := kept})) := by
  unfold granted vifUseChannel
  cases dfs : a.dfsRequired chandef with
  | error err => exact .inr ⟨rfl,err,s.chanctxConf,.inl rfl,rfl⟩
  | ok radar =>
    cases context : a.context chandef mode with
    | error err =>
      refine .inr ⟨rfl,?_⟩
      dsimp only
      cases a.checkCombinations chandef mode (if radar then some chandef.width else none) with
      | some err => exact ⟨err,s.chanctxConf,.inl rfl,rfl⟩
      | none => exact ⟨err,none,.inr rfl,rfl⟩
    | ok conf =>
      dsimp only
      cases a.checkCombinations chandef mode (if radar then some chandef.width else none) with
      | some err => exact .inr ⟨rfl,err,s.chanctxConf,.inl rfl,rfl⟩
      | none =>
        cases assign : a.assign with
        | some err => exact .inr ⟨rfl,err,none,.inr rfl,rfl⟩
        | none => exact .inl ⟨rfl,conf,rfl⟩

theorem leaveOld_joined (s : Sdata) : (leaveOld s).conf.ibssJoined = false := by
  unfold leaveOld
  cases joined : s.conf.ibssJoined <;> simp [joined,notJoined]

theorem left_consistent (consistent : Consistent s) {kept : Option Chandef} (old : kept = s.chanctxConf ∨ kept = none) :
    Consistent {leaveOld s with chanctxConf := kept} ↔ (s.ibss.state == .search) = true := by
  have gone : (leaveOld s).ibss.presp = none := rfl
  have state : (leaveOld s).ibss.state = s.ibss.state := rfl
  unfold Consistent
  rw [gone,leaveOld_joined s,state]
  cases mlme : s.ibss.state with
  | joined => simp
  | search =>
    have channel : s.chanctxConf.isSome = decide (s.ibss.state = .joined) := consistent.2.2
    have free : kept = none := by
      obtain rfl | rfl := old
      · simpa [mlme] using channel
      · rfl
    simp [free]

theorem enterIbss_consistent (j : Join) (chandef conf : Chandef) (gone : s.ibss.presp = none) (left : s.conf.ibssJoined = false)
    (channel : s.chanctxConf = some conf) :
    Consistent (enterIbss hw a j chandef s).1 ↔
      (buildable hw a s (announced s j chandef) none && (s.ibss.state == .search || a.drvJoinIbss.isNone)) = true := by
  unfold enterIbss
  cases built : buildPresp hw a s (announced s j chandef) none with
  | none =>
    rw [buildPresp_none.mp built]
    cases state : s.ibss.state <;> simp [Consistent,gone,left,channel,state]
  | some =>
    have fits : buildable hw a s (announced s j chandef) none ≠ false := by
      intro short
      rw [buildPresp_none.mpr short] at built
      cases built
    cases driver : a.drvJoinIbss <;> cases state : s.ibss.state <;> simp [Consistent,notJoined,channel,state,fits]

theorem joinIbss_consistent (j : Join) (consistent : Consistent s) : Consistent (joinIbss hw a j s).1 ↔ harmless hw a s j = true := by
  unfold joinIbss harmless
  cases beaconChandef a j.chandef with
  | none => exact left_consistent consistent (.inl rfl)
  | some chandef =>
    dsimp only
    have handled : (leaveOld s).ibss.userspaceHandlesDfs = s.ibss.userspaceHandlesDfs := rfl
    have mode : (leaveOld s).ibss.mode = s.ibss.mode := rfl
    rw [handled,mode]
    cases dfsAllowed a s.ibss.userspaceHandlesDfs chandef with
    | false => exact left_consistent consistent (.inl rfl)
    | true =>
      rw [Bool.true_and,Bool.not_true,if_neg Bool.false_ne_true]
      obtain ⟨gets,conf,eq⟩ | ⟨refused,_,_,old,eq⟩ := vifUseChannel_cases a chandef s.ibss.mode (leaveOld s)
      · rw [eq,if_pos gets]
        exact enterIbss_consistent j chandef conf rfl (leaveOld_joined s) rfl
      · rw [eq,refused,if_neg Bool.false_ne_true]
        exact left_consistent consistent old

theorem attempt_consistent (attempt : Option Join) (consistent : Consistent s) :
    Consistent (attempt.elim (s,none) fun j => joinIbss hw a j s).1 ↔ attempt.all (harmless hw a s) = true := by
  cases attempt with
  | none => exact iff_of_true consistent rfl
  | some j => exact joinIbss_consistent j consistent

theorem csaBeacon_consistent (csa : Option CsaSettings) (tsf : Option UInt64) (consistent : Consistent s) :
    Consistent (ibssCsaBeacon hw a csa tsf s).1 ↔ (s.ibss.state == .joined || tsf.all fun tsf =>
      !buildable hw a s ⟨s.ibss.bssid,s.ibss.ssid,s.conf.beaconInt,s.conf.basicRates,s.privacy,tsf,s.ibss.chandef⟩ csa) = true := by
  unfold ibssCsaBeacon
  cases tsf with
  | none => exact iff_of_true consistent (by simp)
  | some tsf =>
    dsimp only
    cases built : buildPresp hw a s ⟨s.ibss.bssid,s.ibss.ssid,s.conf.beaconInt,s.conf.basicRates,s.privacy,tsf,s.ibss.chandef⟩ csa with
    | none =>
      have short := buildPresp_none.mp built
      exact iff_of_true consistent (by simp [short])
    | some =>
      have fits : buildable hw a s ⟨s.ibss.bssid,s.ibss.ssid,s.conf.beaconInt,s.conf.basicRates,s.privacy,tsf,s.ibss.chandef⟩ csa = true := by
        cases short : buildable hw a s ⟨s.ibss.bssid,s.ibss.ssid,s.conf.beaconInt,s.conf.basicRates,s.privacy,tsf,s.ibss.chandef⟩ csa with
        | true => rfl
        | false =>
          rw [buildPresp_none.mpr short] at built
          cases built
      cases state : s.ibss.state <;> simp_all [Consistent]

theorem ibssJoin_consistent (p : Params) (now : Jiffies) (consistent : Consistent s) :
    Consistent (serve hw hz s (.join a p now)).1 ↔ (s.ibss.state == .search || (joinRefusal a p).isSome) = true := by
  rw [serve_join]
  cases refused : joinRefusal a p with
  | some => exact iff_of_true consistent (by simp)
  | none =>
    have kept (s : Sdata) : Consistent (copyElements a p.ie s) ↔ Consistent s := by
      unfold copyElements
      cases p.ie with
      | none => rfl
      | some => cases a.alloc <;> rfl
    refine (kept (configure hw p now s)).trans ?_
    cases state : s.ibss.state <;> simp_all [Consistent,configure]

end join

section runs
variable {hw : Hw} {hz : Jiffies} {s : Sdata}

theorem ibssDisconnect_consistent (s : Sdata) : Consistent (ibssDisconnect s) := ⟨rfl,rfl,rfl⟩

theorem step_consistent (e : Event) (consistent : Consistent s) : Consistent (step hw hz s e) ↔ clean hw hz s e = true := by
  unfold step
  cases e with
  | join a p now => exact ibssJoin_consistent p now consistent
  | leave | connectionDrop => exact iff_of_true (ibssDisconnect_consistent s) rfl
  | work a now active found random =>
    have made : serve hw hz s (.work a now active found random) = _ := ibssWork_attempt ..
    rw [made]
    exact attempt_consistent _ consistent
  | beacon a bss ssid handled beaconTimestamp rxTimestamp =>
    have made : serve hw hz s (.beacon a bss ssid handled beaconTimestamp rxTimestamp) = _ := rxBssInfo_attempt ..
    rw [made]
    exact attempt_consistent _ consistent
  | scanCompleted => exact iff_of_true consistent rfl
  | announceSwitch a csa tsf =>
    refine iff_of_true ?_ rfl
    unfold serve setCsaBeacon
    cases joined : s.conf.ibssJoined with
    | false => exact consistent
    | true =>
      have state : s.ibss.state = .joined := by
        have flag := consistent.2.1
        simpa [joined] using flag
      simp only [Bool.not_true,Bool.false_eq_true,if_false]
      split_ifs
      · exact consistent
      · exact consistent
      · exact (csaBeacon_consistent (some csa) tsf consistent).mpr (by simp [state])
  | finishSwitch a csaChandef tsf => exact csaBeacon_consistent none tsf consistent

theorem membership_consistent (hw : Hw) (hz : Jiffies) {s : Sdata} (path : Run (step hw hz) (fun s e => clean hw hz s e) setup s) : Consistent s :=
  path.keeps Consistent ⟨rfl,rfl,rfl⟩ fun _ e consistent cleans => (step_consistent e consistent).mpr cleans

def joining : List Event := [.join willing (request none) 10,.work willing 20 false (some (network 7 5)) (macAddr 0 0 0 0 0 0)]

theorem membership_consistent_sample :
    (run radio 100 setup joining).ibss.state = .joined ∧ Consistent (run radio 100 setup joining) :=
  ⟨by decide +kernel,membership_consistent radio 100
    ((Run.start.next (e := joining[0]) (by decide +kernel)).next (e := joining[1]) (by decide +kernel))⟩

def refusedMerge : Event := .beacon {willing with drvJoinIbss := some (.driver 5)} (network 9 5000) [109,97,99] false 5000 40
def unbuiltBeacon : Event := .work {willing with alloc := false} 20 false (some (network 7 5)) (macAddr 0 0 0 0 0 0)

theorem failed_merge_stays_joined :
    ¬(∀ events : List Event, Consistent (run radio 100 setup events)) ∧
    (run radio 100 setup (joining ++ [refusedMerge])).ibss.state = .joined ∧
    (run radio 100 setup (joining ++ [refusedMerge])).ibss.presp = none ∧
    (run radio 100 setup [joining[0],unbuiltBeacon]).ibss.state = .search ∧
    (run radio 100 setup [joining[0],unbuiltBeacon]).chanctxConf = some channel1 := by
  refine ⟨?_,by decide +kernel,by decide +kernel,by decide +kernel,by decide +kernel⟩
  intro always
  have agree := (always (joining ++ [refusedMerge])).1
  revert agree
  decide +kernel

end runs

end Mac80211.Ibss

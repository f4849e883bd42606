import Mathlib.Tactic.Ring
import Mac80211.IfaceCount

namespace Mac80211.Iface
open Finset
open Option (some_ne_none)

section steps

theorem link_alike (linked : link w i answers = .ok after) : Alike w after ∧ after.monitorSdata = w.monitorSdata := by
  unfold link at linked
  split at linked
  · split at linked <;> cases linked
    exact ⟨.refl w,rfl⟩
  · split at linked <;> cases linked
    exact ⟨setSdata_alike w _ _ ⟨rfl,rfl,rfl⟩,rfl⟩
  · cases linked
    exact ⟨setSdata_alike w _ _ ⟨rfl,rfl,rfl⟩,rfl⟩
  · cases linked
    exact ⟨.refl w,rfl⟩

theorem addVirtualMonitor_keeps (want : Bool) (w : World) (answer : Option Errno) :
    (addVirtualMonitor want w answer).1.sdata = w.sdata ∧ (addVirtualMonitor want w answer).1.counts = w.counts := by
  unfold addVirtualMonitor
  split
  · exact ⟨rfl,rfl⟩
  · split <;> exact ⟨rfl,rfl⟩

theorem delVirtualMonitor_keeps (want : Bool) (w : World) :
    (delVirtualMonitor want w).sdata = w.sdata ∧ (delVirtualMonitor want w).counts = w.counts := by
  unfold delVirtualMonitor
  split <;> exact ⟨rfl,rfl⟩

theorem monitor_counts (w : World) (flags : MonitorFlags) (offset : Int) :
    (adjustMonitorFlags (w.adjust .monitors offset) flags offset).sdata = w.sdata ∧
      ∀ c, (adjustMonitorFlags (w.adjust .monitors offset) flags offset).counts c =
        w.counts c + offset * ((if c = .monitors then 1 else 0) + flags.filters c) := by
  refine ⟨adjustMonitorFlags_sdata _ _ _,fun c => ?_⟩
  rw [adjustMonitorFlags_counts]
  unfold World.adjust
  dsimp only
  split <;> ring

-- The branch of attach for an interface that the driver gets.
def attachDriver (want : Bool) (counted : World → World) (w : World) (answers : Answers) : World × Option Errno :=
  match answers.addInterface.or answers.checkQueues with
  | some err => (delVirtualMonitor want w,some err)
  | none => (counted (delVirtualMonitor want w),none)

theorem attachDriver_counts (want : Bool) (w : World) (answers : Answers) (counted : World → World) (share : Counter → Int)
    (sdata : ∀ v, (counted v).sdata = v.sdata) (counts : ∀ v c, (counted v).counts c = v.counts c + share c) :
    (attachDriver want counted w answers).1.sdata = w.sdata ∧
      ∀ c, (attachDriver want counted w answers).1.counts c = w.counts c + if (attachDriver want counted w answers).2 = none then share c else 0 := by
  obtain ⟨deleted,less⟩ := delVirtualMonitor_keeps want w
  unfold attachDriver
  cases answers.addInterface.or answers.checkQueues with
  | some err => exact ⟨deleted,fun c => by rw [if_neg (some_ne_none err),less,add_zero]⟩
  | none => exact ⟨(sdata _).trans deleted,fun c => by rw [if_pos rfl,counts,less]⟩

theorem attach_counts (want : Bool) (w : World) (i : Nat) (answers : Answers) : (attach want w i answers).1.sdata = w.sdata ∧
      ∀ c, (attach want w i answers).1.counts c = w.counts c + if (attach want w i answers).2 = none then (w.sdata i).counted c else 0 := by
  unfold attach Sdata.counted
  cases (w.sdata i).type with
  | apVlan => exact ⟨rfl,fun c => (by simp)⟩
  | monitor =>
    dsimp only
    split
    · exact ⟨rfl,fun c => rfl⟩
    generalize asked : (if (w.sdata i).mntrFlags.active = true then (w,answers.addInterface)
      else if w.counts .monitors = 0 ∧ w.counts .openCount = 0 then addVirtualMonitor want w answers.virtualMonitor else (w,none)) = out
    have keeps : out.1.sdata = w.sdata ∧ out.1.counts = w.counts := by
      rw [← asked]
      split
      · exact ⟨rfl,rfl⟩
      · split
        · exact addVirtualMonitor_keeps want w answers.virtualMonitor
        · exact ⟨rfl,rfl⟩
    obtain ⟨v,err⟩ := out
    obtain ⟨sdata,counts⟩ := keeps
    cases err with
    | some err => exact ⟨sdata,fun c => by rw [if_neg (some_ne_none err),add_zero]; exact congrFun counts c⟩
    | none =>
      obtain ⟨sdata',counts'⟩ := monitor_counts v (w.sdata i).mntrFlags 1
      refine ⟨sdata'.trans sdata,fun c => ?_⟩
      rw [if_pos rfl]
      exact (counts' c).trans (by rw [one_mul,congrFun counts c])
  | ap =>
    exact attachDriver_counts want w answers (fun v => (v.adjust .fifPspoll 1).adjust .fifProbeReq 1) _ (fun _ => rfl) fun v c => add_assoc ..
  | adhoc => exact attachDriver_counts want w answers (fun v => v.adjust .fifProbeReq 1) _ (fun _ => rfl) fun v c => rfl
  | _ => exact attachDriver_counts want w answers id (fun _ => 0) (fun _ => rfl) fun v c => (add_zero _).symm

def losesMonitor (want : Bool) (w : World) (i : Nat) (answers : Answers) : Prop :=
  (want = true ∧ w.monitorSdata = true) ∧ ((w.sdata i).type ≠ .apVlan ∧ (w.sdata i).type ≠ .monitor) ∧
    ((w.sdata i).type = .wds → answers.remoteAddr = true) ∧ (w.counts .openCount = 0 → answers.start = none) ∧ answers.permAddr = true ∧
    (answers.addInterface.or answers.checkQueues ≠ none ∨ (w.sdata i).type = .wds ∧ answers.sta ≠ none)

theorem delVirtualMonitor_monitor (want : Bool) (w : World) :
    (delVirtualMonitor want w).monitorSdata = w.monitorSdata ∨ want = true ∧ w.monitorSdata = true := by
  cases want with
  | false => exact .inl rfl
  | true =>
    cases there : w.monitorSdata with
    | false => exact .inl rfl
    | true => exact .inr ⟨rfl,rfl⟩

theorem attach_monitor (want : Bool) (w : World) (i : Nat) (answers : Answers) :
    ((attach want w i answers).2 ≠ none → (attach want w i answers).1.monitorSdata = w.monitorSdata ∨
        (want = true ∧ w.monitorSdata = true) ∧ ((w.sdata i).type ≠ .apVlan ∧ (w.sdata i).type ≠ .monitor) ∧
          answers.addInterface.or answers.checkQueues ≠ none) ∧
      ((w.sdata i).type = .wds → (attach want w i answers).1.monitorSdata = w.monitorSdata ∨ want = true ∧ w.monitorSdata = true) := by
  have deletes := delVirtualMonitor_monitor want w
  unfold attach
  cases type : (w.sdata i).type with
  | apVlan => exact ⟨fun failed => absurd rfl failed,fun wds => IfType.noConfusion wds⟩
  | monitor =>
    refine ⟨fun failed => .inl ?_,fun wds => IfType.noConfusion wds⟩
    dsimp only at failed ⊢
    split
    · rename_i cooked
      rw [if_pos cooked] at failed
      exact absurd rfl failed
    rename_i plain
    rw [if_neg plain] at failed
    generalize asked : (if (w.sdata i).mntrFlags.active = true then (w,answers.addInterface)
      else if w.counts .monitors = 0 ∧ w.counts .openCount = 0 then addVirtualMonitor want w answers.virtualMonitor else (w,none)) = out at failed ⊢
    have keeps : out.2 ≠ none → out.1.monitorSdata = w.monitorSdata := by
      rw [← asked]
      split
      · exact fun _ => rfl
      · split
        · unfold addVirtualMonitor
          split
          · exact fun _ => rfl
          · split
            · exact fun _ => rfl
            · exact fun refused => absurd rfl refused
        · exact fun _ => rfl
    obtain ⟨v,err⟩ := out
    cases err with
    | some err => exact keeps (some_ne_none err)
    | none => exact absurd rfl failed
  | _ =>
    cases given : answers.addInterface.or answers.checkQueues with
    | some err =>
      exact ⟨fun _ => deletes.imp_right fun both => ⟨both,⟨IfType.noConfusion,IfType.noConfusion⟩,some_ne_none err⟩,fun _ => deletes⟩
    | none =>
      refine ⟨fun failed => absurd rfl failed,fun wds => ?_⟩
      first | exact IfType.noConfusion wds | exact deletes

theorem unlinkVlan_sdata (w : World) (i j : Nat) : ((unlinkVlan w i).sdata j).type = (w.sdata j).type ∧
    ((unlinkVlan w i).sdata j).mntrFlags = (w.sdata j).mntrFlags ∧ ((unlinkVlan w i).sdata j).running = (w.sdata j).running ∧
    ((unlinkVlan w i).sdata j).bss = (w.sdata j).bss := by
  unfold unlinkVlan
  split
  · rename_i b _ _
    by_cases same : j = b
    · rw [same,setSdata_self]
      exact ⟨rfl,rfl,rfl,rfl⟩
    · rw [setSdata_other w _ same]
      exact ⟨rfl,rfl,rfl,rfl⟩
  · exact ⟨rfl,rfl,rfl,rfl⟩

theorem unlinkVlan_counts (w : World) (i : Nat) : (unlinkVlan w i).counts = w.counts ∧ (unlinkVlan w i).monitorSdata = w.monitorSdata := by
  unfold unlinkVlan
  split <;> exact ⟨rfl,rfl⟩

theorem delBss_sdata (w : World) (i j : Nat) : ((delBss w i).sdata j).type = (w.sdata j).type ∧
    ((delBss w i).sdata j).mntrFlags = (w.sdata j).mntrFlags ∧
    ((delBss w i).sdata j).running = (if j = i then false else (w.sdata j).running) ∧
    ((delBss w i).sdata j).bss = if j = i then none else (w.sdata j).bss := by
  have keeps := unlinkVlan_sdata w i j
  unfold delBss
  by_cases same : j = i
  · rw [same] at keeps ⊢
    rw [setSdata_self,if_pos rfl,if_pos rfl]
    exact ⟨keeps.1,keeps.2.1,rfl,rfl⟩
  · rw [setSdata_other _ _ same,if_neg same,if_neg same]
    exact keeps

theorem delBss_counts (w : World) (i : Nat) : (delBss w i).counts = w.counts ∧ (delBss w i).monitorSdata = w.monitorSdata := by
  exact unlinkVlan_counts w i

structure Around (i : Nat) (w v : World) : Prop where
  type : ∀ j, (v.sdata j).type = (w.sdata j).type
  mntrFlags : ∀ j, (v.sdata j).mntrFlags = (w.sdata j).mntrFlags
  running : ∀ j, j ≠ i → (v.sdata j).running = (w.sdata j).running
  bss : ∀ j, j ≠ i → (v.sdata j).bss = (w.sdata j).bss
  counts : v.counts = w.counts

structure Failed (want : Bool) (w : World) (i : Nat) (answers : Answers) (after : World) : Prop where
  alike : Alike w after
  bss : ∀ j, j ≠ i → (after.sdata j).bss = (w.sdata j).bss
  link : (after.sdata i).bss = none ∨ (w.sdata i).type ≠ .apVlan ∧ (after.sdata i).bss = (w.sdata i).bss
  monitor : after.monitorSdata = w.monitorSdata ∨ losesMonitor want w i answers

theorem delBss_failed (around : Around i w v) (down : (w.sdata i).running = false)
    (monitor : v.monitorSdata = w.monitorSdata ∨ losesMonitor want w i answers) : Failed want w i answers (delBss v i) := by
  obtain ⟨counts,kept⟩ := delBss_counts v i
  refine ⟨⟨fun j => ?_,fun j => ?_,fun j => ?_,counts.trans around.counts⟩,fun j other => ?_,.inl ?_,by rwa [kept]⟩
  · exact (delBss_sdata v i j).1.trans (around.type j)
  · exact (delBss_sdata v i j).2.1.trans (around.mntrFlags j)
  · rw [(delBss_sdata v i j).2.2.1]
    by_cases same : j = i
    · rw [if_pos same,same,down]
    · rw [if_neg same]
      exact around.running j same
  · rw [(delBss_sdata v i j).2.2.2,if_neg other]
    exact around.bss j other
  · rw [(delBss_sdata v i i).2.2.2,if_pos rfl]

theorem link_around (linked : link w i answers = .ok after) : Around i w after ∧ after.monitorSdata = w.monitorSdata ∧
    ((w.sdata i).type = .wds → answers.remoteAddr = true) := by
  obtain ⟨alike,monitor⟩ := link_alike linked
  refine ⟨⟨alike.type,alike.mntrFlags,fun j _ => alike.running j,fun j other => ?_,alike.counts⟩,monitor,fun wds => ?_⟩
  · unfold link at linked
    split at linked
    · split at linked <;> cases linked
      rfl
    · split at linked <;> cases linked
      rename_i b _
      by_cases same : j = b
      · rw [same,setSdata_self]
      · rw [setSdata_other w _ same]
    · cases linked
      rw [setSdata_other w _ other]
    · cases linked
      rfl
  · unfold link at linked
    rw [wds] at linked
    dsimp only at linked
    split at linked
    · assumption
    · cases linked

theorem link_refused (refused : link w i answers = .error err) :
    (w.sdata i).bss = none ∨ (w.sdata i).type ≠ .apVlan ∧ (w.sdata i).bss = (w.sdata i).bss := by
  unfold link at refused
  split at refused
  · rename_i wds
    exact .inr ⟨by rw [wds]; exact IfType.noConfusion,rfl⟩
  · split at refused
    · rename_i unlinked
      exact .inl unlinked
    · cases refused
  · cases refused
  · cases refused

structure Opened (w : World) (i : Nat) (after : World) : Prop where
  type : ∀ j, (after.sdata j).type = (w.sdata j).type
  mntrFlags : ∀ j, (after.sdata j).mntrFlags = (w.sdata j).mntrFlags
  running : ∀ j, (after.sdata j).running = if j = i then true else (w.sdata j).running
  bss : ∀ j, j ≠ i → (after.sdata j).bss = (w.sdata j).bss
  counts : ∀ c, after.counts c = w.counts c + (w.sdata i).contribution c

theorem doOpen_spec (want : Bool) (w : World) (i : Nat) (answers : Answers) (down : (w.sdata i).running = false) :
    ((doOpen want w i answers).2 ≠ none → Failed want w i answers (doOpen want w i answers).1) ∧
      ((doOpen want w i answers).2 = none → Opened w i (doOpen want w i answers).1) := by
  unfold doOpen
  split
  · rename_i refused
    exact ⟨fun _ => ⟨.refl w,fun _ _ => rfl,link_refused refused,.inl rfl⟩,fun opened => by cases opened⟩
  rename_i v linked
  obtain ⟨around,monitor,remote⟩ := link_around linked
  split
  · exact ⟨fun _ => delBss_failed around down (.inl monitor),fun opened => by cases opened⟩
  rename_i started
  split
  · exact ⟨fun _ => delBss_failed around down (.inl monitor),fun opened => by cases opened⟩
  rename_i addr
  obtain ⟨sdata,counts⟩ := attach_counts want v i answers
  obtain ⟨loses,wdsLoses⟩ := attach_monitor want v i answers
  generalize attach want v i answers = out at sdata counts loses wdsLoses
  obtain ⟨u,err⟩ := out
  -- Bringing it up has come this far: what it loses now, it loses for good.
  have loss : ((w.sdata i).type ≠ .apVlan ∧ (w.sdata i).type ≠ .monitor) → want = true ∧ v.monitorSdata = true →
      (answers.addInterface.or answers.checkQueues ≠ none ∨ (w.sdata i).type = .wds ∧ answers.sta ≠ none) → losesMonitor want w i answers := by
    intro driver there fails
    refine ⟨⟨there.1,monitor ▸ there.2⟩,driver,remote,fun first => ?_,by simpa using addr,fails⟩
    rwa [around.counts,if_pos first] at started
  have aroundU : ∀ counts : u.counts = v.counts, Around i w u := fun counts =>
    ⟨fun j => sdata ▸ around.type j,fun j => sdata ▸ around.mntrFlags j,fun j other => sdata ▸ around.running j other,
      fun j other => sdata ▸ around.bss j other,counts.trans around.counts⟩
  cases err with
  | some err =>
    have same : u.counts = v.counts := funext fun c => by
      rw [counts c,if_neg (some_ne_none err),add_zero]
    refine ⟨fun _ => delBss_failed (aroundU same) down ?_,fun opened => by cases opened⟩
    rcases loses (some_ne_none err) with kept | ⟨there,driver,fails⟩
    · exact .inl (kept.trans monitor)
    · refine .inr (loss ?_ there (.inl fails))
      rwa [around.type i] at driver
  | none =>
    dsimp only at sdata counts wdsLoses ⊢
    have up : ∀ j, ((u.setSdata i fun sdata => {sdata with running := true}).sdata j) =
        if j = i then {v.sdata i with running := true} else v.sdata j := by
      intro j
      by_cases same : j = i
      · rw [same,setSdata_self,if_pos rfl,sdata]
      · rw [setSdata_other u _ same,if_neg same,sdata]
    have typed : ∀ j, ((u.setSdata i fun sdata => {sdata with running := true}).sdata j).type = (w.sdata j).type ∧
        ((u.setSdata i fun sdata => {sdata with running := true}).sdata j).mntrFlags = (w.sdata j).mntrFlags := by
      intro j
      rw [up j]
      split
      · rename_i same
        rw [same]
        exact ⟨around.type i,around.mntrFlags i⟩
      · exact ⟨around.type j,around.mntrFlags j⟩
    have others : ∀ j, j ≠ i → ((u.setSdata i fun sdata => {sdata with running := true}).sdata j) = v.sdata j := fun j other => by
      rw [up j,if_neg other]
    split
    · rename_i err failed
      refine ⟨fun _ => ?_,fun opened => by cases opened⟩
      rw [(typed i).1] at failed
      split at failed
      · rename_i wds
        have none : ∀ c, (v.sdata i).counted c = 0 := by
          intro c
          unfold Sdata.counted
          rw [around.type i,wds]
        have counts' : u.counts = v.counts := funext fun c => by
          rw [counts c,if_pos rfl,none c,add_zero]
        refine delBss_failed ⟨fun j => (typed j).1,fun j => (typed j).2,fun j other => ?_,fun j other => ?_,counts'.trans around.counts⟩ down ?_
        · rw [others j other]
          exact around.running j other
        · rw [others j other]
          exact around.bss j other
        · rcases wdsLoses ((around.type i).trans wds) with kept | there
          · exact .inl (kept.trans monitor)
          · refine .inr (loss ?_ there (.inr ⟨wds,by rw [failed]; exact some_ne_none err⟩))
            rw [wds]
            exact ⟨IfType.noConfusion,IfType.noConfusion⟩
      · cases failed
    refine ⟨fun failed => absurd rfl failed,fun _ => ⟨fun j => (typed j).1,fun j => (typed j).2,fun j => ?_,fun j other => ?_,fun c => ?_⟩⟩
    · refine (congrArg Sdata.running (up j)).trans ?_
      split
      · rfl
      · rename_i other
        exact around.running j other
    · exact (congrArg Sdata.bss (others j other)).trans (around.bss j other)
    · refine (congrArg (· + if c = .openCount then (1 : Int) else 0) (counts c)).trans ?_
      unfold Sdata.contribution
      rw [if_pos rfl,around.counts,counted_alike (around.type i) (around.mntrFlags i),add_assoc]

-- What do_stop has still to take back.
def Sdata.pending (s : Sdata) (c : Counter) : Int := (if s.type = .monitor then s.counted c else 0) + if c = .openCount then 1 else 0

theorem stopFirst_sdata (w : World) (i : Nat) : (stopFirst w i).sdata = (w.setSdata i fun sdata => {sdata with running := false}).sdata := by
  unfold stopFirst
  dsimp only
  split <;> rfl

theorem stopFirst_counts (w : World) (i : Nat) (c : Counter) :
    (stopFirst w i).counts c + (w.sdata i).contribution c = w.counts c + (w.sdata i).pending c := by
  unfold stopFirst Sdata.contribution Sdata.pending Sdata.counted
  dsimp only
  rw [setSdata_self]
  cases type : (w.sdata i).type with
  | ap =>
    unfold World.adjust World.setSdata
    dsimp only
    rw [if_neg (show ¬IfType.ap = IfType.monitor from IfType.noConfusion)]
    split <;> split <;> split <;> omega
  | adhoc =>
    unfold World.adjust World.setSdata
    dsimp only
    rw [if_neg (show ¬IfType.adhoc = IfType.monitor from IfType.noConfusion)]
    split <;> split <;> omega
  | monitor => rfl
  | _ => rfl

theorem stopFirst_total (running : (w.sdata i).running = true) (inside : i < n) (c : Counter) :
    (stopFirst w i).total n c = w.total n c - (w.sdata i).contribution c := by
  have total := total_setSdata w (fun sdata => {sdata with running := false}) inside c
  unfold World.total at total ⊢
  rw [stopFirst_sdata]
  rw [total]
  unfold Sdata.share
  rw [running,if_pos rfl,if_neg Bool.false_ne_true]
  omega

theorem uncount_spec (w : World) (i : Nat) :
    (∀ j, ((uncount w i).sdata j).type = (w.sdata j).type ∧ ((uncount w i).sdata j).mntrFlags = (w.sdata j).mntrFlags ∧
      ((uncount w i).sdata j).running = (w.sdata j).running ∧ ((uncount w i).sdata j).bss = (w.sdata j).bss) ∧
    ∀ c, (uncount w i).counts c + (w.sdata i).pending c = w.counts c := by
  -- open_count is taken back for every interface.
  have opened : ∀ c, (w.adjust .openCount (-1)).counts c + (if c = .openCount then 1 else 0) = w.counts c := by
    intro c
    unfold World.adjust
    dsimp only
    split <;> omega
  have split : uncount w i = if (w.sdata i).type ≠ .monitor then unlinkVlan (w.adjust .openCount (-1)) i
      else if (w.sdata i).mntrFlags.cookFrames then (w.adjust .openCount (-1)).adjust .cookedMntrs (-1)
      else adjustMonitorFlags ((w.adjust .openCount (-1)).adjust .monitors (-1)) (w.sdata i).mntrFlags (-1) := rfl
  rw [split]
  unfold Sdata.pending
  by_cases monitor : (w.sdata i).type = .monitor
  · rw [if_neg (not_not.mpr monitor)]
    unfold Sdata.counted
    simp only [monitor,if_true]
    by_cases cooked : (w.sdata i).mntrFlags.cookFrames = true
    · rw [if_pos cooked]
      refine ⟨fun j => ⟨rfl,rfl,rfl,rfl⟩,fun c => ?_⟩
      have opened := opened c
      generalize w.adjust .openCount (-1) = v at opened ⊢
      unfold World.adjust
      dsimp only
      split <;> omega
    · rw [if_neg cooked]
      obtain ⟨sdata,counts⟩ := monitor_counts (w.adjust .openCount (-1)) (w.sdata i).mntrFlags (-1)
      refine ⟨fun j => ?_,fun c => ?_⟩
      · rw [sdata]
        exact ⟨rfl,rfl,rfl,rfl⟩
      · have opened := opened c
        rw [if_neg cooked,counts c]
        omega
  · rw [if_pos monitor]
    refine ⟨fun j => unlinkVlan_sdata _ i j,fun c => ?_⟩
    rw [(unlinkVlan_counts _ i).1,if_neg monitor,zero_add]
    exact opened c

theorem stopLast_spec (want : Bool) (w : World) (i : Nat) (answer : Option Errno) :
    (stopLast want w i answer).sdata = ((uncount w i).setSdata i fun sdata => {sdata with bss := none}).sdata ∧
      (stopLast want w i answer).counts = (uncount w i).counts := by
  unfold stopLast
  generalize before : (uncount w i).setSdata i (fun sdata => {sdata with bss := none}) = v
  have counts : v.counts = (uncount w i).counts := by
    rw [← before]
    rfl
  rw [← counts]
  have deleted : ∀ u, u = (if (v.sdata i).type = .monitor ∧ v.counts .monitors = 0 then delVirtualMonitor want v else v) →
      u.sdata = v.sdata ∧ u.counts = v.counts := by
    intro u same
    rw [same]
    split
    · exact delVirtualMonitor_keeps want v
    · exact ⟨rfl,rfl⟩
  dsimp only
  generalize out : (if (v.sdata i).type = .monitor ∧ v.counts .monitors = 0 then delVirtualMonitor want v else v) = u
  obtain ⟨sdata,same⟩ := deleted u out.symm
  split
  · exact ⟨sdata,same⟩
  · split
    · obtain ⟨sdata',same'⟩ := addVirtualMonitor_keeps want u answer
      exact ⟨sdata'.trans sdata,same'.trans same⟩
    · exact ⟨sdata,same⟩

structure Closed (n : Nat) (w after : World) : Prop where
  type : ∀ j, (after.sdata j).type = (w.sdata j).type
  mntrFlags : ∀ j, (after.sdata j).mntrFlags = (w.sdata j).mntrFlags
  running : ∀ j, (after.sdata j).running = true → (w.sdata j).running = true
  bss : ∀ j, (after.sdata j).bss = (w.sdata j).bss ∨ (after.sdata j).bss = none
  down : ∀ j, (after.sdata j).running = false → (w.sdata j).running = true → (after.sdata j).bss = none
  even : ∀ c, after.counts c - after.total n c = w.counts c - w.total n c

theorem Closed.refl (n : Nat) (w : World) : Closed n w w :=
  ⟨fun _ => rfl,fun _ => rfl,fun _ => id,fun _ => .inl rfl,fun j down running => (by cases down.symm.trans running),fun _ => rfl⟩

theorem Closed.trans (first : Closed n w v) (second : Closed n v u) : Closed n w u := by
  refine ⟨fun j => (second.type j).trans (first.type j),fun j => (second.mntrFlags j).trans (first.mntrFlags j),
    fun j running => first.running j (second.running j running),fun j => ?_,fun j down running => ?_,fun c => (second.even c).trans (first.even c)⟩
  · rcases second.bss j with same | gone
    · rw [same]
      exact first.bss j
    · exact .inr gone
  · cases between : (v.sdata j).running with
    | true => exact second.down j down between
    | false =>
      rcases second.bss j with same | gone
      · rw [same]
        exact first.down j between running
      · exact gone

theorem stopFirst_each (w : World) (i j : Nat) : ((stopFirst w i).sdata j).type = (w.sdata j).type ∧
    ((stopFirst w i).sdata j).mntrFlags = (w.sdata j).mntrFlags ∧
    ((stopFirst w i).sdata j).running = (if j = i then false else (w.sdata j).running) ∧ ((stopFirst w i).sdata j).bss = (w.sdata j).bss := by
  rw [stopFirst_sdata]
  by_cases same : j = i
  · rw [same,setSdata_self,if_pos rfl]
    exact ⟨rfl,rfl,rfl,rfl⟩
  · rw [setSdata_other w _ same,if_neg same]
    exact ⟨rfl,rfl,rfl,rfl⟩

theorem stop_closed (want : Bool) (inside : i < n) (running : (w.sdata i).running = true) (between : Closed n (stopFirst w i) v)
    (answer : Option Errno) : Closed n w (stopLast want v i answer) := by
  obtain ⟨each,counts⟩ := uncount_spec v i
  obtain ⟨sdata,same⟩ := stopLast_spec want v i answer
  generalize uncount v i = u at each counts sdata same
  have final : ∀ j, (stopLast want v i answer).sdata j = if j = i then {u.sdata i with bss := none} else u.sdata j := by
    intro j
    rw [sdata]
    by_cases here : j = i
    · rw [here,setSdata_self,if_pos rfl]
    · rw [setSdata_other u _ here,if_neg here]
  have like : ∀ j, ((stopLast want v i answer).sdata j).type = (v.sdata j).type ∧ ((stopLast want v i answer).sdata j).mntrFlags = (v.sdata j).mntrFlags ∧
      ((stopLast want v i answer).sdata j).running = (v.sdata j).running := by
    intro j
    rw [final j]
    split
    · rename_i here
      rw [here]
      exact ⟨(each i).1,(each i).2.1,(each i).2.2.1⟩
    · exact ⟨(each j).1,(each j).2.1,(each j).2.2.1⟩
  refine ⟨fun j => ?_,fun j => ?_,fun j up => ?_,fun j => ?_,fun j down up => ?_,fun c => ?_⟩
  · exact (like j).1.trans ((between.type j).trans (stopFirst_each w i j).1)
  · exact (like j).2.1.trans ((between.mntrFlags j).trans (stopFirst_each w i j).2.1)
  · have before := between.running j ((like j).2.2 ▸ up)
    rw [(stopFirst_each w i j).2.2.1] at before
    split at before
    · cases before
    · exact before
  · rw [final j]
    split
    · exact .inr rfl
    · rw [(each j).2.2.2]
      have bss := between.bss j
      rwa [(stopFirst_each w i j).2.2.2] at bss
  · rw [final j]
    split
    · rfl
    · rename_i other
      rw [(each j).2.2.2]
      refine between.down j ?_ ?_
      · rw [← (like j).2.2]
        exact down
      · rw [(stopFirst_each w i j).2.2.1,if_neg other]
        exact up
  have total : (stopLast want v i answer).total n c = v.total n c := by
    refine Finset.sum_congr rfl fun j _ => ?_
    unfold Sdata.share Sdata.contribution
    rw [(like j).2.2,counted_alike (like j).1 (like j).2.1]
  have kind : (v.sdata i).pending c = (w.sdata i).pending c := by
    unfold Sdata.pending
    rw [(between.type i).trans (stopFirst_each w i i).1,
      counted_alike ((between.type i).trans (stopFirst_each w i i).1) ((between.mntrFlags i).trans (stopFirst_each w i i).2.1)]
  have after := counts c
  have early := stopFirst_counts w i c
  have sum := stopFirst_total running inside c
  have mid := between.even c
  rw [total,same]
  omega

section
variable (want : Bool) (answer : Option Errno)

theorem closeVlan_closed (inside : ∀ j, (w.sdata j).running = true → j < n) (i : Nat) :
    Closed n w (closeVlan want answer w i) := by
  unfold closeVlan
  split
  · rename_i running
    exact stop_closed want (inside i running) running (.refl n _) answer
  · exact .refl n w

theorem closeVlans_closed (vlans : List Nat) (inside : ∀ j, (w.sdata j).running = true → j < n) :
    Closed n w (vlans.foldl (closeVlan want answer) w) := by
  induction vlans generalizing w with
  | nil => exact .refl n w
  | cons vlan rest ih =>
    have first := closeVlan_closed want answer inside vlan
    exact first.trans (ih fun j running => inside j (first.running j running))

theorem doStop_closed (inside : ∀ j, (w.sdata j).running = true → j < n)
    (running : (w.sdata i).running = true) : Closed n w (doStop want w i answer) := by
  refine stop_closed want (inside i running) running ?_ answer
  split
  · refine closeVlans_closed want answer _ fun j up => inside j ?_
    rw [(stopFirst_each w i j).2.2.1] at up
    split at up
    · cases up
    · exact up
  · exact .refl n _

end

end steps

end Mac80211.Iface

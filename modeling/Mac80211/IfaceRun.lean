import Mac80211.IfaceSteps

namespace Mac80211.Iface

def checked (n : Nat) (w : World) (i : Nat) (answers : Answers) : Option Nat × Option Errno :=
  if (w.sdata i).type = .p2pDevice then ((w.sdata i).bss,answers.combinations)
  else if !answers.validAddr then ((w.sdata i).bss,some .addrNotAvail)
  else
    let found := checkConcurrentIface w i answers.csaActive (List.range n) (w.sdata i).bss
    (found.1,found.2.or answers.combinations)

-- A refused VLAN was not linked before, and other opens do not fail past the virtual monitor.
def openFair (want : Bool) (n : Nat) (w : World) (i : Nat) (answers : Answers) : Prop :=
  ((checked n w i answers).2 ≠ none → (checked n w i answers).1 = (w.sdata i).bss) ∧
    ((checked n w i answers).2 = none → ¬losesMonitor want w i answers)

def flagsFair (w : World) (i : Nat) (flags : MonitorFlags) : Prop :=
  (w.sdata i).type = .monitor → (w.sdata i).running = true → (w.sdata i).mntrFlags.cookFrames = true →
    flags.cookFrames = true → flags.active = (w.sdata i).mntrFlags.active →
    flags.fcsFail = (w.sdata i).mntrFlags.fcsFail ∧ flags.plcpFail = (w.sdata i).mntrFlags.plcpFail ∧
      flags.control = (w.sdata i).mntrFlags.control ∧ flags.otherBss = (w.sdata i).mntrFlags.otherBss

def fair (want : Bool) (n : Nat) (w : World) : Event → Prop
  | .open i answers => i < n → (w.sdata i).running = false → openFair want n w i answers
  | .stop _ _ => True
  | .flags i flags => i < n → flagsFair w i flags

def fairRun (want : Bool) (n : Nat) (w : World) : List Event → Prop
  | [] => True
  | e :: rest => fair want n w e ∧ fairRun want n (step want n w e) rest

structure Sound (n : Nat) (w : World) : Prop where
  even : w.even n
  inside : ∀ j, (w.sdata j).running = true → j < n
  unlinked : ∀ j, (w.sdata j).running = false → (w.sdata j).bss = none

section run

theorem setSdata_bss (w : World) (i : Nat) : (w.setSdata i fun sdata => {sdata with bss := (w.sdata i).bss}) = w := by
  unfold World.setSdata
  rw [Function.update_eq_self]

theorem ifaceOpen_eq (want : Bool) (n : Nat) (w : World) (i : Nat) (answers : Answers) : ifaceOpen want n w i answers =
      if (checked n w i answers).2 ≠ none then ((w.setSdata i fun sdata => {sdata with bss := (checked n w i answers).1}),(checked n w i answers).2)
      else doOpen want (w.setSdata i fun sdata => {sdata with bss := (checked n w i answers).1}) i answers := by
  unfold ifaceOpen checked
  split
  · rw [setSdata_bss]
    cases answers.combinations with
    | none => rfl
    | some => rfl
  split
  · rw [setSdata_bss]
    rfl
  · generalize checkConcurrentIface w i answers.csaActive (List.range n) (w.sdata i).bss = found
    obtain ⟨_,err⟩ := found
    cases err with
    | some => rfl
    | none =>
      cases answers.combinations with
      | none => rfl
      | some => rfl

theorem checkConcurrentIface_bss (csaActive : Nat → Bool) (other : (w.sdata i).type ≠ .apVlan) (others : List Nat) (bss : Option Nat) :
    (checkConcurrentIface w i csaActive others bss).1 = bss := by
  induction others generalizing bss with
  | nil => rfl
  | cons n rest ih =>
    unfold checkConcurrentIface
    dsimp only
    split
    · exact ih bss
    split
    · rfl
    split
    · rfl
    · split
      · rfl
      · split
        · exact ih bss
        · split
          · rfl
          · rw [if_neg fun vlan => other vlan.1]
            exact ih bss

theorem checked_bss (other : (w.sdata i).type ≠ .apVlan) (answers : Answers) : (checked n w i answers).1 = (w.sdata i).bss := by
  unfold checked
  split
  · rfl
  · split
    · rfl
    · exact checkConcurrentIface_bss answers.csaActive other _ _

theorem losesMonitor_linked (bss : Option Nat) (answers : Answers) :
    losesMonitor want (w.setSdata i fun sdata => {sdata with bss := bss}) i answers ↔ losesMonitor want w i answers := by
  unfold losesMonitor
  rw [setSdata_self]
  exact Iff.rfl

theorem open_sound (sound : Sound n w) (inside : i < n) (down : (w.sdata i).running = false) (answers : Answers)
    (fair : openFair want n w i answers) :
    Sound n (ifaceOpen want n w i answers).1 ∧
      ((ifaceOpen want n w i answers).2 ≠ none → (ifaceOpen want n w i answers).1.counts = w.counts ∧
        (ifaceOpen want n w i answers).1.monitorSdata = w.monitorSdata ∧
        ∀ j, ((ifaceOpen want n w i answers).1.sdata j).bss = (w.sdata j).bss) := by
  obtain ⟨refusal,loses⟩ := fair
  rw [ifaceOpen_eq]
  have elsewhere := fun (answers : Answers) (other : (w.sdata i).type ≠ .apVlan) => checked_bss (n := n) other answers
  have elsewhere := elsewhere answers
  generalize checked n w i answers = found at refusal loses elsewhere
  by_cases refused : found.2 ≠ none
  · rw [if_pos refused,refusal refused,setSdata_bss]
    exact ⟨sound,fun _ => ⟨rfl,rfl,fun _ => rfl⟩⟩
  rw [if_neg refused]
  have linked := setSdata_alike w i (fun sdata => {sdata with bss := found.1}) ⟨rfl,rfl,rfl⟩
  have beside : ∀ j, j ≠ i → ((w.setSdata i fun sdata => {sdata with bss := found.1}).sdata j).bss = (w.sdata j).bss :=
    fun j other => congrArg Sdata.bss (setSdata_other w _ other)
  have here : ((w.setSdata i fun sdata => {sdata with bss := found.1}).sdata i).bss = found.1 := congrArg Sdata.bss (setSdata_self ..)
  have loses := (losesMonitor_linked found.1 answers).not.mpr (loses (not_not.mp refused))
  have kept : (w.setSdata i fun sdata => {sdata with bss := found.1}).monitorSdata = w.monitorSdata := rfl
  generalize w.setSdata i (fun sdata => {sdata with bss := found.1}) = v at linked beside here loses kept
  obtain ⟨failed,opened⟩ := doOpen_spec want v i answers ((linked.running i).trans down)
  by_cases result : (doOpen want v i answers).2 = none
  · have opened := opened result
    refine ⟨⟨fun c => ?_,fun j running => ?_,fun j stopped => ?_⟩,fun failed => absurd result failed⟩
    · -- The share of the interface is what has been added to the counters.
      have total : (doOpen want v i answers).1.total n c = (v.setSdata i fun sdata => {sdata with running := true}).total n c := by
        refine Finset.sum_congr rfl fun j _ => ?_
        unfold Sdata.share Sdata.contribution
        rw [opened.running j,counted_alike (opened.type j) (opened.mntrFlags j)]
        by_cases same : j = i
        · rw [same,setSdata_self,if_pos rfl]
          rfl
        · rw [setSdata_other v _ same,if_neg same]
      have before := linked.even sound.even c
      rw [opened.counts c,total,total_setSdata v _ inside c,before]
      unfold Sdata.share
      rw [(linked.running i).trans down,if_pos rfl,if_neg Bool.false_ne_true,sub_zero]
      rfl
    · rw [opened.running j] at running
      split at running
      · rename_i same
        exact same ▸ inside
      · exact sound.inside j ((linked.running j) ▸ running)
    · rw [opened.running j] at stopped
      split at stopped
      · cases stopped
      · rename_i other
        rw [opened.bss j other,beside j other]
        exact sound.unlinked j ((linked.running j) ▸ stopped)
  have failed := failed result
  have alike := linked.trans failed.alike
  have bss : ∀ j, ((doOpen want v i answers).1.sdata j).bss = (w.sdata j).bss := by
    intro j
    by_cases same : j = i
    · rw [same,sound.unlinked i down]
      rcases failed.link with gone | ⟨other,same⟩
      · exact gone
      · rw [linked.type i] at other
        rw [same,here,elsewhere other]
        exact sound.unlinked i down
    · rw [failed.bss j same,beside j same]
  refine ⟨⟨alike.even sound.even,fun j running => sound.inside j ((alike.running j) ▸ running),fun j stopped => ?_⟩,
    fun _ => ⟨alike.counts,?_,bss⟩⟩
  · rw [bss j]
    exact sound.unlinked j ((alike.running j) ▸ stopped)
  · exact (failed.monitor.resolve_right loses).trans kept

theorem stop_sound (sound : Sound n w) (running : (w.sdata i).running = true) (virtualMonitor : Option Errno) :
    Sound n (doStop want w i virtualMonitor) := by
  have closed := doStop_closed want virtualMonitor sound.inside running
  refine ⟨fun c => ?_,fun j running => sound.inside j (closed.running j running),fun j stopped => ?_⟩
  · have even := closed.even c
    rw [sound.even c,sub_self] at even
    exact sub_eq_zero.mp even
  · cases before : (w.sdata j).running with
    | true => exact closed.down j stopped before
    | false =>
      rcases closed.bss j with same | gone
      · rw [same]
        exact sound.unlinked j before
      · exact gone

theorem setFlags_contribution (s : Sdata) (flags : MonitorFlags) (monitor : s.type = .monitor) (cook : flags.cookFrames = s.mntrFlags.cookFrames)
    (fair : s.mntrFlags.cookFrames = true → flags.filters = s.mntrFlags.filters) (c : Counter) :
    ({s with mntrFlags := flags} : Sdata).contribution c = s.contribution c + (flags.filters c - s.mntrFlags.filters c) := by
  unfold Sdata.contribution Sdata.counted
  rw [monitor]
  dsimp only
  rw [cook]
  by_cases cooked : s.mntrFlags.cookFrames = true
  · rw [if_pos cooked,if_pos cooked,fair cooked,sub_self,add_zero]
  · rw [if_neg cooked,if_neg cooked]
    omega

theorem flags_sound (sound : Sound n w) (inside : i < n) (flags : MonitorFlags) (fair : flagsFair w i flags) :
    Sound n (changeFlags w i flags).1 := by
  -- The flags are all that changes in the interface.
  have each : ∀ j, ((w.setSdata i fun sdata => {sdata with mntrFlags := flags}).sdata j).running = (w.sdata j).running ∧
      ((w.setSdata i fun sdata => {sdata with mntrFlags := flags}).sdata j).bss = (w.sdata j).bss := by
    intro j
    by_cases same : j = i
    · rw [same,setSdata_self]
      exact ⟨rfl,rfl⟩
    · rw [setSdata_other w _ same]
      exact ⟨rfl,rfl⟩
  have sounds : ∀ v : World, v.sdata = (w.setSdata i fun sdata => {sdata with mntrFlags := flags}).sdata →
      (∀ c, v.counts c = w.counts c + (({w.sdata i with mntrFlags := flags} : Sdata).share c - (w.sdata i).share c)) → Sound n v := by
    intro v sdata counts
    refine ⟨fun c => ?_,fun j running => ?_,fun j stopped => ?_⟩
    · have total := total_setSdata w (fun sdata => {sdata with mntrFlags := flags}) inside c
      unfold World.total at total ⊢
      rw [counts c,sdata,total,sound.even c]
      rfl
    · rw [sdata,(each j).1] at running
      exact sound.inside j running
    · rw [sdata,(each j).1] at stopped
      rw [sdata,(each j).2]
      exact sound.unlinked j stopped
  unfold changeFlags
  by_cases monitor : (w.sdata i).type = .monitor
  · rw [if_neg (not_not.mpr monitor)]
    cases running : (w.sdata i).running with
    | true =>
      rw [if_pos rfl]
      split
      · exact sound
      rename_i allowed
      obtain ⟨cook,active⟩ := not_or.mp allowed
      have cook := not_not.mp cook
      refine sounds _ ?_ fun c => ?_
      · rw [adjustMonitorFlags_sdata]
        unfold World.setSdata
        rw [adjustMonitorFlags_sdata]
      have same : (w.sdata i).mntrFlags.cookFrames = true → flags.filters = (w.sdata i).mntrFlags.filters := by
        intro cooked
        obtain ⟨fcs,plcp,control,other⟩ := fair monitor running cooked (cook.trans cooked) (not_not.mp active)
        unfold MonitorFlags.filters
        rw [fcs,plcp,control,other]
      have counts : ((adjustMonitorFlags w (w.sdata i).mntrFlags (-1)).setSdata i fun sdata => {sdata with mntrFlags := flags}).counts c =
          w.counts c + -1 * (w.sdata i).mntrFlags.filters c := adjustMonitorFlags_counts ..
      have share : ({w.sdata i with mntrFlags := flags} : Sdata).share c = ({w.sdata i with mntrFlags := flags} : Sdata).contribution c :=
        if_pos running
      have before : (w.sdata i).share c = (w.sdata i).contribution c := if_pos running
      rw [adjustMonitorFlags_counts,counts,share,before,setFlags_contribution (w.sdata i) flags monitor cook same c]
      omega
    | false =>
      rw [if_neg Bool.false_ne_true]
      refine sounds _ rfl fun c => ?_
      unfold Sdata.share
      rw [running,if_neg Bool.false_ne_true,if_neg Bool.false_ne_true,sub_self,add_zero]
      rfl
  · rw [if_pos monitor]
    exact sound

theorem step_sound (sound : Sound n w) (e : Event) (fair : fair want n w e) : Sound n (step want n w e) := by
  unfold step
  cases e with
  | «open» i answers =>
    dsimp only
    split
    · rename_i down
      exact (open_sound sound down.1 down.2 answers (fair down.1 down.2)).1
    · exact sound
  | stop i virtualMonitor =>
    dsimp only
    split
    · rename_i running
      exact stop_sound sound running.2 virtualMonitor
    · exact sound
  | flags i flags =>
    dsimp only
    split
    · rename_i inside
      exact flags_sound sound inside flags (fair inside)
    · exact sound

theorem start_sound (n : Nat) (sdata : Nat → Sdata) : Sound n (start sdata) := by
  refine ⟨fun c => ?_,fun j running => (by cases running),fun j _ => rfl⟩
  exact (Finset.sum_eq_zero fun j _ => rfl).symm

theorem events_sound (sound : Sound n w) (events : List Event) (fair : fairRun want n w events) : Sound n (run want n w events) := by
  induction events generalizing w with
  | nil => exact sound
  | cons e rest ih => exact ih (step_sound sound e fair.1) fair.2

theorem open_accounted (want : Bool) (n : Nat) (sdata : Nat → Sdata) (events : List Event) (fair : fairRun want n (start sdata) events) :
    (∀ c, (run want n (start sdata) events).counts c = (run want n (start sdata) events).total n c ∧
        0 ≤ (run want n (start sdata) events).counts c) ∧
      ∀ i answers, i < n → ((run want n (start sdata) events).sdata i).running = false →
        openFair want n (run want n (start sdata) events) i answers →
        (ifaceOpen want n (run want n (start sdata) events) i answers).2 ≠ none →
          (ifaceOpen want n (run want n (start sdata) events) i answers).1.counts = (run want n (start sdata) events).counts ∧
          (ifaceOpen want n (run want n (start sdata) events) i answers).1.monitorSdata = (run want n (start sdata) events).monitorSdata ∧
          ∀ j, ((ifaceOpen want n (run want n (start sdata) events) i answers).1.sdata j).bss =
            ((run want n (start sdata) events).sdata j).bss := by
  have sound := events_sound (start_sound n sdata) events fair
  refine ⟨fun c => ⟨sound.even c,?_⟩,fun i answers inside down fair failed => (open_sound sound inside down answers fair).2 failed⟩
  rw [sound.even c]
  exact total_nonneg n _ c

end run

section examples

def noFlags : MonitorFlags := ⟨false,false,false,false,false,false⟩

def fine : Answers := ⟨true,fun _ => false,none,true,none,true,none,none,none,none⟩

def monitorAndStation (flags : MonitorFlags) (i : Nat) : Sdata :=
  if i = 0 then ⟨.monitor,10,false,none,flags,[]⟩ else ⟨.station,11,false,none,noFlags,[]⟩

def vlanOf (i : Nat) : Sdata :=
  if i = 0 then ⟨.ap,10,false,none,noFlags,[]⟩
  else if i = 1 then ⟨.station,11,false,none,noFlags,[]⟩
  else ⟨.apVlan,10,false,none,noFlags,[]⟩

theorem open_accounted_done :
    (∀ c, (run true 2 (start (monitorAndStation {noFlags with fcsFail := true})) [.open 0 fine,.flags 0 noFlags]).counts c =
        (run true 2 (start (monitorAndStation {noFlags with fcsFail := true})) [.open 0 fine,.flags 0 noFlags]).total 2 c ∧
        0 ≤ (run true 2 (start (monitorAndStation {noFlags with fcsFail := true})) [.open 0 fine,.flags 0 noFlags]).counts c) ∧
      (ifaceOpen true 2 (run true 2 (start (monitorAndStation {noFlags with fcsFail := true})) [.open 0 fine,.flags 0 noFlags]) 1
        {fine with combinations := some .busy}).1.monitorSdata = true := by
  have fair : fairRun true 2 (start (monitorAndStation {noFlags with fcsFail := true})) [.open 0 fine,.flags 0 noFlags] := by
    refine ⟨fun _ _ => ⟨fun refused => absurd rfl refused,fun _ loses => absurd rfl loses.2.1.2⟩,fun _ _ _ cooked => ?_,trivial⟩
    cases cooked
  obtain ⟨even,failed⟩ := open_accounted true 2 (monitorAndStation {noFlags with fcsFail := true}) [.open 0 fine,.flags 0 noFlags] fair
  refine ⟨even,?_⟩
  have kept := failed 1 {fine with combinations := some .busy} (by decide) rfl
    ⟨fun _ => rfl,nofun⟩ (by decide)
  rw [kept.2.1]
  rfl

-- New flags of a running cooked monitor; an open refused once the virtual monitor is gone; a VLAN refused
-- once it has an access point.
theorem opens_not_accounted :
    (run false 1 (start (monitorAndStation {noFlags with cookFrames := true,fcsFail := true}))
      [.open 0 fine,.flags 0 {noFlags with cookFrames := true}]).counts .fifFcsfail = -1 ∧
    ((run true 2 (start (monitorAndStation noFlags)) [.open 0 fine]).monitorSdata = true ∧
      (ifaceOpen true 2 (run true 2 (start (monitorAndStation noFlags)) [.open 0 fine]) 1 {fine with addInterface := some (.driver 5)}).2 =
        some (.driver 5) ∧
      (ifaceOpen true 2 (run true 2 (start (monitorAndStation noFlags)) [.open 0 fine]) 1
        {fine with addInterface := some (.driver 5)}).1.monitorSdata = false) ∧
    ((run false 3 (start vlanOf) [.open 0 fine,.open 1 fine]).sdata 2).bss = none ∧
      (ifaceOpen false 3 (run false 3 (start vlanOf) [.open 0 fine,.open 1 fine]) 2 {fine with csaActive := fun i => i == 1}).2 = some .busy ∧
      ((ifaceOpen false 3 (run false 3 (start vlanOf) [.open 0 fine,.open 1 fine]) 2
        {fine with csaActive := fun i => i == 1}).1.sdata 2).bss = some 0 := by
  decide

end examples

end Mac80211.Iface

import Mac80211.OffChannel
import Mac80211.QueuesStopped
import Mac80211.ScanBalance
import Mac80211.Transitions

namespace Mac80211.OffChannel
open Queues (Reason)

section queues

theorem stopQueue_reason (below : queue < cfg.hwQueues) (q : Nat) :
    (Queues.stopQueue cfg w queue reason false).queueStopReasons q reason = (decide (q = queue) || w.queueStopReasons q reason) := by
  unfold Queues.stopQueue
  rw [if_neg (Nat.not_le.mpr below)]
  rw [Queues.setReason_at]
  by_cases same : q = queue
  · simp [same]
  · simp [same,Queues.World.setCount]

theorem wakeQueue_reason (below : queue < cfg.hwQueues) (q : Nat) :
    (Queues.wakeQueue cfg w queue reason false).queueStopReasons q reason = (w.queueStopReasons q reason && !decide (q = queue)) := by
  unfold Queues.wakeQueue
  rw [if_neg (Nat.not_le.mpr below)]
  cases bit : w.queueStopReasons queue reason with
  | false =>
    by_cases same : q = queue
    · subst same
      simp [bit]
    · simp [same]
  | true =>
    have woken : ((w.setCount queue reason 0).setReason queue reason false).queueStopReasons q reason =
        (w.queueStopReasons q reason && !decide (q = queue)) := by
      rw [Queues.setReason_at]
      by_cases same : q = queue
      · simp [same]
      · simp [same,Queues.World.setCount]
    simp only [Bool.not_true,Bool.false_eq_true,if_false,Bool.not_false,if_true]
    split_ifs <;> exact woken

theorem stopQueues_reason (reason : Reason) (n : Nat) (bound : n ≤ cfg.hwQueues) (q : Nat) :
    ((List.range n).foldl (fun w queue => Queues.stopQueue cfg w queue reason false) w).queueStopReasons q reason =
      (decide (q < n) || w.queueStopReasons q reason) := by
  induction n with
  | zero => simp
  | succ n ih =>
    rw [List.range_succ,List.foldl_append,List.foldl_cons,List.foldl_nil,stopQueue_reason bound,ih (Nat.le_of_succ_le bound),← Bool.or_assoc]
    congr 1
    rw [← Bool.decide_or]
    exact decide_eq_decide.mpr (by omega)

theorem wakeQueues_reason (reason : Reason) (n : Nat) (bound : n ≤ cfg.hwQueues) (q : Nat) :
    ((List.range n).foldl (fun w queue => Queues.wakeQueue cfg w queue reason false) w).queueStopReasons q reason =
      (w.queueStopReasons q reason && !decide (q < n)) := by
  induction n with
  | zero => simp
  | succ n ih =>
    rw [List.range_succ,List.foldl_append,List.foldl_cons,List.foldl_nil,wakeQueue_reason bound,ih (Nat.le_of_succ_le bound),Bool.and_assoc]
    congr 1
    rw [← decide_not,← decide_not,← decide_not,← Bool.decide_and]
    exact decide_eq_decide.mpr (by omega)

end queues

structure AtHome (base v : Vif) : Prop where
  same : v.type = base.type ∧ v.running = base.running
  beacon : v.enableBeacon = base.enableBeacon
  saved : v.beaconStopped = false

structure Gone (base v : Vif) : Prop where
  same : v.type = base.type ∧ v.running = base.running
  silent : base.running = true → base.type ≠ .p2pDevice → v.enableBeacon = false ∧ v.beaconStopped = base.enableBeacon
  other : base.running = false ∨ base.type = .p2pDevice → v.enableBeacon = base.enableBeacon ∧ v.beaconStopped = false

theorem stopVif_gone (home : AtHome base v) : Gone base (stopVif v) := by
  obtain ⟨⟨type,running⟩,beacon,saved⟩ := home
  unfold stopVif
  split_ifs with down device
  · refine ⟨⟨type,running⟩,?_,fun _ => ⟨beacon,saved⟩⟩
    intro up
    rw [running,up] at down
    cases down
  · exact ⟨⟨type,running⟩,fun _ other => absurd (type ▸ device) other,fun _ => ⟨beacon,saved⟩⟩
  · refine ⟨⟨type,running⟩,fun _ _ => ⟨rfl,by simp [saved,beacon]⟩,?_⟩
    rintro (off | p2p)
    · rw [running,off] at down
      exact absurd rfl down
    · exact absurd (type.trans p2p) device

theorem returnVif_home (gone : Gone base v) : AtHome base (returnVif v) := by
  obtain ⟨⟨type,running⟩,silent,other⟩ := gone
  unfold returnVif
  dsimp only
  split_ifs with device down stopped
  · obtain ⟨beacon,saved⟩ := other (.inr (type ▸ device))
    exact ⟨⟨type,running⟩,beacon,saved⟩
  · rw [running,Bool.not_eq_true'] at down
    obtain ⟨beacon,saved⟩ := other (.inl down)
    exact ⟨⟨type,running⟩,beacon,saved⟩
  · have up : base.running = true := by simpa [running] using down
    obtain ⟨off,saved⟩ := silent up (type ▸ device)
    exact ⟨⟨type,running⟩,stopped.symm.trans saved,rfl⟩
  · have up : base.running = true := by simpa [running] using down
    obtain ⟨off,saved⟩ := silent up (type ▸ device)
    have kept : v.beaconStopped = false := Bool.not_eq_true _ ▸ stopped
    exact ⟨⟨type,running⟩,off.trans (kept.symm.trans saved),kept⟩

theorem returnVif_stays (home : AtHome base v) : AtHome base (returnVif v) := by
  obtain ⟨⟨type,running⟩,beacon,saved⟩ := home
  unfold returnVif
  dsimp only
  split_ifs with device down
  · exact ⟨⟨type,running⟩,beacon,saved⟩
  · exact ⟨⟨type,running⟩,beacon,saved⟩
  · rename_i stopped
    exact absurd stopped (by simp [saved])
  · exact ⟨⟨type,running⟩,beacon,saved⟩

section device

structure Home (cfg : Queues.Config) (base : List Vif) (l : Local) : Prop where
  vifs : List.Forall₂ AtHome base l.vifs
  woken : ∀ q < cfg.hwQueues, l.queues.queueStopReasons q .offchannel = false

structure Away (cfg : Queues.Config) (base : List Vif) (l : Local) : Prop where
  vifs : List.Forall₂ Gone base l.vifs
  stopped : ∀ q < cfg.hwQueues, l.queues.queueStopReasons q .offchannel = true

theorem leave_away (home : Home cfg base l) : Away cfg base (offchannelStopVifs cfg l) := by
  refine ⟨?_,?_⟩
  · exact List.forall₂_map_right_iff.mpr (home.vifs.imp fun _ _ => stopVif_gone)
  · intro q below
    have all := stopQueues_reason (w := l.queues) .offchannel cfg.hwQueues (Nat.le_refl _) q
    exact all.trans (by simp [below])

theorem wakeQueues_woken (cfg : Queues.Config) (w : Queues.World) :
    ∀ q < cfg.hwQueues, (wakeQueues cfg w .offchannel).queueStopReasons q .offchannel = false := by
  intro q below
  have all := wakeQueues_reason (w := w) .offchannel cfg.hwQueues (Nat.le_refl _) q
  exact all.trans (by simp [below])

theorem return_home (away : Away cfg base l) : Home cfg base (offchannelReturn cfg l) :=
  ⟨List.forall₂_map_right_iff.mpr (away.vifs.imp fun _ _ => returnVif_home),wakeQueues_woken cfg l.queues⟩

theorem return_stays (home : Home cfg base l) : Home cfg base (offchannelReturn cfg l) :=
  ⟨List.forall₂_map_right_iff.mpr (home.vifs.imp fun _ _ => returnVif_stays),wakeQueues_woken cfg l.queues⟩

end device

open Scan (Channel Request Scanning ScanState notScanning)
open Transitions (Run)

def swScan : Scanning := {notScanning with swScanning := true}
def onchannelScan : Scanning := {notScanning with onchannelScanning := true}

-- Only the work of a period that was aborted may run.
def Waiting (list : List Roc) : Prop := ∀ roc ∈ list, roc.started = false ∧ (roc.pending = true → roc.abort = true)

def Off (roc : Roc) : Prop := roc.started = true ∧ roc.onChannel = false

inductive Mode (cfg : Queues.Config) (base : List Vif) (l : Local) : Prop where
  | resting (idle : l.scanning = notScanning) (off : l.tmpChannel = none) (scan : l.scanChan = none) (home : Home cfg base l)
      (near : ∀ roc ∈ l.rocList, ¬Off roc)
  | onchannel (idle : l.scanning = onchannelScan) (req : l.scanReq.isSome = true) (off : l.tmpChannel = none) (scan : l.scanChan = none)
      (home : Home cfg base l) (waiting : Waiting l.rocList)
  | scanning (busy : l.scanning = swScan) (req : l.scanReq.isSome = true) (off : l.tmpChannel = none)
      (state : l.nextScanState ≠ .resume) (away : Away cfg base l) (waiting : Waiting l.rocList)
  | suspended (busy : l.scanning = swScan) (req : l.scanReq.isSome = true) (off : l.tmpChannel = none) (scan : l.scanChan = none)
      (state : l.nextScanState = .resume) (home : Home cfg base l) (waiting : Waiting l.rocList)
  | period (idle : l.scanning = notScanning) (scan : l.scanChan = none) (tuned : l.tmpChannel.isSome = true)
      (away : Away cfg base l) (first : ∃ roc rest, l.rocList = roc :: rest ∧ Off roc)

structure Rocs (list : List Roc) : Prop where
  durations : ∀ roc ∈ list, roc.duration ≠ 0
  tail : ∀ roc ∈ list.tail, roc.started = false

structure Sound (cfg : Queues.Config) (base : List Vif) (l : Local) : Prop where
  mode : Mode cfg base l
  rocs : Rocs l.rocList

-- A scan put off is not cancelled while a period has the radio, and its work is not refused for a radar.
def neat (l : Local) : Event → Bool
  | .scanCancel => l.scanReq.isNone || l.scanning != notScanning || l.tmpChannel.isNone
  | .scanWork a => l.scanReq.isNone || l.scanning != notScanning || l.tmpChannel.isNone || a.canRun && !a.start.radarRequired
  | _ => true

section rocs

theorem rocs_nil : Rocs [] := ⟨nofun,nofun⟩

theorem Rocs.rest {rest : List Roc} (rocs : Rocs (roc :: rest)) : Rocs rest :=
  ⟨fun r member => rocs.durations r (List.mem_cons_of_mem roc member),fun r member => rocs.tail r (List.mem_of_mem_tail member)⟩

theorem startNext_resting (idle : l.scanning = notScanning) (off : l.tmpChannel = none) (scan : l.scanChan = none) (home : Home cfg base l)
    (near : ∀ roc ∈ l.rocList, ¬Off roc) (rocs : Rocs l.rocList) : Sound cfg base (startNextRoc l) := by
  unfold startNextRoc
  cases list : l.rocList with
  | nil => exact ⟨.resting idle off scan home near,rocs⟩
  | cons roc rest =>
    dsimp only
    split_ifs with started
    · exact ⟨.resting idle off scan home near,rocs⟩
    rw [list] at near rocs
    refine ⟨.resting idle off scan ⟨home.vifs,home.woken⟩ ?_,⟨?_,rocs.tail⟩⟩
    · intro r member
      obtain rfl | old := List.mem_cons.mp member
      · exact fun gone => started gone.1
      · exact near r (List.mem_cons_of_mem roc old)
    · intro r member
      obtain rfl | old := List.mem_cons.mp member
      · exact rocs.durations roc List.mem_cons_self
      · exact rocs.durations r (List.mem_cons_of_mem roc old)

theorem waiting_near (waiting : Waiting list) : ∀ roc ∈ list, ¬Off roc := fun roc member gone =>
  Bool.false_ne_true ((waiting roc member).1.symm.trans gone.1)

theorem scanCompleted_sound (sound : Sound cfg base l)
    (neat : l.scanReq.isNone = true ∨ l.scanning ≠ notScanning ∨ l.tmpChannel = none) : Sound cfg base (scanCompleted cfg l) := by
  unfold scanCompleted
  cases req : l.scanReq.isNone with
  | true => exact sound
  | false =>
    have gone (away : Away cfg base l) := return_home (l := {l with
      scanReq := none
      scanSdata := none
      scanning := notScanning
      scanChan := none}) ⟨away.vifs,away.stopped⟩
    have stays (home : Home cfg base l) := return_stays (l := {l with
      scanReq := none
      scanSdata := none
      scanning := notScanning
      scanChan := none}) ⟨home.vifs,home.woken⟩
    cases sound.mode with
    | resting idle off scan home near =>
      rw [idle]
      exact ⟨.resting rfl off rfl (stays home) near,sound.rocs⟩
    | onchannel busy req off scan home waiting | suspended busy req off scan state home waiting =>
      rw [busy]
      exact startNext_resting rfl off rfl (stays home) (waiting_near waiting) sound.rocs
    | scanning busy req off state away waiting =>
      rw [busy]
      exact startNext_resting rfl off rfl (gone away) (waiting_near waiting) sound.rocs
    | period idle scan tuned away first =>
      obtain none | busy | free := neat
      · rw [req] at none
        cases none
      · exact absurd idle busy
      · rw [free] at tuned
        cases tuned

end rocs

section scans

theorem requested_mode (mode : Mode cfg base l) (idle : l.scanning = notScanning) (scanReq : Option Request) (scanSdata : Option Nat) :
    Mode cfg base {l with scanReq := scanReq,scanSdata := scanSdata} := by
  cases mode with
  | resting _ off scan home near => exact .resting idle off scan ⟨home.vifs,home.woken⟩ near
  | onchannel busy | scanning busy | suspended busy => cases idle.symm.trans busy
  | period _ scan tuned away first => exact .period idle scan tuned ⟨away.vifs,away.stopped⟩ first

theorem mode_idle (mode : Mode cfg base l) (free : l.scanReq = none) : l.scanning = notScanning := by
  cases mode with
  | resting idle | period idle => exact idle
  | onchannel _ req | scanning _ req | suspended _ req =>
    rw [free] at req
    cases req

theorem startScan_sound (sdata : Nat) (req : Request) (a : StartAnswers) (sound : Sound cfg base l) :
    Sound cfg base (startScan cfg sdata req a l).1 := by
  unfold startScan
  cases refused : l.scanReq.isSome || a.radarRequired with
  | true => exact sound
  | false =>
    have free : l.scanReq = none := by
      cases req : l.scanReq with
      | none => rfl
      | some other =>
        rw [req] at refused
        cases refused
    have idle : l.scanning = notScanning := mode_idle sound.mode free
    have mode := requested_mode sound.mode idle (some req) (some sdata)
    rw [if_neg Bool.false_ne_true]
    dsimp only
    split_ifs with deferred operating
    · exact ⟨mode,sound.rocs⟩
    all_goals
      have empty : l.rocList = [] := by
        have free : canScan a {l with scanReq := some req,scanSdata := some sdata} = true := by simpa using deferred
        unfold canScan at free
        simp only [Bool.and_eq_true,List.isEmpty_iff] at free
        exact free.1.2
      have none (P : Roc → Prop) : ∀ roc ∈ l.rocList, P roc := by
        rw [empty]
        exact nofun
      cases mode with
      | onchannel busy | scanning busy | suspended busy => cases idle.symm.trans busy
      | period _ _ _ _ first =>
        obtain ⟨_,_,list,-⟩ := first
        rw [empty] at list
        cases list
      | resting _ off scan home near => ?_
    · exact ⟨.onchannel (by rw [idle]; rfl) rfl off scan ⟨home.vifs,home.woken⟩ (none _),sound.rocs⟩
    · have away := leave_away (l := {l with
        scanReq := some req
        scanSdata := some sdata
        scanning := {l.scanning with swScanning := true}
        nextScanState := .decision
        scanChannelIdx := 0}) ⟨home.vifs,home.woken⟩
      exact ⟨.scanning (by simp [startSwScan,offchannelStopVifs,idle,swScan]) rfl off nofun away (none _),sound.rocs⟩

inductive Software (cfg : Queues.Config) (base : List Vif) (l : Local) : Prop where
  | away (state : l.nextScanState ≠ .resume) (away : Away cfg base l)
  | suspended (scan : l.scanChan = none) (state : l.nextScanState = .resume) (home : Home cfg base l)

theorem decision_away (req : Request) (round : Round) : scanStateDecision req round ≠ .resume := by
  unfold scanStateDecision
  split_ifs <;> nofun

structure Apart (l l' : Local) : Prop where
  scanning : l'.scanning = l.scanning
  scanReq : l'.scanReq = l.scanReq
  tmpChannel : l'.tmpChannel = l.tmpChannel
  rocList : l'.rocList = l.rocList

theorem Apart.trans (first : Apart l m) (second : Apart m n) : Apart l n :=
  ⟨second.scanning.trans first.scanning,second.scanReq.trans first.scanReq,second.tmpChannel.trans first.tmpChannel,
    second.rocList.trans first.rocList⟩

theorem resume_software (home : Home cfg base l) : Software cfg base (scanStateResume cfg l) := by
  have away := leave_away home
  exact .away nofun ⟨away.vifs,away.stopped⟩

theorem suspend_software (away : Away cfg base l) : Software cfg base (scanStateSuspend cfg l) := by
  have home := return_home (l := {l with scanChan := none}) ⟨away.vifs,away.stopped⟩
  exact .suspended rfl rfl ⟨home.vifs,home.woken⟩

theorem machine_software (req : Request) (flush : Bool) (rounds : List Round) (soft : Software cfg base l) :
    Software cfg base (machine cfg req flush rounds l).1 ∧ Apart l (machine cfg req flush rounds l).1 := by
  have same (l : Local) : Apart l l := ⟨rfl,rfl,rfl,rfl⟩
  induction rounds generalizing l with
  | nil => exact ⟨soft,same l⟩
  | cons round rest ih =>
    unfold machine
    by_cases down : (!round.running) = true
    · rw [if_pos down]
      exact ⟨soft,same l⟩
    rw [if_neg down]
    cases state : l.nextScanState with
    | decision =>
      dsimp only
      split_ifs
      · exact ⟨soft,same l⟩
      · cases soft with
        | away _ away =>
          obtain ⟨later,apart⟩ := ih (l := {l with nextScanState := scanStateDecision req round})
            (.away (decision_away req round) ⟨away.vifs,away.stopped⟩)
          exact ⟨later,(⟨rfl,rfl,rfl,rfl⟩ : Apart l {l with nextScanState := scanStateDecision req round}).trans apart⟩
        | suspended _ resume => cases state.symm.trans resume
    | setChannel =>
      cases soft with
      | suspended _ resume => cases state.symm.trans resume
      | away _ away =>
        cases req.channels[l.scanChannelIdx]? with
        | none => exact ⟨.away (by simp [state]) away,same l⟩
        | some chan =>
          dsimp only
          split_ifs
          · obtain ⟨later,apart⟩ := ih (l := {l with
              scanChan := some chan
              scanChannelIdx := l.scanChannelIdx + 1
              nextScanState := .decision}) (.away nofun ⟨away.vifs,away.stopped⟩)
            exact ⟨later,(⟨rfl,rfl,rfl,rfl⟩ : Apart l {l with
              scanChan := some chan
              scanChannelIdx := l.scanChannelIdx + 1
              nextScanState := .decision}).trans apart⟩
          · exact ⟨.away nofun ⟨away.vifs,away.stopped⟩,rfl,rfl,rfl,rfl⟩
          · exact ⟨.away nofun ⟨away.vifs,away.stopped⟩,rfl,rfl,rfl,rfl⟩
    | sendProbe =>
      cases soft with
      | suspended _ resume => cases state.symm.trans resume
      | away _ away => exact ⟨.away nofun ⟨away.vifs,away.stopped⟩,rfl,rfl,rfl,rfl⟩
    | suspend =>
      cases soft with
      | suspended _ resume => cases state.symm.trans resume
      | away _ away => exact ⟨suspend_software away,rfl,rfl,rfl,rfl⟩
    | resume =>
      cases soft with
      | away other _ => exact absurd state other
      | suspended _ _ home =>
        dsimp only
        split_ifs
        · obtain ⟨later,apart⟩ := ih (resume_software home)
          exact ⟨later,(⟨rfl,rfl,rfl,rfl⟩ : Apart l (scanStateResume cfg l)).trans apart⟩
        · exact ⟨resume_software home,rfl,rfl,rfl,rfl⟩
    | abort => exact ⟨soft,same l⟩

theorem software_sound (sound : Sound cfg base l) (busy : l.scanning = swScan) (soft : Software cfg base l')
    (apart : Apart l l') : Sound cfg base l' := by
  have facts : l.scanReq.isSome = true ∧ l.tmpChannel = none ∧ Waiting l.rocList := by
    cases sound.mode with
    | resting idle | onchannel idle | period idle => cases busy.symm.trans idle
    | scanning _ req off _ _ waiting | suspended _ req off _ _ _ waiting => exact ⟨req,off,waiting⟩
  obtain ⟨req,off,waiting⟩ := facts
  rw [← apart.scanReq] at req
  rw [← apart.tmpChannel] at off
  rw [← apart.rocList] at waiting
  have busy' : l'.scanning = swScan := apart.scanning.trans busy
  have rocs : Rocs l'.rocList := by
    rw [apart.rocList]
    exact sound.rocs
  cases soft with
  | away state away => exact ⟨.scanning busy' req off state away waiting,rocs⟩
  | suspended scan state home => exact ⟨.suspended busy' req off scan state home waiting,rocs⟩

theorem mode_software (mode : Mode cfg base l) (busy : l.scanning = swScan) : Software cfg base l := by
  cases mode with
  | resting idle | onchannel idle | period idle => cases busy.symm.trans idle
  | scanning _ _ _ state away => exact .away state away
  | suspended _ _ _ scan state home => exact .suspended scan state home

theorem mode_scanning (mode : Mode cfg base l) : l.scanning = notScanning ∨ l.scanning = onchannelScan ∨ l.scanning = swScan := by
  cases mode with
  | resting idle | period idle => exact .inl idle
  | onchannel busy => exact .inr (.inl busy)
  | scanning busy | suspended busy => exact .inr (.inr busy)

theorem deferred_sound (sdata : Nat) (a : WorkAnswers) (sound : Sound cfg base l) (idle : l.scanning = notScanning)
    (allowed : l.tmpChannel = none ∨ a.start.radarRequired = false) :
    Sound cfg base (match startScan cfg sdata req a.start {l with scanReq := none,scanSdata := none} with
        | (l,none) => l
        | (l,some _) => scanCompleted cfg {l with scanReq := some req}) := by
  have taken : Sound cfg base {l with
      scanReq := none
      scanSdata := none} := ⟨requested_mode sound.mode idle none none,sound.rocs⟩
  cases radar : a.start.radarRequired with
  | false =>
    have begun := startScan_sound sdata req a.start taken
    have quiet : (startScan cfg sdata req a.start {l with scanReq := none,scanSdata := none}).2 = none := by
      unfold startScan
      rw [if_neg (by simp [radar])]
      dsimp only
      split_ifs <;> rfl
    split
    · rename_i out result
      rw [result] at begun
      exact begun
    · rename_i out error result
      rw [result] at quiet
      cases quiet
  | true =>
    have refused : startScan cfg sdata req a.start {l with
        scanReq := none
        scanSdata := none} = ({l with
        scanReq := none
        scanSdata := none},some .busy) := by
      unfold startScan
      rw [if_pos (by simp [radar])]
    have free : l.tmpChannel = none := allowed.resolve_right (by simp [radar])
    have put : Sound cfg base {l with
        scanReq := some req
        scanSdata := none} := ⟨requested_mode sound.mode idle (some req) none,sound.rocs⟩
    rw [refused]
    exact scanCompleted_sound put (.inr (.inr free))

theorem scanWork_sound (a : WorkAnswers) (sound : Sound cfg base l) (fine : neat l (.scanWork a) = true) :
    Sound cfg base (scanWork cfg a l) := by
  have allowed : l.scanReq.isNone = true ∨ l.scanning ≠ notScanning ∨ l.tmpChannel = none ∨
      (a.canRun = true ∧ a.start.radarRequired = false) := by
    simpa [neat,or_assoc] using fine
  unfold scanWork
  cases run : a.canRun with
  | false =>
    refine scanCompleted_sound sound ?_
    simpa [run] using allowed
  | true =>
    rw [Bool.not_true,if_neg Bool.false_ne_true]
    obtain idle | busy | busy := mode_scanning sound.mode
    · have plain : l.scanning.onchannelScanning = false ∧ l.scanning.completed = false := by
        rw [idle]
        exact ⟨rfl,rfl⟩
      rw [plain.1,plain.2,if_neg Bool.false_ne_true,if_neg Bool.false_ne_true]
      cases owner : l.scanSdata with
      | none => exact sound
      | some sdata =>
        cases wanted : l.scanReq with
        | none => exact sound
        | some req =>
          dsimp only
          rw [if_pos idle]
          refine deferred_sound sdata a sound idle ?_
          obtain none | busy | free | ⟨-,radar⟩ := allowed
          · rw [wanted] at none
            cases none
          · exact absurd idle busy
          · exact .inl free
          · exact .inr radar
    · have same : {l with scanning := {l.scanning with aborted := false}} = l := by
        cases l
        subst busy
        rfl
      rw [if_pos (by rw [busy]; rfl),same]
      refine scanCompleted_sound sound (.inr (.inl ?_))
      rw [busy]
      decide
    have plain : l.scanning.onchannelScanning = false ∧ l.scanning.completed = false := by
      rw [busy]
      exact ⟨rfl,rfl⟩
    rw [plain.1,plain.2,if_neg Bool.false_ne_true,if_neg Bool.false_ne_true]
    have running : l.scanning ≠ notScanning := by
      rw [busy]
      decide
    cases owner : l.scanSdata with
    | none => exact sound
    | some sdata =>
      cases wanted : l.scanReq with
      | none => exact sound
      | some req =>
        dsimp only
        rw [if_neg running]
        obtain ⟨soft,apart⟩ := machine_software req a.flush a.rounds (mode_software sound.mode busy)
        have after := software_sound sound busy soft apart
        have still := apart.scanning
        generalize machine cfg req a.flush a.rounds l = out at after still
        obtain ⟨_,complete⟩ := out
        cases complete with
        | false => exact after
        | true => exact scanCompleted_sound after (.inr (.inl (still.trans_ne running)))

end scans

section shown

-- A device that scans in software, as the model of scans sees it.
abbrev Local.world (l : Local) (w : Scan.World) : Scan.World := {w with
  scanReq := l.scanReq
  scanSdata := l.scanSdata
  scanning := l.scanning
  nextScanState := l.nextScanState
  scanChannelIdx := l.scanChannelIdx}

abbrev Shown (l : Local) (w : Scan.World) : Prop := l.world w = w

abbrev StartAnswers.shown (a : StartAnswers) (l : Local) : Scan.StartAnswers :=
  ⟨a.radarRequired,!l.rocList.isEmpty,a.connectionPoll,true,none,a.operChan,none⟩

def Round.shown (r : Round) : Scan.Round := ⟨r.running,r.associated,r.txEmpty,r.badLatency,if r.skip then some .noMem else none⟩

def shownRounds (rs : List Round) (k : Nat) : Scan.Round := (rs.getD k ⟨false,false,false,false,false⟩).shown

variable {cfg : Queues.Config} {hw : Scan.Hw} {l : Local} {w : Scan.World} {req : Scan.Request}
variable (software : hw.hwScan = false ∧ hw.useChanctx = false) (shown : Shown l w)
include shown

theorem startNextRoc_shown : Shown (startNextRoc l) w := by
  unfold startNextRoc
  split
  · exact shown
  · split_ifs <;> exact shown

theorem machine_shown (rs : List Round) :
    Shown (machine cfg req hw.flush rs l).1 (Scan.machine hw req (shownRounds rs) rs.length w).1 ∧
      (machine cfg req hw.flush rs l).2 = (Scan.machine hw req (shownRounds rs) rs.length w).2.isSome := by
  induction rs generalizing l w with
  | nil => exact ⟨shown,rfl⟩
  | cons r rs ih =>
    obtain ⟨_ | _,associated,txEmpty,badLatency,skip⟩ := r
    · exact ⟨shown,rfl⟩
    rw [← shown,machine,List.length_cons,Scan.machine]
    have later : (fun k => shownRounds (⟨true,associated,txEmpty,badLatency,skip⟩ :: rs) (k + 1)) = shownRounds rs := rfl
    have first : shownRounds (⟨true,associated,txEmpty,badLatency,skip⟩ :: rs) 0 =
        ⟨true,associated,txEmpty,badLatency,if skip then some .noMem else none⟩ := rfl
    rw [later,first]
    dsimp only
    have going : ¬(!true) = true := Bool.false_ne_true
    rw [if_neg going,if_neg going]
    cases l.nextScanState with
    | decision =>
      dsimp only
      by_cases past : req.channels.length ≤ l.scanChannelIdx
      · rw [if_pos past,if_pos past]
        exact ⟨rfl,rfl⟩
      · rw [if_neg past,if_neg past]
        exact ih rfl
    | setChannel =>
      dsimp only
      cases req.channels[l.scanChannelIdx]? with
      | none => exact ⟨rfl,rfl⟩
      | some chan =>
        cases skip with
        | true => exact ih rfl
        | false =>
          simp only [Bool.false_eq_true,if_false,Option.isSome_none]
          split_ifs <;> exact ⟨rfl,rfl⟩
    | sendProbe | suspend => exact ⟨rfl,rfl⟩
    | resume =>
      dsimp only
      split_ifs
      · exact ih rfl
      · exact ⟨rfl,rfl⟩
    | abort => exact ⟨rfl,rfl⟩

include software

theorem scanCompleted_shown (aborted : Bool) (answer : Option Scan.Errno) :
    Shown (scanCompleted cfg l) (Scan.scanCompleted hw w aborted answer) := by
  have same : w.scanReq = l.scanReq := (congrArg Scan.World.scanReq shown).symm
  unfold scanCompleted Scan.scanCompleted
  rw [same,software.1]
  cases wanted : l.scanReq with
  | none => exact shown
  | some req =>
    rw [← shown]
    simp only [Bool.false_and,Bool.false_eq_true,if_false,Option.isNone_some]
    split_ifs
    · exact startNextRoc_shown rfl
    · rfl

theorem startScan_shown (sdata : Nat) (a : StartAnswers) :
    Shown (startScan cfg sdata req a l).1 (Scan.startScan hw w sdata req (a.shown l)).1 ∧
      (startScan cfg sdata req a l).2 = (Scan.startScan hw w sdata req (a.shown l)).2 := by
  rw [← shown]
  unfold startScan Scan.startScan
  simp only [canScan,Scan.canScan,software,Bool.not_not,Bool.false_eq_true,if_false]
  split_ifs <;> exact ⟨rfl,rfl⟩

theorem scanWork_shown (flush : hw.flush = a.flush) (whole : ∀ req, l.scanReq = some req → Scan.enough req w ≤ a.rounds.length) :
    Shown (scanWork cfg a l) (Scan.scanWork hw w ⟨a.canRun,a.start.shown l,none,shownRounds a.rounds⟩) := by
  rw [← shown] at whole ⊢
  unfold scanWork Scan.scanWork
  dsimp only
  split_ifs
  · exact scanCompleted_shown (w := l.world w) software rfl ..
  · refine scanCompleted_shown software ?_ ..
    rfl
  · refine scanCompleted_shown software ?_ ..
    rfl
  all_goals
    rcases l.scanSdata with _ | sdata
    · rfl
    rcases wanted : l.scanReq with _ | req
    · rfl
  · have begun := @startScan_shown cfg hw {l with scanReq := none,scanSdata := none} {l.world w with scanReq := none,scanSdata := none}
      req software rfl sdata a.start
    dsimp only at begun ⊢
    generalize startScan cfg sdata req a.start _ = out at begun ⊢
    generalize Scan.startScan hw _ sdata req _ = out' at begun ⊢
    obtain ⟨begun,same⟩ := begun
    obtain ⟨l,_ | _⟩ := out <;> obtain ⟨v,_ | _⟩ := out' <;> cases same
    · exact begun
    · have put : Shown {l with scanReq := some req} {v with scanReq := some req} :=
        congrArg (fun v : Scan.World => {v with scanReq := some req}) begun
      exact scanCompleted_shown software put ..
  · obtain ⟨more,enough⟩ := Nat.exists_eq_add_of_le (whole req wanted)
    have ran := @machine_shown cfg hw l (l.world w) req rfl a.rounds
    rw [enough,Scan.machine_enough,flush] at ran
    dsimp only
    generalize machine cfg req a.flush a.rounds l = out at ran ⊢
    generalize Scan.machine hw req (shownRounds a.rounds) _ _ = out' at ran ⊢
    obtain ⟨_,_ | _⟩ := out <;> obtain ⟨_,_ | _⟩ := out' <;> cases ran.2
    · exact ran.1
    · exact scanCompleted_shown software ran.1 ..

end shown

end Mac80211.OffChannel

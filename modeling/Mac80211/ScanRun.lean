import Mac80211.ScanTruth

namespace Mac80211.Scan

open Bool (false_ne_true eq_false_iff)
open List (mem_append_left mem_append mem_singleton)

-- Completions come for a scan the driver may have and tell an abort, and it takes all the bands or none.
def fair (hw : Hw) (w : World) : Event → Prop
  | .completed _ => hw.hwScan = true ∧ w.scanReq.isSome = true
  | .work answers => w.scanning.hwScanning = true → answers.canRun = true →
    (w.scanning.hwCancelled = true → w.scanning.completed = true ∧ w.scanning.aborted = true) ∧
    (w.scanning.aborted = false → hw.singleHwScanOnAllBands = false → ∀ req, w.scanReq = some req →
      prepBands req.channels w.hwScanBand ≠ none → answers.drvHwScan = none)
  | _ => True

def fairRun (hw : Hw) (w : World) : List Event → Prop
  | [] => True
  | e :: rest => fair hw w e ∧ fairRun hw (step hw w e) rest

section run
variable {hw : Hw}

structure Started (hw : Hw) (w v : World) (req : Request) : Prop where
  grown : Grown w v
  hwReq : v.hwScanReq.isSome = v.scanning.hwScanning
  bits : Bits hw v.scanning
  current : Current hw v req

theorem bands_all (band : Band) : band ∈ bands := by
  cases band <;> decide

theorem prepareHwScan_more (idle : w.scanning = notScanning) (sdata : Nat) (req : Request) :
    (prepHwScan hw (allocated w sdata req) req).2 = true := by
  unfold prepHwScan allocated
  rw [idle]
  split
  · rename_i cancelled
    cases cancelled
  · split
    · rfl
    · cases left : prepBands req.channels bands with
      | none =>
        exact absurd (bands_all (req.channels.head req.nonempty).band)
          (prepBands_none req.channels bands left _ (List.head_mem req.nonempty))
      | some => rfl

theorem startScan_core (core : Core hw w) (gone : w.scanReq = none) (sdata : Nat) (req : Request) (answers : StartAnswers)
    (fresh : ∀ id, req.id = some id → .cancelled (some id) ∉ w.trace) :
    ((startScan hw w sdata req answers).2 = none → Started hw w (startScan hw w sdata req answers).1 req) ∧
      ((startScan hw w sdata req answers).2 ≠ none → Grown w (startScan hw w sdata req answers).1 ∧
        (startScan hw w sdata req answers).1.hwScanReq = none ∧ (startScan hw w sdata req answers).1.scanning = notScanning) := by
  have idle := core.idle gone
  have noReq : w.hwScanReq = none := by
    have hwReq := core.hwReq
    rw [idle] at hwReq
    exact Option.not_isSome_iff_eq_none.mp (by rw [hwReq]; exact false_ne_true)
  have clean : ∀ v, Grown w v → ∀ id, req.id = some id → .cancelled (some id) ∈ v.trace → v.scanning.hwCancelled = true :=
    fun v grown id own cancelled => absurd (grown.cancelled _ cancelled) (fresh id own)
  unfold startScan
  split
  · exact ⟨fun started => (by cases started),fun _ => ⟨.refl w,noReq,idle⟩⟩
  split
  · refine ⟨fun _ => ⟨.same rfl rfl,core.hwReq,core.bits,⟨clean _ (.same rfl rfl),fun on => ?_,fun on => ?_,fun on => ?_⟩⟩,fun failed => absurd rfl failed⟩
    all_goals
      rw [idle] at on
      cases on
  split
  · rename_i hwScan
    split
    · exact ⟨fun started => (by cases started),fun _ => ⟨.same rfl rfl,rfl,idle⟩⟩
    obtain ⟨_,trace,scanning,requests⟩ := @prepareHwScan_keeps hw w sdata req
    have more := @prepareHwScan_more hw w idle sdata req
    have grown : ∀ result, Grown w ((prepareHwScan hw w sdata req).log (.hwScan req.id ((prepareHwScan hw w sdata req).hwScanReq.getD []) result)) :=
      fun result => (Grown.same trace requests).trans (log_grown (fun _ => Call.noConfusion) fun _ _ => Call.noConfusion)
    cases answers.drvHwScan with
    | none =>
      refine ⟨fun _ => ⟨grown none,?_,?_,⟨clean _ (grown none),fun _ => ?_,fun on => ?_,fun on => ?_⟩⟩,fun failed => absurd rfl failed⟩
      · refine (prepHwScan_hwReq _ req).trans ?_
        exact (congrArg Scanning.hwScanning scanning).symm
      · refine (congrArg (Bits hw) scanning).mpr ?_
        rw [idle]
        exact ⟨fun on => (by cases on),fun on => (by cases on),fun _ => ⟨rfl,rfl⟩,fun off => (by rw [hwScan] at off; cases off)⟩
      · exact prepHwScan_handed rfl more fun c _ gone => absurd (bands_all c.band) gone
      · have on := (congrArg Scanning.swScanning scanning).symm.trans on
        rw [idle] at on
        cases on
      · have on := (congrArg Scanning.onchannelScanning scanning).symm.trans on
        rw [idle] at on
        cases on
    | some err => exact ⟨fun started => (by cases started),fun _ => ⟨(grown (some err)).trans (.same rfl rfl),rfl,rfl⟩⟩
  rename_i software
  have software := eq_false_iff.mpr software
  split
  · rename_i oper
    have grown : Grown w (w.log (.tune req.id (req.channels.head req.nonempty) answers.hwConfig)) :=
      log_grown (fun _ => Call.noConfusion) fun _ _ => Call.noConfusion
    refine ⟨fun _ => ⟨grown.trans (.same rfl rfl),?_,?_,⟨clean _ (grown.trans (.same rfl rfl)),fun on => ?_,fun on => ?_,fun _ c member => ?_⟩⟩,
      fun failed => absurd rfl failed⟩
    · exact core.hwReq
    · rw [idle]
      exact ⟨fun on => (by cases on),fun on => (by cases on),fun on => (by rw [software] at on; cases on),fun _ => ⟨rfl,rfl⟩⟩
    · rw [idle] at on
      cases on
    · rw [idle] at on
      cases on
    -- It is the only channel of the request.
    have one : req.channels.length = 1 := by
      have lengths := congrArg List.length oper
      rwa [List.length_map] at lengths
    obtain ⟨only,same⟩ := List.length_eq_one_iff.mp one
    have here : c = req.channels.head req.nonempty := by
      rw [same] at member
      rw [mem_singleton.mp member]
      simp only [same,List.head_cons]
    exact ⟨answers.hwConfig,List.mem_append_right _ (by rw [here]; exact List.mem_singleton_self _)⟩
  split
  · exact ⟨fun started => (by cases started),fun _ => ⟨.same rfl rfl,rfl,rfl⟩⟩
  refine ⟨fun _ => ⟨.same rfl rfl,core.hwReq,?_,⟨clean _ (.same rfl rfl),fun on => ?_,fun _ k c early => ?_,fun on => ?_⟩⟩,
    fun failed => absurd rfl failed⟩
  · rw [idle]
    exact ⟨fun on => (by cases on),fun on => (by cases on),fun on => (by rw [software] at on; cases on),fun _ => ⟨rfl,rfl⟩⟩
  · rw [idle] at on
    cases on
  · exact absurd early (Nat.not_lt_zero k)
  · rw [idle] at on
    cases on

theorem Started.core (started : Started hw w v req) (core : Core hw w) (there : v.scanReq = some req) : Core hw v := by
  refine ⟨fun gone => ?_,started.hwReq,started.bits,fun other same => ?_,started.grown.told core.told⟩
  · rw [there] at gone
    cases gone
  · rw [there] at same
    cases same
    exact started.current

theorem cleared_core (core : Core hw w) (completed : Bool) (less : completed = true → w.scanning.completed = true) :
    Core hw {w with scanning := {w.scanning with completed := completed,aborted := false}} := by
  refine ⟨fun gone => ?_,core.hwReq,⟨core.bits.cancelled,fun on => (by cases on),core.bits.hardware,fun off => ⟨(core.bits.software off).1,?_⟩⟩,
    fun req there => ?_,core.told⟩
  · have idle := core.idle gone
    cases completed with
    | true =>
      have on := less rfl
      rw [idle] at on
      cases on
    | false =>
      rw [idle]
      rfl
  · cases completed with
    | true => exact (less rfl).symm.trans (core.bits.software off).2
    | false => rfl
  · obtain ⟨cancelled,handed,tuned,onchannel⟩ := core.current req there
    exact ⟨cancelled,handed,tuned,onchannel⟩

theorem machine_core (core : Core hw w) (there : w.scanReq = some req) (rounds : Nat) (round : Nat → Round) :
    Core hw (machine hw req round rounds w).1 ∧ Grown w (machine hw req round rounds w).1 ∧
      (machine hw req round rounds w).1.scanReq = some req ∧ (machine hw req round rounds w).1.scanning = w.scanning ∧
      (machine hw req round rounds w).1.hwScanBand = w.hwScanBand := by
  refine machine_keeps (fun v => Core hw v ∧ Grown w v ∧ v.scanReq = some req ∧ v.scanning = w.scanning ∧ v.hwScanBand = w.hwScanBand)
    (fun v next kept => ?_) (fun v chan result kept here => ?_) rounds round w ⟨core,.refl w,there,rfl,rfl⟩
  · obtain ⟨core,grown,there,scanning,band⟩ := kept
    refine ⟨⟨core.idle,core.hwReq,core.bits,fun other same => ?_,core.told⟩,grown.trans (.same rfl rfl),there,scanning,band⟩
    obtain ⟨cancelled,handed,tuned,onchannel⟩ := core.current other same
    exact ⟨cancelled,handed,tuned,onchannel⟩
  obtain ⟨core,grown,there,scanning,band⟩ := kept
  have more : Grown v {v.log (.tune req.id chan result) with scanChannelIdx := v.scanChannelIdx + 1} :=
    (log_grown (fun _ => Call.noConfusion) fun _ _ => Call.noConfusion).trans (.same rfl rfl)
  refine ⟨⟨core.idle,core.hwReq,core.bits,fun other same => ?_,more.told core.told⟩,grown.trans more,there,scanning,band⟩
  obtain ⟨cancelled,handed,tuned,onchannel⟩ := core.current other same
  refine ⟨fun id own gone => cancelled id own (more.cancelled _ gone),fun on c member gone => more.handed (handed on c member gone),
    fun on k c early at' => ?_,fun on c member => more.tuned (onchannel on c member)⟩
  rw [show v.scanReq = some other from same] at there
  cases there
  -- The channel that has just been tuned to is the last of them.
  rcases Nat.lt_succ_iff_lt_or_eq.mp early with before | last
  · exact more.tuned (tuned on k c before at')
  · rw [last,here] at at'
    cases at'
    exact ⟨result,List.mem_append_right _ (List.mem_singleton_self _)⟩

theorem scanning_eq (hwScanning : s.hwScanning = false) (swScanning : s.swScanning = false)
    (onchannelScanning : s.onchannelScanning = false) (completed : s.completed = false) (aborted : s.aborted = false)
    (hwCancelled : s.hwCancelled = false) : s = notScanning := by
  obtain ⟨_,_,_,_,_,_⟩ := s
  cases hwScanning
  cases swScanning
  cases onchannelScanning
  cases completed
  cases aborted
  cases hwCancelled
  rfl

theorem cancelled_not (core : Core hw w) (off : w.scanning.hwScanning = false) : w.scanning.hwCancelled = false := by
  cases on : w.scanning.hwCancelled with
  | false => rfl
  | true => exact absurd (off.symm.trans (core.bits.cancelled on)) false_ne_true

theorem onchannel_completes (core : Core hw w) (onchannel : w.scanning.onchannelScanning = true) (answer : Option Errno) :
    Completes hw {w with scanning := {w.scanning with aborted := false}} w.scanning.aborted answer := by
  have soft : hw.hwScan = false := by
    cases hwScan : hw.hwScan with
    | false => rfl
    | true => exact absurd ((core.bits.hardware hwScan).2.symm.trans onchannel) false_ne_true
  have cancelled := cancelled_not core (core.bits.software soft).1
  exact fun _ _ req there => ⟨cancelled,fun on => absurd (soft.symm.trans on) false_ne_true,
    fun _ => (core.current req there).onchannel onchannel⟩

section work
variable {answer : Option Errno} (core : Core hw w)
  (fits : w.scanning.hwScanning = true → (w.scanning.hwCancelled = true → w.scanning.completed = true ∧ w.scanning.aborted = true) ∧
    (w.scanning.aborted = false → hw.singleHwScanOnAllBands = false → ∀ req, w.scanReq = some req →
      prepBands req.channels w.hwScanBand ≠ none → answer = none))
include core fits

theorem completed_completes (completed : w.scanning.completed = true) :
    Completes hw {w with scanning := {w.scanning with completed := false,aborted := false}} w.scanning.aborted answer := by
  have hard : hw.hwScan = true := by
    cases hwScan : hw.hwScan with
    | true => rfl
    | false => exact absurd ((core.bits.software hwScan).2.symm.trans completed) false_ne_true
  intro goes more req there
  -- Something else than the completion is left, and that is the scan of the hardware.
  have hwScanning : w.scanning.hwScanning = true := by
    cases off : w.scanning.hwScanning with
    | true => rfl
    | false =>
      obtain ⟨sw,onchannel⟩ := core.bits.hardware hard
      refine absurd ?_ more
      dsimp only
      rw [off,cancelled_not core off,sw,onchannel]
      rfl
  obtain ⟨cancels,next⟩ := fits hwScanning
  refine ⟨?_,fun _ => ⟨hwScanning,fun single left => next goes single req there left⟩,fun soft => ?_⟩
  · cases cancelled : w.scanning.hwCancelled with
    | false => rfl
    | true => exact absurd (goes.symm.trans (cancels cancelled).2) false_ne_true
  · rw [hard] at soft
    cases soft

theorem machine_completes (offchannel : w.scanning.onchannelScanning = false) (running : w.scanning.completed = false)
    (scanning : w.scanning ≠ notScanning) (there : w.scanReq = some req) (rounds : Nat) (round : Nat → Round) (aborted : Bool)
    (ends : (machine hw req round rounds w).2 = some aborted) : Completes hw (machine hw req round rounds w).1 aborted answer := by
  obtain ⟨ranCore,_,scanReq,same,band⟩ := machine_core core there rounds round
  have last := @machine_completed hw req rounds round w
  intro goes _ other this
  cases scanReq.symm.trans this
  rw [same,band]
  have aborted : w.scanning.aborted = false := by
    cases on : w.scanning.aborted with
    | false => rfl
    | true => exact absurd (running.symm.trans (core.bits.aborted on)) false_ne_true
  have cancelled : w.scanning.hwCancelled = false := by
    cases on : w.scanning.hwCancelled with
    | false => rfl
    | true => exact absurd (running.symm.trans ((fits (core.bits.cancelled on)).1 on).1) false_ne_true
  refine ⟨cancelled,fun hard => ?_,fun soft c member => ?_⟩
  · have hwScanning : w.scanning.hwScanning = true := by
      cases off : w.scanning.hwScanning with
      | true => rfl
      | false => exact absurd (scanning_eq off (core.bits.hardware hard).1 offchannel running aborted cancelled) scanning
    exact ⟨hwScanning,fun single left => (fits hwScanning).2 aborted single req there left⟩
  · have swScanning : w.scanning.swScanning = true := by
      cases off : w.scanning.swScanning with
      | true => rfl
      | false => exact absurd (scanning_eq (core.bits.software soft).1 off offchannel running aborted cancelled) scanning
    -- The loop has gone past the last channel.
    obtain ⟨k,inside,here⟩ := List.getElem_of_mem member
    have far := last (ends.trans (congrArg some goes))
    exact (ranCore.current req scanReq).tuned (by rw [same]; exact swScanning) k c (Nat.lt_of_lt_of_le inside far) (List.getElem?_eq_some_iff.mpr ⟨inside,here⟩)

end work

-- A scan that was put off begins, or is given up.
theorem deferred_core (core : Core hw w) (known : Known w) (idle : w.scanning = notScanning) (there : w.scanReq = some req)
    (sdata : Nat) (answers : StartAnswers) (answer : Option Errno) :
    let out := match startScan hw {w with scanReq := none,scanSdata := none} sdata req answers with
      | (w,none) => w
      | (w,some _) => scanCompleted hw {w with scanReq := some req} true answer
    Core hw out ∧ Known out := by
  have taken : Core hw {w with scanReq := none,scanSdata := none} :=
    ⟨fun _ => idle,core.hwReq,core.bits,fun _ gone => (by cases gone),core.told⟩
  have fresh : ∀ id, req.id = some id → .cancelled (some id) ∉ w.trace := by
    intro id own cancelled
    have marked := (core.current req there).cancelled id own cancelled
    rw [idle] at marked
    cases marked
  obtain ⟨started,failed⟩ := startScan_core taken rfl sdata req answers fresh
  obtain ⟨_,_,scanReq⟩ := @startScan_balance hw {w with scanReq := none,scanSdata := none} 0 rfl sdata req answers
  have own : Known {w with scanReq := none,scanSdata := none} := ⟨known.fresh,fun _ _ gone => (by cases gone)⟩
  have mine : ∀ other id, some req = some other → other.id = some id → w.requests[id]? = some (other,none) := by
    intro other id same own
    cases same
    exact known.own req id there own
  dsimp only
  split
  · rename_i v same
    rw [same] at started scanReq
    have started := started rfl
    exact ⟨started.core taken scanReq,own.takes started.grown fun other id same => mine other id (scanReq.symm.trans same)⟩
  rename_i v err same
  rw [same] at failed
  obtain ⟨grown,hwReq,scanning⟩ := failed (Option.some_ne_none err)
  refine scanCompleted_core (w := {v with scanReq := some req}) ?_ (known.takes ⟨grown.kept,grown.cancelled,grown.done,grown.requests⟩ mine)
    true _ fun goes => by cases goes
  refine ⟨fun gone => (by cases gone),?_,?_,fun other same => ?_,fun id done => ?_⟩
  · rw [hwReq,scanning]
    rfl
  · rw [scanning]
    exact notScanning_bits
  · cases same
    refine ⟨fun id own cancelled => absurd (grown.cancelled _ cancelled) (fresh id own),fun on => ?_,fun on => ?_,fun on => ?_⟩
    all_goals
      rw [scanning] at on
      cases on
  · exact grown.told core.told id done

theorem scanWork_core (core : Core hw w) (known : Known w) (answers : WorkAnswers) (fair : fair hw w (.work answers)) :
    Core hw (scanWork hw w answers) ∧ Known (scanWork hw w answers) := by
  unfold scanWork
  split
  · exact scanCompleted_core core known true _ fun goes => by cases goes
  rename_i canRun
  have fair := fun on => fair on (by simpa using canRun)
  split
  · rename_i onchannel
    exact scanCompleted_core (cleared_core core w.scanning.completed id) (known.grown (.same rfl rfl) rfl) _ _
      (onchannel_completes core onchannel _)
  rename_i offchannel
  split
  · rename_i completed
    exact scanCompleted_core (cleared_core core false fun on => (by cases on)) (known.grown (.same rfl rfl) rfl) _ _
      (completed_completes core fair completed)
  rename_i running
  split
  · rename_i sdata req _ there
    split
    · rename_i idle
      exact deferred_core core known idle there sdata answers.start _
    rename_i scanning
    obtain ⟨ranCore,grown,scanReq,_⟩ := machine_core core there (enough req w) answers.round
    have completes := machine_completes core fair (eq_false_iff.mpr offchannel) (eq_false_iff.mpr running) scanning there
      (enough req w) answers.round
    generalize machine hw req answers.round (enough req w) w = out at ranCore grown scanReq completes
    obtain ⟨v,verdict⟩ := out
    have ranKnown : Known v := known.grown grown (scanReq.trans there.symm)
    cases verdict with
    | none => exact ⟨ranCore,ranKnown⟩
    | some aborted => exact scanCompleted_core ranCore ranKnown aborted _ (completes aborted rfl)
  · exact ⟨core,known⟩

theorem scanCompleted_aborted (there : w.scanReq = some req) (answer : Option Errno) : scanCompleted hw w true answer = finish w req true := by
  unfold scanCompleted
  rw [there]
  dsimp only
  rw [if_neg (by simp)]
  rfl

theorem cancel_told (core : Core hw w) (accounted : Accounted w) (there : w.scanReq = some req) (id : Nat)
    (done : .scanDone id false ∈ w.trace) : Truthful hw (w.log (.cancelled req.id)) id := by
  obtain ⟨cancelled,covered⟩ := core.told id done
  refine ⟨fun now => ?_,fun other asked c member => ?_⟩
  · rcases mem_append.mp now with before | last
    · exact cancelled before
    · have own : req.id = some id := (Call.cancelled.inj (mem_singleton.mp last)).symm
      have once := accounted id
      have accepted : w.accepted id ≤ 1 := by
        unfold World.accepted
        split <;> omega
      have reported : 0 < w.trace.count (.scanDone id false) := List.count_pos_iff.mpr done
      unfold World.balance World.held World.reports at once
      rw [there,Option.bind_some,if_pos own] at once
      omega
  · obtain ⟨hardware,software⟩ := covered other asked c member
    exact ⟨fun on => (hardware on).imp fun _ both => both.imp_left (mem_append_left _),
      fun off => (software off).imp fun _ there => mem_append_left _ there⟩

theorem cancel_fresh (known : Known w) (there : w.scanReq = some req) (id : Nat) (new : w.requests.length ≤ id) :
    .cancelled (some id) ∉ (w.log (.cancelled req.id)).trace := by
  intro now
  rcases mem_append.mp now with before | last
  · exact known.fresh id new before
  · have own := known.own req id there (Call.cancelled.inj (mem_singleton.mp last)).symm
    have inside := (List.getElem?_eq_some_iff.mp own).1
    omega

theorem scanCancel_core (core : Core hw w) (known : Known w) (accounted : Accounted w) :
    Core hw (scanCancel hw w) ∧ Known (scanCancel hw w) := by
  unfold scanCancel
  cases there : w.scanReq with
  | none => exact ⟨core,known⟩
  | some req =>
    have told := cancel_told core accounted there
    have fresh := cancel_fresh known there
    -- The hardware goes on with a scan that is marked.
    have marked : w.scanning.hwScanning = true →
        Core hw {w.log (.cancelled req.id) with scanning := {w.scanning with hwCancelled := true}} ∧
          Known {w.log (.cancelled req.id) with scanning := {w.scanning with hwCancelled := true}} := by
      intro hwScanning
      refine ⟨⟨fun gone => absurd (there.symm.trans gone) (Option.some_ne_none req),core.hwReq,
        ⟨fun _ => hwScanning,core.bits.aborted,core.bits.hardware,core.bits.software⟩,fun other same => ?_,fun id done => ?_⟩,fresh,known.own⟩
      · obtain ⟨_,handed,tuned,onchannel⟩ := core.current other same
        exact ⟨fun _ _ _ => rfl,fun on c member gone => (handed on c member gone).imp fun _ both => both.imp_left (mem_append_left _),
          fun on k c early here => (tuned on k c early here).imp fun _ there => mem_append_left _ there,
          fun on c member => (onchannel on c member).imp fun _ there => mem_append_left _ there⟩
      · rcases mem_append.mp done with before | last
        · exact told id before
        · exact absurd (mem_singleton.mp last) Call.noConfusion
    dsimp only
    split
    · rename_i both
      exact marked (Bool.and_eq_true_iff.mp both).1
    split
    · rename_i hwScanning
      exact marked hwScanning
    rw [scanCompleted_aborted (w := w.log (.cancelled req.id)) there]
    have calls : ∀ call ∈ (finish (w.log (.cancelled req.id)) req true).trace, call ∈ (w.log (.cancelled req.id)).trace ∨ ∃ id, call = .scanDone id true := by
      intro _ member
      rcases mem_append.mp member with before | last
      · exact .inl before
      · obtain ⟨id,_,same⟩ := Option.map_eq_some_iff.mp (Option.mem_toList.mp last)
        exact .inr ⟨id,same.symm⟩
    refine ⟨⟨fun _ => rfl,rfl,notScanning_bits,fun _ gone => (by cases gone),fun id done => ?_⟩,
      ⟨fun id new cancelled => ?_,fun _ _ gone => (by cases gone)⟩⟩
    · rcases calls _ done with before | ⟨_,same⟩
      · rcases mem_append.mp before with before | last
        · obtain ⟨clean,covered⟩ := told id before
          refine ⟨fun cancelled => ?_,fun other asked c member => ?_⟩
          · rcases calls _ cancelled with before | ⟨_,same⟩
            · exact clean before
            · cases same
          · obtain ⟨hardware,software⟩ := covered other asked c member
            exact ⟨fun on => (hardware on).imp fun _ both => both.imp_left (mem_append_left _),
              fun off => (software off).imp fun _ there => mem_append_left _ there⟩
        · exact absurd (mem_singleton.mp last) Call.noConfusion
      · cases same
    · rcases calls _ cancelled with before | ⟨_,same⟩
      · exact fresh id new before
      · cases same

theorem driverCompleted_core (core : Core hw w) (known : Known w) (aborted : Bool) (fair : fair hw w (.completed aborted)) :
    Core hw (driverCompleted w aborted) ∧ Known (driverCompleted w aborted) := by
  refine ⟨⟨fun gone => ?_,core.hwReq,⟨core.bits.cancelled,fun _ => rfl,core.bits.hardware,fun off => ?_⟩,fun req there => ?_,core.told⟩,known.fresh,known.own⟩
  · have there := fair.2
    rw [show w.scanReq = none from gone] at there
    cases there
  · rw [fair.1] at off
    cases off
  · obtain ⟨cancelled,handed,tuned,onchannel⟩ := core.current req there
    exact ⟨cancelled,handed,tuned,onchannel⟩

theorem start_core (core : Core hw w) (known : Known w) (gone : w.scanReq = none) (sdata : Nat) (req : Request) (answers : StartAnswers)
    (fresh : ∀ id, req.id = some id → w.requests.length ≤ id) :
    Core hw (startScan hw w sdata req answers).1 ∧ Grown w (startScan hw w sdata req answers).1 := by
  obtain ⟨started,failed⟩ := startScan_core core gone sdata req answers fun id own => known.fresh id (fresh id own)
  obtain ⟨_,_,scanReq⟩ := @startScan_balance hw _ 0 gone sdata req answers
  by_cases result : (startScan hw w sdata req answers).2 = none
  · rw [if_pos result] at scanReq
    have started := started result
    exact ⟨started.core core scanReq,started.grown⟩
  · rw [if_neg result] at scanReq
    obtain ⟨grown,hwReq,scanning⟩ := failed result
    refine ⟨⟨fun _ => scanning,?_,?_,fun other same => ?_,grown.told core.told⟩,grown⟩
    · rw [hwReq,scanning]
      rfl
    · rw [scanning]
      exact notScanning_bits
    · rw [scanReq] at same
      cases same

theorem busy_scan (there : w.scanReq.isSome = true) (sdata : Nat) (req : Request) (answers : StartAnswers) :
    startScan hw w sdata req answers = (w,some .busy) := by
  unfold startScan
  rw [there]
  rfl

section
variable (core : Core hw w) (known : Known w)
include core known

theorem requestScan_core (accounted : Accounted w) (sdata : Nat) (req : Request) (answers : StartAnswers) :
    Core hw (requestScan hw w sdata req answers).1 ∧ Known (requestScan hw w sdata req answers).1 := by
  unfold requestScan
  generalize same : {req with id := some w.requests.length} = asked
  have own : asked.id = some w.requests.length := by
    rw [← same]
  dsimp only
  -- The new request is the last one; nothing that was reported is about it.
  have appended : ∀ v : World, Core hw v → Grown w v → (∀ other id, v.scanReq = some other → other.id = some id →
      (w.requests ++ [(asked,(startScan hw w sdata asked answers).2)])[id]? = some (other,none)) →
      Core hw {v with requests := v.requests ++ [(asked,(startScan hw w sdata asked answers).2)]} ∧
        Known {v with requests := v.requests ++ [(asked,(startScan hw w sdata asked answers).2)]} := by
    intro v core' grown mine
    refine ⟨⟨core'.idle,core'.hwReq,core'.bits,fun other there => ?_,fun id done => ?_⟩,fun id new cancelled => ?_,fun other id there ours => ?_⟩
    · obtain ⟨cancelled,handed,tuned,onchannel⟩ := core'.current other there
      exact ⟨cancelled,handed,tuned,onchannel⟩
    · obtain ⟨clean,covered⟩ := core'.told id done
      refine ⟨clean,fun other there => covered other ?_⟩
      have before : .scanDone id false ∈ w.trace := grown.done id false done
      have reported : 0 < w.trace.count (.scanDone id false) := List.count_pos_iff.mpr before
      have once := accounted id
      unfold World.balance World.reports World.accepted at once
      split at once
      · rename_i accepted
        obtain ⟨_,inside,_⟩ := Option.map_eq_some_iff.mp accepted
        have inside := (List.getElem?_eq_some_iff.mp inside).1
        rw [← grown.requests] at inside
        rwa [List.getElem?_append_left inside] at there
      · omega
    · rw [show ({v with requests := v.requests ++ [(asked,(startScan hw w sdata asked answers).2)]} : World).requests = _ from rfl,
        List.length_append] at new
      rw [grown.requests] at new
      exact known.fresh id (by omega) (grown.cancelled _ cancelled)
    · refine (congrArg (fun requests => (requests ++ [(asked,(startScan hw w sdata asked answers).2)])[id]?) grown.requests).trans ?_
      exact mine other id there ours
  have old : ∀ other id, w.scanReq = some other → other.id = some id →
      (w.requests ++ [(asked,(startScan hw w sdata asked answers).2)])[id]? = some (other,none) := by
    intro other id there ours
    have before := known.own other id there ours
    rw [List.getElem?_append_left (List.getElem?_eq_some_iff.mp before).1]
    exact before
  cases there : w.scanReq.isSome with
  | true =>
    rw [busy_scan there] at appended old ⊢
    exact appended w core (.refl w) old
  | false =>
    have gone : w.scanReq = none := Option.not_isSome_iff_eq_none.mp (by rw [there]; exact false_ne_true)
    obtain ⟨core',grown⟩ := start_core core known gone sdata asked answers fun id mine => by
      rw [own] at mine
      cases mine
      exact Nat.le_refl _
    obtain ⟨_,_,scanReq⟩ := @startScan_balance hw _ 0 gone sdata asked answers
    refine appended _ core' grown fun other id this ours => ?_
    rw [this] at scanReq
    split at scanReq
    · rename_i started
      cases scanReq
      rw [own] at ours
      cases ours
      rw [started,List.getElem?_append_right (Nat.le_refl _),Nat.sub_self]
      rfl
    · cases scanReq

theorem requestIbssScan_core (sdata : Nat) (channels : Option (List Channel)) (answers : StartAnswers) :
    Core hw (requestIbssScan hw w sdata channels answers).1 ∧ Known (requestIbssScan hw w sdata channels answers).1 := by
  unfold requestIbssScan
  split
  · exact ⟨core,known⟩
  rename_i idle
  have gone := Option.not_isSome_iff_eq_none.mp idle
  dsimp only
  split
  · rename_i nonempty
    obtain ⟨core',grown⟩ := start_core core known gone sdata ⟨none,_,1,false,nonempty⟩ answers fun id own => by cases own
    obtain ⟨_,_,scanReq⟩ := @startScan_balance hw _ 0 gone sdata ⟨none,_,1,false,nonempty⟩ answers
    refine ⟨core',known.takes grown fun other id there own => ?_⟩
    rw [there] at scanReq
    split at scanReq
    · cases scanReq
      cases own
    · cases scanReq
  · exact ⟨core,known⟩

theorem step_core (accounted : Accounted w) (e : Event) (fair : fair hw w e) :
    Core hw (step hw w e) ∧ Known (step hw w e) := by
  cases e with
  | scan sdata req answers => exact requestScan_core core known accounted sdata req answers
  | ibssScan sdata channels answers => exact requestIbssScan_core core known sdata channels answers
  | cancel => exact scanCancel_core core known accounted
  | completed aborted => exact driverCompleted_core core known aborted fair
  | work answers => exact scanWork_core core known answers fair

theorem run_core (accounted : Accounted w) (events : List Event) (fair : fairRun hw w events) :
    Core hw (run hw w events) ∧ Known (run hw w events) := by
  induction events generalizing w with
  | nil => exact ⟨core,known⟩
  | cons e rest ih =>
    obtain ⟨core,known⟩ := step_core core known accounted e fair.1
    exact ih core known (step_accounted accounted e) fair.2

end

theorem start_sound : Core hw start ∧ Known start ∧ Accounted start := by
  refine ⟨⟨fun _ => rfl,rfl,notScanning_bits,fun _ gone => (by cases gone),fun _ done => (by cases done)⟩,
    ⟨fun _ _ cancelled => (by cases cancelled),fun _ _ gone => (by cases gone)⟩,fun id => rfl⟩

theorem scan_life (hw : Hw) (events : List Event) :
    (∀ id req, (run hw start events).requests[id]? = some (req,none) →
        (∀ current, (run hw start events).scanReq = some current → current.id ≠ some id) → (run hw start events).reports id = 1) ∧
      (∀ id req err, (run hw start events).requests[id]? = some (req,some err) → (run hw start events).reports id = 0) ∧
      (fairRun hw start events →
        ((run hw start events).scanReq = none → (run hw start events).hwScanReq = none ∧ (run hw start events).scanning = notScanning) ∧
        ∀ id, .scanDone id false ∈ (run hw start events).trace → Truthful hw (run hw start events) id) := by
  obtain ⟨core,known,accounted⟩ := @start_sound hw
  have counts := @run_accounted hw _ accounted events
  refine ⟨fun id req asked gone => ?_,fun id req err asked => ?_,fun fair => ?_⟩
  · have once := counts id
    unfold World.balance World.held World.accepted at once
    rw [asked,Option.map_some,if_pos rfl,if_neg] at once
    · exact once
    · intro held
      obtain ⟨current,there,own⟩ := Option.bind_eq_some_iff.mp held
      exact gone current there own
  · have once := counts id
    unfold World.balance World.accepted at once
    rw [asked,if_neg (by simp)] at once
    omega
  · obtain ⟨core,_⟩ := run_core core known accounted events fair
    refine ⟨fun gone => ⟨?_,core.idle gone⟩,core.told⟩
    have hwReq := core.hwReq
    rw [core.idle gone] at hwReq
    exact Option.not_isSome_iff_eq_none.mp (by rw [hwReq]; exact false_ne_true)

end run

section examples

def dualBand : Hw := ⟨true,false,false,false,[]⟩

def twoBands : Request := ⟨none,[⟨1,.band2GHz,false,false⟩,⟨36,.band5GHz,false,false⟩],1,false,List.cons_ne_nil _ _⟩

def idle : StartAnswers := ⟨false,false,false,true,none,none,none⟩

def quiet : Nat → Round := fun _ => ⟨true,false,true,false,none⟩

def oneBandAtATime : List Event :=
  [.scan 0 twoBands idle,.completed false,.work ⟨true,idle,none,quiet⟩,.completed false,.work ⟨true,idle,none,quiet⟩]

theorem scan_life_done : (run dualBand start oneBandAtATime).reports 0 = 1 ∧ (run dualBand start oneBandAtATime).scanning = notScanning ∧
    Truthful dualBand (run dualBand start oneBandAtATime) 0 := by
  have fair : fairRun dualBand start oneBandAtATime := by
    refine ⟨trivial,⟨rfl,rfl⟩,fun _ _ => ⟨fun on => ?_,fun _ _ _ _ _ => rfl⟩,⟨rfl,rfl⟩,fun _ _ => ⟨fun on => ?_,fun _ _ _ _ _ => rfl⟩,trivial⟩
    · exact absurd on (by decide)
    · exact absurd on (by decide)
  obtain ⟨once,_,rest⟩ := scan_life dualBand oneBandAtATime
  obtain ⟨clean,told⟩ := rest fair
  exact ⟨once 0 _ rfl fun _ there => (by cases there),(clean rfl).2,told 0 (by decide)⟩

-- A cancelled scan, one whose second band the driver refuses, and a completion without a scan.
theorem scan_misreported :
    (.cancelled (some 0) ∈ (run dualBand start [.scan 0 twoBands idle,.cancel,.completed false,.work ⟨true,idle,none,quiet⟩]).trace ∧
      .scanDone 0 false ∈ (run dualBand start [.scan 0 twoBands idle,.cancel,.completed false,.work ⟨true,idle,none,quiet⟩]).trace) ∧
    (run dualBand start [.scan 0 twoBands idle,.completed false,.work ⟨true,idle,some (.driver 5),quiet⟩]).trace =
      [.hwScan (some 0) [⟨1,.band2GHz,false,false⟩] none,.hwScan (some 0) [⟨36,.band5GHz,false,false⟩] (some (.driver 5)),.scanDone 0 false] ∧
    (run dualBand start [.completed true]).scanReq.isNone = true ∧ (run dualBand start [.completed true]).scanning ≠ notScanning := by
  decide

end examples

end Mac80211.Scan

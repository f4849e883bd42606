import Mac80211.ScanBalance

namespace Mac80211.Scan

def Handed (w : World) (id : Option Nat) (c : Channel) : Prop := ∃ chosen, .hwScan id chosen none ∈ w.trace ∧ c ∈ chosen

def Tuned (w : World) (id : Option Nat) (c : Channel) : Prop := ∃ result, .tune id c result ∈ w.trace

def Covered (hw : Hw) (w : World) (id : Option Nat) (c : Channel) : Prop := (hw.hwScan = true → Handed w id c) ∧ (hw.hwScan = false → Tuned w id c)

def Truthful (hw : Hw) (w : World) (id : Nat) : Prop :=
  .cancelled (some id) ∉ w.trace ∧
    ∀ req, w.requests[id]? = some (req,none) → ∀ c ∈ req.channels, Covered hw w (some id) c

structure Bits (hw : Hw) (s : Scanning) : Prop where
  cancelled : s.hwCancelled = true → s.hwScanning = true
  aborted : s.aborted = true → s.completed = true
  hardware : hw.hwScan = true → s.swScanning = false ∧ s.onchannelScanning = false
  software : hw.hwScan = false → s.hwScanning = false ∧ s.completed = false

structure Current (hw : Hw) (w : World) (req : Request) : Prop where
  cancelled : ∀ id, req.id = some id → .cancelled (some id) ∈ w.trace → w.scanning.hwCancelled = true
  handed : w.scanning.hwScanning = true → ∀ c ∈ req.channels, hw.singleHwScanOnAllBands = true ∨ c.band ∉ w.hwScanBand → Handed w req.id c
  tuned : w.scanning.swScanning = true → ∀ k c, k < w.scanChannelIdx → req.channels[k]? = some c → Tuned w req.id c
  onchannel : w.scanning.onchannelScanning = true → ∀ c ∈ req.channels, Tuned w req.id c

structure Core (hw : Hw) (w : World) : Prop where
  idle : w.scanReq = none → w.scanning = notScanning
  hwReq : w.hwScanReq.isSome = w.scanning.hwScanning
  bits : Bits hw w.scanning
  current : ∀ req, w.scanReq = some req → Current hw w req
  told : ∀ id, .scanDone id false ∈ w.trace → Truthful hw w id

structure Known (w : World) : Prop where
  fresh : ∀ id, w.requests.length ≤ id → .cancelled (some id) ∉ w.trace
  own : ∀ req id, w.scanReq = some req → req.id = some id → w.requests[id]? = some (req,none)

structure Grown (w v : World) : Prop where
  kept : ∀ call ∈ w.trace, call ∈ v.trace
  cancelled : ∀ id, .cancelled id ∈ v.trace → .cancelled id ∈ w.trace
  done : ∀ id aborted, .scanDone id aborted ∈ v.trace → .scanDone id aborted ∈ w.trace
  requests : v.requests = w.requests

section truth

theorem Grown.refl (w : World) : Grown w w := ⟨fun _ => id,fun _ => id,fun _ _ => id,rfl⟩

theorem Grown.same (trace : v.trace = w.trace) (requests : v.requests = w.requests) : Grown w v := by
  refine ⟨fun _ => ?_,fun _ => ?_,fun _ _ => ?_,requests⟩
  all_goals
    rw [trace]
    exact id

theorem log_grown {call : Call} (cancels : ∀ id, call ≠ .cancelled id) (silent : call.silent) : Grown w (w.log call) := by
  refine ⟨fun _ there => List.mem_append_left _ there,fun id there => ?_,fun id aborted there => ?_,rfl⟩
  · rcases List.mem_append.mp there with before | last
    · exact before
    · exact absurd (List.mem_singleton.mp last).symm (cancels id)
  · rcases List.mem_append.mp there with before | last
    · exact before
    · exact absurd (List.mem_singleton.mp last).symm (silent id aborted)

theorem Grown.trans (first : Grown w v) (second : Grown v u) : Grown w u :=
  ⟨fun call there => second.kept call (first.kept call there),fun id there => first.cancelled id (second.cancelled id there),
    fun id aborted there => first.done id aborted (second.done id aborted there),second.requests.trans first.requests⟩

theorem Grown.handed (grown : Grown w v) {id : Option Nat} (handed : Handed w id c) : Handed v id c :=
  handed.imp fun _ both => both.imp_left (grown.kept _)

theorem Grown.tuned (grown : Grown w v) {id : Option Nat} (tuned : Tuned w id c) : Tuned v id c :=
  tuned.imp fun _ there => grown.kept _ there

theorem Grown.truthful (grown : Grown w v) {id : Nat} (truthful : Truthful hw w id) : Truthful hw v id := by
  refine ⟨fun cancelled => truthful.1 (grown.cancelled _ cancelled),fun req asked c there => ?_⟩
  rw [grown.requests] at asked
  obtain ⟨hardware,software⟩ := truthful.2 req asked c there
  exact ⟨fun hwScan => grown.handed (hardware hwScan),fun hwScan => grown.tuned (software hwScan)⟩

theorem Grown.told (grown : Grown w v) (told : ∀ id, .scanDone id false ∈ w.trace → Truthful hw w id) :
    ∀ id, .scanDone id false ∈ v.trace → Truthful hw v id :=
  fun id done => grown.truthful (told id (grown.done id false done))

theorem none_left {channels : List Channel} (empty : (channels.filter fun channel => channel.band = band) = []) (there : c ∈ channels)
    (before : c.band ∉ left) : c.band ∉ band :: left := fun member => by
  rcases List.mem_cons.mp member with same | later
  · have chosen : c ∈ channels.filter fun channel => channel.band = band := List.mem_filter.mpr ⟨there,decide_eq_true same⟩
    rw [empty] at chosen
    cases chosen
  · exact before later

theorem prepBands_spec (channels : List Channel) (left : List Band)
    (some : prepBands channels left = some (rest,chosen)) (c : Channel) (there : c ∈ channels) (gone : c.band ∉ rest) :
    c.band ∉ left ∨ c ∈ chosen := by
  induction left with
  | nil => cases some
  | cons band left ih =>
    unfold prepBands at some
    dsimp only at some
    split at some
    · rename_i empty
      exact (ih some).imp_left (none_left empty there)
    · cases some
      by_cases same : c.band = band
      · exact .inr (List.mem_filter.mpr ⟨there,decide_eq_true same⟩)
      · exact .inl fun member => (List.mem_cons.mp member).elim same gone

theorem prepBands_none (channels : List Channel) (left : List Band) (none : prepBands channels left = none) (c : Channel) (there : c ∈ channels) :
    c.band ∉ left := by
  induction left with
  | nil => exact List.not_mem_nil
  | cons band left ih =>
    unfold prepBands at none
    dsimp only at none
    split at none
    · rename_i empty
      exact none_left empty there (ih none)
    · cases none

theorem prepHwScan_handed (there : w.hwScanReq.isSome = true) (more : (prepHwScan hw w req).2 = true)
    (before : ∀ c ∈ req.channels, c.band ∉ w.hwScanBand → Handed w req.id c) :
    ∀ c ∈ req.channels, hw.singleHwScanOnAllBands = true ∨ c.band ∉ (prepHwScan hw w req).1.hwScanBand →
      Handed ((prepHwScan hw w req).1.log (.hwScan req.id ((prepHwScan hw w req).1.hwScanReq.getD []) none)) req.id c := by
  intro c member gone
  obtain ⟨_,there⟩ := Option.isSome_iff_exists.mp there
  unfold prepHwScan at more gone ⊢
  split at more
  · cases more
  rename_i cancelled
  rw [if_neg cancelled] at gone ⊢
  rw [there] at gone ⊢
  split at more
  · rename_i single
    rw [if_pos single]
    exact ⟨req.channels,List.mem_append_right _ (List.mem_singleton_self _),member⟩
  rename_i single
  rw [if_neg single] at gone ⊢
  split at more
  · cases more
  · rename_i rest chosen some
    rw [some] at gone
    rcases prepBands_spec req.channels w.hwScanBand some c member (gone.resolve_left single) with early | now
    · obtain ⟨chosen,handed,inside⟩ := before c member early
      exact ⟨chosen,List.mem_append_left _ handed,inside⟩
    · exact ⟨chosen,List.mem_append_right _ (List.mem_singleton_self _),now⟩

theorem prepHwScan_hwReq (w : World) (req : Request) : (prepHwScan hw w req).1.hwScanReq.isSome = w.hwScanReq.isSome := by
  unfold prepHwScan
  split
  · rfl
  · split
    · exact Option.isSome_map
    · split
      · rfl
      · exact Option.isSome_map

theorem notScanning_bits : Bits hw notScanning :=
  ⟨fun on => Bool.noConfusion on,fun on => Bool.noConfusion on,fun _ => ⟨rfl,rfl⟩,fun _ => ⟨rfl,rfl⟩⟩

theorem finish_core (core : Core hw w) (known : Known w) (there : w.scanReq = some req) (v : World) (grown : Grown w v) (aborted : Bool)
    (fits : aborted = false → w.scanning.hwCancelled = false ∧ ∀ c ∈ req.channels, Covered hw v req.id c) :
    Core hw (finish v req aborted) ∧ Known (finish v req aborted) := by
  have calls : ∀ call ∈ (finish v req aborted).trace, call ∈ v.trace ∨ ∃ id, req.id = some id ∧ call = .scanDone id aborted := by
    intro call member
    rcases List.mem_append.mp member with before | last
    · exact .inl before
    · obtain ⟨id,own,same⟩ := Option.map_eq_some_iff.mp (Option.mem_toList.mp last)
      exact .inr ⟨id,own,same.symm⟩
  have kept : ∀ call ∈ v.trace, call ∈ (finish v req aborted).trace := fun call before => List.mem_append_left _ before
  have cancels : ∀ id, .cancelled id ∈ (finish v req aborted).trace → .cancelled id ∈ w.trace := by
    intro id cancelled
    rcases calls _ cancelled with before | ⟨_,_,same⟩
    · exact grown.cancelled id before
    · cases same
  refine ⟨⟨fun _ => rfl,rfl,notScanning_bits,fun _ gone => (by cases gone),fun id done => ?_⟩,
    ⟨fun id new cancelled => ?_,fun _ _ gone => (by cases gone)⟩⟩
  · rcases calls _ done with before | ⟨own,mine,same⟩
    · have told := grown.told core.told id before
      refine ⟨fun cancelled => told.1 (grown.kept _ (cancels _ cancelled)),fun other asked c member => ?_⟩
      obtain ⟨hardware,software⟩ := told.2 other asked c member
      exact ⟨fun hwScan => (hardware hwScan).imp fun _ both => both.imp_left (kept _),fun hwScan => (software hwScan).imp fun _ there => kept _ there⟩
    obtain ⟨rfl,rfl⟩ := Call.scanDone.inj same
    obtain ⟨running,covered⟩ := fits rfl
    refine ⟨fun cancelled => ?_,fun other asked c member => ?_⟩
    · have marked := (core.current req there).cancelled id mine (cancels _ cancelled)
      rw [running] at marked
      cases marked
    · have asked : w.requests[id]? = some (other,none) := grown.requests ▸ asked
      rw [known.own req id there mine] at asked
      cases asked
      obtain ⟨hardware,software⟩ := covered c member
      rw [mine] at hardware software
      exact ⟨fun hwScan => (hardware hwScan).imp fun _ both => both.imp_left (kept _),fun hwScan => (software hwScan).imp fun _ there => kept _ there⟩
  · have new : w.requests.length ≤ id := grown.requests ▸ new
    exact known.fresh id new (cancels _ cancelled)

theorem Known.takes (known : Known w) (grown : Grown w v)
    (own : ∀ req id, v.scanReq = some req → req.id = some id → w.requests[id]? = some (req,none)) : Known v := by
  refine ⟨fun id new cancelled => ?_,fun req id there mine => ?_⟩
  · rw [grown.requests] at new
    exact known.fresh id new (grown.cancelled _ cancelled)
  · rw [grown.requests]
    exact own req id there mine

theorem Known.grown (known : Known w) (grown : Grown w v) (same : v.scanReq = w.scanReq) : Known v :=
  known.takes grown fun req id there => known.own req id (same ▸ there)

-- What a completion has to find that is not one of an abort.
def Completes (hw : Hw) (w : World) (aborted : Bool) (answer : Option Errno) : Prop :=
  aborted = false → w.scanning ≠ notScanning → ∀ req, w.scanReq = some req → w.scanning.hwCancelled = false ∧
    (hw.hwScan = true → w.scanning.hwScanning = true ∧
      (hw.singleHwScanOnAllBands = false → prepBands req.channels w.hwScanBand ≠ none → answer = none)) ∧
    (hw.hwScan = false → ∀ c ∈ req.channels, Tuned w req.id c)

theorem scanCompleted_core (core : Core hw w) (known : Known w) (aborted : Bool) (answer : Option Errno)
    (fits : Completes hw w aborted answer) :
    Core hw (scanCompleted hw w aborted answer) ∧ Known (scanCompleted hw w aborted answer) := by
  unfold scanCompleted
  cases there : w.scanReq with
  | none => exact ⟨core,known⟩
  | some req =>
    dsimp only
    have fits : (aborted || decide (w.scanning = notScanning)) = false → w.scanning.hwCancelled = false ∧
        (hw.hwScan = true → w.scanning.hwScanning = true ∧
          (hw.singleHwScanOnAllBands = false → prepBands req.channels w.hwScanBand ≠ none → answer = none)) ∧
        (hw.hwScan = false → ∀ c ∈ req.channels, Tuned w req.id c) := by
      intro goes
      obtain ⟨goes,scanning⟩ := Bool.or_eq_false_iff.mp goes
      exact fits goes (of_decide_eq_false scanning) req there
    have current := core.current req there
    generalize (aborted || decide (w.scanning = notScanning)) = aborted at fits ⊢
    obtain ⟨scanReq,trace,scanning,requests⟩ := @prepHwScan_keeps hw w req
    have grown : Grown w (prepHwScan hw w req).1 := .same trace requests
    split
    · rename_i bands
      obtain ⟨⟨hwScan,goes⟩,single⟩ : (hw.hwScan = true ∧ aborted = false) ∧ hw.singleHwScanOnAllBands = false := by simpa using bands
      obtain ⟨running,hardware,_⟩ := fits goes
      obtain ⟨hwScanning,next⟩ := hardware hwScan
      split
      · rename_i more
        -- There is a next band, so the driver has been asked, and takes it.
        have some : prepBands req.channels w.hwScanBand ≠ none := by
          intro none
          unfold prepHwScan at more
          rw [running,single,none] at more
          cases more
        rw [if_pos (next single some),next single some]
        have grown := grown.trans (@log_grown _ (.hwScan req.id ((prepHwScan hw w req).1.hwScanReq.getD []) none)
          (fun _ => Call.noConfusion) fun _ _ => Call.noConfusion)
        refine ⟨⟨fun gone => ?_,?_,?_,fun other same => ?_,grown.told core.told⟩,known.grown grown scanReq⟩
        · rw [show ((prepHwScan hw w req).1.log _).scanReq = _ from scanReq,there] at gone
          cases gone
        · exact (prepHwScan_hwReq w req).trans (core.hwReq.trans (congrArg Scanning.hwScanning scanning.symm))
        · exact (congrArg (Bits hw) scanning).mpr core.bits
        rw [show ((prepHwScan hw w req).1.log _).scanReq = _ from scanReq,there] at same
        cases same
        have there : w.hwScanReq.isSome = true := core.hwReq.trans hwScanning
        refine ⟨fun id own cancelled => ?_,fun _ => ?_,fun on => ?_,fun on => ?_⟩
        · exact (congrArg Scanning.hwCancelled scanning).trans (current.cancelled id own (grown.cancelled _ cancelled))
        · exact prepHwScan_handed there more fun c member gone => current.handed hwScanning c member (.inr gone)
        · have off := (core.bits.hardware hwScan).1
          exact absurd ((congrArg Scanning.swScanning scanning).symm.trans on) (by rw [off]; exact Bool.false_ne_true)
        · have off := (core.bits.hardware hwScan).2
          exact absurd ((congrArg Scanning.onchannelScanning scanning).symm.trans on) (by rw [off]; exact Bool.false_ne_true)
      rename_i last
      refine finish_core core known there _ grown aborted fun _ => ⟨running,fun c member => ⟨fun _ => grown.handed ?_,fun off => ?_⟩⟩
      · -- No band is left, so the channels of all of them have been handed over.
        refine current.handed hwScanning c member (.inr ?_)
        refine prepBands_none req.channels w.hwScanBand ?_ c member
        unfold prepHwScan at last
        rw [running,single,if_neg Bool.false_ne_true,if_neg Bool.false_ne_true] at last
        cases left : prepBands req.channels w.hwScanBand with
        | none => rfl
        | some =>
          rw [left] at last
          exact absurd rfl last
      · rw [hwScan] at off
        cases off
    · rename_i bands
      refine finish_core core known there w (.refl w) aborted fun goes => ?_
      obtain ⟨running,hardware,software⟩ := fits goes
      refine ⟨running,fun c member => ⟨fun hwScan => ?_,fun off => software off c member⟩⟩
      refine current.handed (hardware hwScan).1 c member (.inl ?_)
      rw [hwScan,goes] at bands
      simpa using bands

end truth

end Mac80211.Scan

import Mac80211.PowerSave
import Mac80211.Tally

namespace Mac80211.PowerSave
open Ieee80211 Tally

def StaInfo.held (sta : StaInfo) : Nat := if sta.alive then sta.psTxBuf.len else 0
def World.heldUc (w : World) : Int := total (fun sta => (sta.held : Int)) w.stations
def World.heldBc (w : World) : Int := total (fun ps => (ps.bcBuf.length : Int)) w.interfaces
def World.drift (w : World) : Int := w.totalPsBuffered - (w.heldUc + w.heldBc)

def Acs.single (q : Acs α) : Prop := ∀ ac ac', q.get ac ≠ [] → q.get ac' ≠ [] → ac = ac'

section queues

theorem len_set (q : Acs α) (ac : Ac) (frames : List α) :
    ((q.set ac frames).len : Int) = q.len - (q.get ac).length + frames.length := by
  cases ac <;> simp [Acs.set,Acs.get,Acs.len] <;> omega

@[simp] theorem len_empty : (Acs.empty : Acs α).len = 0 := rfl

theorem single_iff (q : Acs α) : q.single ↔ (q.bk ≠ [] → q.be = [] ∧ q.vi = [] ∧ q.vo = []) ∧
    (q.be ≠ [] → q.vi = [] ∧ q.vo = []) ∧ (q.vi ≠ [] → q.vo = []) := by
  constructor
  · intro single
    have apart : ∀ ac ac', ac ≠ ac' → q.get ac ≠ [] → q.get ac' = [] := by
      intro ac ac' other some
      by_contra more
      exact other (single ac ac' some more)
    refine ⟨fun bk => ⟨?_,?_,?_⟩,fun be => ⟨?_,?_⟩,fun vi => ?_⟩
    · exact apart .bk .be (by decide) bk
    · exact apart .bk .vi (by decide) bk
    · exact apart .bk .vo (by decide) bk
    · exact apart .be .vi (by decide) be
    · exact apart .be .vo (by decide) be
    · exact apart .vi .vo (by decide) vi
  · rintro ⟨_,_,_⟩ ac ac' _ _
    cases ac <;> cases ac' <;> simp_all [Acs.get]

end queues

section changes
variable {w w' : World} {sta : StaInfo}

theorem held_alive (alive : sta.alive = true) : sta.held = sta.psTxBuf.len := by
  unfold StaInfo.held
  rw [if_pos alive]

theorem sta_drift (found : w.stations[i]? = some sta) (stations : w'.stations = w.stations.set i sta')
    (heldBc : w'.heldBc = w.heldBc) (change : w'.totalPsBuffered = w.totalPsBuffered - sta.held + sta'.held) :
    w'.drift = w.drift := by
  have heldUc : w'.heldUc = w.heldUc - sta.held + sta'.held := by
    unfold World.heldUc
    rw [stations]
    exact total_set found _
  unfold World.drift
  omega

theorem ps_drift (ps' : PsData) (found : w.interfaces[b]? = some ps) (interfaces : w'.interfaces = w.interfaces.set b ps')
    (stations : w'.stations = w.stations)
    (change : w'.totalPsBuffered = w.totalPsBuffered - ps.bcBuf.length + ps'.bcBuf.length) : w'.drift = w.drift := by
  have heldBc : w'.heldBc = w.heldBc - ps.bcBuf.length + ps'.bcBuf.length := by
    unfold World.heldBc
    rw [interfaces]
    exact total_set found _
  have heldUc : w'.heldUc = w.heldUc := by
    unfold World.heldUc
    rw [stations]
  unfold World.drift
  omega

theorem heldBc_addNumStaPs (w : World) (b : Nat) (change : Int) : (w.addNumStaPs b change).heldBc = w.heldBc := by
  unfold World.addNumStaPs
  split
  · rfl
  · rename_i ps found
    unfold World.heldBc World.setPs
    rw [total_set found]
    exact Int.sub_add_cancel _ _

theorem total_addNumStaPs (w : World) (b : Nat) (change : Int) :
    (w.addNumStaPs b change).totalPsBuffered = w.totalPsBuffered := by
  unfold World.addNumStaPs
  split <;> rfl

theorem buf_drift (sta' : StaInfo) (found : w.stations[i]? = some sta) (alive : sta.alive = true)
    (stations : w'.stations = w.stations.set i sta') (heldBc : w'.heldBc = w.heldBc)
    (held : sta'.held = sta'.psTxBuf.len)
    (change : w'.totalPsBuffered = w.totalPsBuffered - sta.psTxBuf.len + sta'.psTxBuf.len) : w'.drift = w.drift := by
  refine sta_drift found stations heldBc ?_
  rw [held_alive alive,held]
  exact change

theorem same_drift (found : w.stations[i]? = some sta) (stations : w'.stations = w.stations.set i sta')
    (heldBc : w'.heldBc = w.heldBc) (total : w'.totalPsBuffered = w.totalPsBuffered) (held : sta'.held = sta.held) :
    w'.drift = w.drift := by
  refine sta_drift found stations heldBc ?_
  omega

end changes

section taken

theorem takeFrames_counts (n : Nat) (filtered buffered : List Skb) :
    (takeFrames n filtered buffered).released + (takeFrames n filtered buffered).buffered.length = buffered.length := by
  induction n,filtered,buffered using takeFrames.induct with
  | case1 | case4 => simp [takeFrames]
  | case2 n skb filtered buffered ih => simpa [takeFrames] using ih
  | case3 =>
    simp only [takeFrames,List.length_cons]
    omega

-- What was released and what is still buffered are the frames that were there before.
def Release.books (r : Release) : Int := r.released + r.buffered.len

theorem take_books (r : Release) (ac : Ac) : (r.take ac).books = r.books := by
  have counts := takeFrames_counts r.nFrames (r.filtered.get ac) (r.buffered.get ac)
  unfold Release.books Release.take
  simp only [len_set]
  omega

theorem releaseAcs_books (tids : UInt16) (ignoredAcs : UInt8) (pspoll : Bool) (acs : List Ac) (r : Release) :
    (releaseAcs tids ignoredAcs pspoll acs r).books = r.books := by
  induction acs generalizing r with
  | nil => rfl
  | cons ac rest ih =>
    unfold releaseAcs
    dsimp only
    by_cases ignored : (ignoredAcs &&& ac.bit != 0) = true
    · rw [if_pos ignored]
      exact ih r
    rw [if_neg ignored]
    generalize (if r.frames.isEmpty then r.driverTids ||| tids &&& ac.tids else r.driverTids) = driverTids
    split
    · rfl
    have taken : (if (driverTids != 0) = true then {r with driverTids := driverTids}
        else Release.take {r with driverTids := driverTids} ac).books = r.books := by
      split
      · rfl
      · exact take_books _ ac
    revert taken
    generalize (if (driverTids != 0) = true then {r with driverTids := driverTids}
      else Release.take {r with driverTids := driverTids} ac) = next
    intro taken
    split
    · exact taken
    · exact (ih _).trans taken

theorem mpsRelease_books (nFrames : Option Nat) (acs : List Ac) (r : Release) :
    (mpsRelease nFrames acs r).books = r.books := by
  induction acs generalizing r with
  | nil => rfl
  | cons ac rest ih =>
    exact (ih _).trans (take_books _ ac)

theorem bcLoop_counts (drops : Skb → Bool) (frames : List Skb) :
    (bcLoop drops frames).2.1 + (bcLoop drops frames).1.length = frames.length := by
  induction frames with
  | nil => rfl
  | cons skb rest ih =>
    simp only [bcLoop]
    split
    · simp only [List.length_cons]
      rw [← ih]
      exact Nat.add_right_comm _ 1 _
    · exact Nat.add_comm 1 _

theorem expire_le (old : Skb → Bool) (q : Acs Skb) : (q.expire old).len ≤ q.len := by
  unfold Acs.expire Acs.len
  have shorter : ∀ frames : List Skb, (frames.dropWhile old).length ≤ frames.length :=
    fun frames => (List.dropWhile_suffix old).length_le
  have vo := shorter q.vo
  have vi := shorter q.vi
  have be := shorter q.be
  have bk := shorter q.bk
  dsimp only
  omega

end taken

section purge

-- What the purge leaves but does not count.
def StaInfo.skipped (sta : StaInfo) : Int := sta.purged.held - sta.purgeCount

theorem purgeAcs_skips (q : Acs Skb) : (purgeAcs Ac.all.reverse q).2 ≤ (purgeAcs Ac.all.reverse q).1.len ∧
      ((purgeAcs Ac.all.reverse q).1.len = (purgeAcs Ac.all.reverse q).2 ↔ q.single) := by
  rw [single_iff]
  obtain ⟨vo,vi,be,bk⟩ := q
  cases bk with
  | cons skb rest =>
    have left : purgeAcs Ac.all.reverse ⟨vo,vi,be,skb :: rest⟩ = (⟨vo,vi,be,rest⟩,rest.length) := rfl
    simp only [left,Acs.len,← List.length_eq_zero_iff,ne_eq,List.length_cons]
    omega
  | nil =>
    cases be with
    | cons skb rest =>
      have left : purgeAcs Ac.all.reverse ⟨vo,vi,skb :: rest,[]⟩ = (⟨vo,vi,rest,[]⟩,rest.length) := rfl
      simp only [left,Acs.len,← List.length_eq_zero_iff,ne_eq,List.length_cons,List.length_nil,not_true,false_implies,true_and]
      omega
    | nil =>
      cases vi with
      | cons skb rest =>
        have left : purgeAcs Ac.all.reverse ⟨vo,skb :: rest,[],[]⟩ = (⟨vo,rest,[],[]⟩,rest.length) := rfl
        simp only [left,Acs.len,← List.length_eq_zero_iff,ne_eq,List.length_cons,List.length_nil,not_true,false_implies,true_and]
        omega
      | nil =>
        cases vo with
        | cons skb rest =>
          have left : purgeAcs Ac.all.reverse ⟨skb :: rest,[],[],[]⟩ = (⟨rest,[],[],[]⟩,rest.length) := rfl
          simp [left,Acs.len]
        | nil =>
          have left : purgeAcs Ac.all.reverse ⟨[],[],[],[]⟩ = (⟨[],[],[],[]⟩,0) := rfl
          simp [left,Acs.len]

def StaInfo.whole (sta : StaInfo) : Prop :=
  match sta.phase with
  | .listed => sta.psTxBuf.single
  | .unlinked => sta.psTxBuf.len = 0
  | .freed => True

theorem skipped_spec (sta : StaInfo) : 0 ≤ sta.skipped ∧ (sta.skipped = 0 ↔ sta.whole) := by
  obtain ⟨_,exact'⟩ := purgeAcs_skips sta.psTxBuf
  cases phase : sta.phase with
  | listed =>
    have skipped : sta.skipped = (purgeAcs Ac.all.reverse sta.psTxBuf).1.len - (purgeAcs Ac.all.reverse sta.psTxBuf).2 := by
      simp [StaInfo.skipped,StaInfo.held,StaInfo.alive,StaInfo.purged,StaInfo.purgeCount,phase]
    simp only [StaInfo.whole,phase,skipped]
    rw [← exact']
    omega
  | unlinked =>
    have skipped : sta.skipped = sta.psTxBuf.len := by
      simp [StaInfo.skipped,StaInfo.held,StaInfo.alive,StaInfo.purged,StaInfo.purgeCount,phase]
    simp only [StaInfo.whole,phase,skipped]
    omega
  | freed =>
    have skipped : sta.skipped = 0 := by
      simp [StaInfo.skipped,StaInfo.held,StaInfo.alive,StaInfo.purged,StaInfo.purgeCount,phase]
    simp [StaInfo.whole,phase,skipped]

theorem purge_drift (w : World) : w.purgeOldPsBuffers.drift = - total StaInfo.skipped w.stations := by
  have tails : w.purgeOldPsBuffers.heldBc = ((w.interfaces.map fun ps => ps.bcBuf.tail.length).sum : Nat) := by
    unfold World.heldBc World.purgeOldPsBuffers
    rw [total_map,← total_natCast]
    rfl
  have left : w.purgeOldPsBuffers.heldUc - ((w.stations.map StaInfo.purgeCount).sum : Nat) = total StaInfo.skipped w.stations := by
    unfold World.heldUc World.purgeOldPsBuffers
    rw [total_map,← total_natCast,← total_sub]
    rfl
  have counted : w.purgeOldPsBuffers.totalPsBuffered =
      ((w.interfaces.map fun ps => ps.bcBuf.tail.length).sum + (w.stations.map StaInfo.purgeCount).sum : Nat) := rfl
  unfold World.drift
  omega

def Balanced (w : World) : Prop := w.drift = 0

def World.whole (w : World) : Prop := w.totalPsBuffered ≥ totalMaxTxBuffer → ∀ sta ∈ w.stations, sta.whole

theorem makeRoom_balanced (balanced : Balanced w) : Balanced w.makeRoom ↔ w.whole := by
  unfold World.makeRoom World.whole
  split
  · rename_i full
    unfold Balanced
    rw [purge_drift,Int.neg_eq_zero,total_eq_zero fun sta _ => (skipped_spec sta).1]
    constructor
    · intro none _ sta member
      exact (skipped_spec sta).2.mp (none sta member)
    · intro whole sta member
      exact (skipped_spec sta).2.mpr (whole full sta member)
  · rename_i room
    exact ⟨fun _ full => absurd full room,fun _ => balanced⟩

end purge

section steps
variable {w : World} {i b : Nat}

-- What it takes to leave no frame out when the buffers are full or a station is removed.
def StaInfo.buffers (sta : StaInfo) (skb : Skb) : Bool :=
  sta.blocked && !skb.noPsBuffer && !(isMgmt skb.frameControl && !isBufferableMmpdu skb.frameControl)

def World.buffersBc (w : World) (ps : PsData) (skb : Skb) : Bool :=
  !hasOrder skb.frameControl && !isProbeReq skb.frameControl && ps.numStaPs != 0 && w.hostBroadcastPsBuffering

def Event.Whole (w : World) : Event → Prop
  | .txUnicast i skb => ∀ sta, w.stations[i]? = some sta → sta.buffers skb = true → w.whole
  | .txMulticast b skb => ∀ ps, w.interfaces[b]? = some ps → w.buffersBc ps skb = true → w.whole
  | .destroy i => ∀ sta, w.stations[i]? = some sta → sta.blocked = true → sta.type = .other → sta.psTxBuf.len = 0
  | _ => True

theorem queueUc_drift (found : w.stations[i]? = some sta) (alive : sta.alive = true) (skb : Skb) :
    (w.queueUc i sta skb).drift = w.drift := by
  unfold World.queueUc
  dsimp only
  split
  · rename_i full
    refine buf_drift _ found alive rfl rfl (held_alive alive) ?_
    have some : 0 < (sta.psTxBuf.get skb.ac).length := by
      unfold staMaxTxBuffer at full
      omega
    simp only [len_set,List.length_append,List.length_tail,List.length_singleton,World.setSta]
    omega
  · refine buf_drift _ found alive rfl rfl (held_alive alive) ?_
    simp only [len_set,List.length_append,List.length_singleton]
    omega

theorem queueBc_drift (found : w.interfaces[b]? = some ps) (skb : Skb) : (w.queueBc b ps skb).drift = w.drift := by
  unfold World.queueBc
  split
  · rename_i full
    refine ps_drift _ found rfl rfl ?_
    unfold apMaxBcBuffer at full
    simp only [List.length_append,List.length_tail,List.length_singleton,World.setPs]
    omega
  · refine ps_drift _ found rfl rfl ?_
    simp only [List.length_append,List.length_singleton]
    omega

theorem makeRoom_station (found : w.stations[i]? = some sta) (alive : sta.alive = true) :
    ∃ sta', w.makeRoom.stations[i]? = some sta' ∧ sta'.alive = true := by
  unfold World.makeRoom
  split
  · refine ⟨sta.purged,?_,?_⟩
    · simp [World.purgeOldPsBuffers,found]
    · unfold StaInfo.purged
      split <;> exact alive
  · exact ⟨sta,found,alive⟩

theorem makeRoom_interface (found : w.interfaces[b]? = some ps) : ∃ ps', w.makeRoom.interfaces[b]? = some ps' := by
  unfold World.makeRoom
  split
  · exact ⟨{ps with bcBuf := ps.bcBuf.tail},by simp [World.purgeOldPsBuffers,found]⟩
  · exact ⟨ps,found⟩

theorem unicast_balanced (found : w.stations[i]? = some sta) (alive : sta.alive = true) (balanced : Balanced w) :
    Balanced (w.txHUnicastPsBuf i sta skb).1 ↔ Event.Whole w (.txUnicast i skb) := by
  have same : Event.Whole w (.txUnicast i skb) ↔ (sta.buffers skb = true → w.whole) := by
    constructor
    · intro whole
      exact whole sta found
    · intro whole _ there
      cases Option.some.inj (found.symm.trans there)
      exact whole
  rw [same]
  unfold World.txHUnicastPsBuf StaInfo.buffers
  split
  · rename_i held
    rw [held]
    split
    · rename_i passes
      rw [passes]
      simp [balanced]
    · rename_i kept
      obtain ⟨_,found',alive'⟩ := makeRoom_station found alive
      simp only [found',Bool.not_eq_true] at kept ⊢
      have room := makeRoom_balanced balanced
      unfold Balanced at room ⊢
      rw [kept,queueUc_drift found' alive' skb]
      simpa using room
  · rename_i sent
    simp only [Bool.not_eq_true] at sent
    rw [sent]
    simp [balanced]

theorem multicast_balanced (balanced : Balanced w) :
    Balanced (w.txHMulticastPsBuf b skb).1 ↔ Event.Whole w (.txMulticast b skb) := by
  cases found : w.interfaces[b]? with
  | none =>
    simp [World.txHMulticastPsBuf,Event.Whole,found,balanced]
  | some ps =>
    have same : Event.Whole w (.txMulticast b skb) ↔ (w.buffersBc ps skb = true → w.whole) := by
      simp [Event.Whole,found]
    rw [same]
    by_cases buffers : w.buffersBc ps skb = true
    · obtain ⟨ps',found'⟩ := makeRoom_interface found
      have queued : (w.txHMulticastPsBuf b skb).1 = w.makeRoom.queueBc b ps' skb := by
        unfold World.buffersBc at buffers
        simp only [Bool.and_eq_true,Bool.not_eq_true',bne_iff_ne,ne_eq] at buffers
        obtain ⟨⟨⟨order,probe⟩,sleeping⟩,host⟩ := buffers
        simp [World.txHMulticastPsBuf,found,order,probe,sleeping,host,found']
      have room := makeRoom_balanced balanced
      unfold Balanced at room ⊢
      rw [queued,queueBc_drift found' skb]
      simpa [buffers] using room
    have passed : (w.txHMulticastPsBuf b skb).1 = w := by
      unfold World.txHMulticastPsBuf
      split
      · rfl
      split
      · rfl
      split
      · rfl
      split
      · rfl
      simp_all [World.buffersBc]
    rw [passed]
    simp [buffers,balanced]

section
variable (found : w.stations[i]? = some sta) (alive : sta.alive = true)
include found alive

theorem response_drift : (w.staPsDeliverResponse i sta nFrames ignoredAcs pspoll).drift = w.drift := by
  have books := releaseAcs_books (sta.driverBufferedTids ||| sta.txqBufferedTids) ignoredAcs pspoll Ac.all
    ⟨nFrames,0,[],sta.txFiltered,sta.psTxBuf,0,false⟩
  refine buf_drift _ found alive rfl rfl (held_alive alive) ?_
  unfold Release.books at books
  unfold World.staPsDeliverResponse
  dsimp only at books ⊢
  omega

theorem poll_drift : (w.staPsDeliverPollResponse i sta).drift = w.drift := response_drift found alive

theorem uapsd_drift : (w.staPsDeliverUapsd i sta).drift = w.drift := by
  unfold World.staPsDeliverUapsd
  split
  · rfl
  · exact response_drift found alive

theorem rxPoll_drift (fc : UInt16) (ac : Ac) : (w.rxHUapsdAndPspoll i sta fc ac).drift = w.drift := by
  unfold World.rxHUapsdAndPspoll
  split
  · rfl
  split
  · rfl
  split
  · rfl
  split
  · split
    · rfl
    split
    · exact response_drift found alive
    · exact same_drift found rfl rfl rfl rfl
  split
  · split
    · rfl
    split
    · rfl
    split
    · exact uapsd_drift found alive
    · exact same_drift found rfl rfl rfl rfl
  · rfl

theorem wakeup_drift : (w.staPsDeliverWakeup i sta).drift = w.drift := by
  unfold World.staPsDeliverWakeup
  split
  · rfl
  · rename_i b place
    refine buf_drift sta.delivered found alive ?_ ?_ (held_alive alive) ?_
    · exact stations_addNumStaPs (w.setSta i sta.delivered) b (-1)
    · exact heldBc_addNumStaPs (w.setSta i sta.delivered) b (-1)
    · simp [StaInfo.delivered]

end

theorem drift_addNumStaPs (w : World) (b : Nat) (change : Int) : (w.addNumStaPs b change).drift = w.drift := by
  unfold World.drift
  rw [total_addNumStaPs,heldBc_addNumStaPs]
  unfold World.heldUc
  rw [stations_addNumStaPs]

section
variable (found : w.stations[i]? = some sta)
include found

theorem turn_drift (b : Nat) (change : Int) (held : sta'.held = sta.held) :
    ((w.addNumStaPs b change).setSta i sta').drift = w.drift := by
  have there : (w.addNumStaPs b change).stations[i]? = some sta := by
    rw [stations_addNumStaPs]
    exact found
  rw [← drift_addNumStaPs w b change]
  exact same_drift there rfl rfl rfl held

theorem start_drift (txq : Option UInt16) : (w.staPsStart i sta txq).drift = w.drift := by
  unfold World.staPsStart
  split
  · exact turn_drift found _ _ rfl
  · rfl

section
variable (alive : sta.alive = true)
include alive

theorem end_drift : (w.staPsEnd i sta).drift = w.drift := by
  unfold World.staPsEnd
  split
  · exact same_drift found rfl rfl rfl rfl
  · have woken := wakeup_drift (found_setSta found {sta with psDeliver := true,psSta := false}) alive
    exact woken.trans (same_drift found rfl rfl rfl rfl)

theorem work_drift : (w.staDeliverPsFrames i sta).drift = w.drift := by
  unfold World.staDeliverPsFrames
  split
  · rfl
  split
  · exact wakeup_drift found alive
  split
  · have answered := poll_drift (found_setSta found {sta with pspoll := false}) alive
    exact answered.trans (same_drift found rfl rfl rfl rfl)
  split
  · have answered := uapsd_drift (found_setSta found {sta with uapsd := false}) alive
    exact answered.trans (same_drift found rfl rfl rfl rfl)
  · rfl

theorem mpsStatus_drift (doBuffer : Bool) : (w.mpsStaStatusUpdate i sta doBuffer).drift = w.drift := by
  unfold World.mpsStaStatusUpdate
  split
  · exact same_drift found rfl rfl rfl rfl
  split
  · exact turn_drift found _ _ rfl
  · exact wakeup_drift found alive

theorem mpsDeliver_drift (nFrames : Option Nat) : (w.mpsFrameDeliver i sta nFrames).drift = w.drift := by
  have books := mpsRelease_books nFrames Ac.all ⟨nFrames.getD 0,0,[],sta.txFiltered,sta.psTxBuf,0,false⟩
  refine buf_drift _ found alive rfl rfl (held_alive alive) ?_
  unfold Release.books at books
  unfold World.mpsFrameDeliver
  dsimp only at books ⊢
  omega

end

end

theorem bufferedBc_drift (found : w.interfaces[b]? = some ps) (drops : Skb → Bool) :
    (w.getBufferedBc b ps drops).1.drift = w.drift := by
  have counts := bcLoop_counts drops ps.bcBuf
  unfold World.getBufferedBc
  split
  · rfl
  split
  · rfl
  split
  · rfl
  · refine ps_drift _ found rfl rfl ?_
    generalize bcLoop drops ps.bcBuf = out at counts ⊢
    obtain ⟨_,_,_⟩ := out
    dsimp only at counts ⊢
    omega

theorem expire_drift (found : w.stations[i]? = some sta) (alive : sta.alive = true) :
    (w.cleanupExpireBuffered i sta).drift = w.drift := by
  unfold World.cleanupExpireBuffered
  split
  · rfl
  · have shorter := expire_le (bufferExpired w.hz w.jiffies sta) sta.psTxBuf
    refine buf_drift _ found alive rfl rfl (held_alive alive) ?_
    dsimp only
    omega

theorem addSta_drift : ({w with stations := w.stations ++ [newSta type b uapsdQueues maxSp listenInterval beaconInt]} : World).drift =
    w.drift := by
  simp [World.drift,World.heldUc,World.heldBc,StaInfo.held,newSta]

theorem destroy_balanced (found : w.stations[i]? = some sta) (alive : sta.alive = true) (balanced : Balanced w) :
    Balanced (w.cleanupSingleSta i {sta with dead := true}) ↔ Event.Whole w (.destroy i) := by
  have same : Event.Whole w (.destroy i) ↔ (sta.blocked = true → sta.type = .other → sta.psTxBuf.len = 0) := by
    constructor
    · intro whole
      exact whole sta found
    · intro whole other there
      cases Option.some.inj (found.symm.trans there)
      exact whole
  have held : ({sta with dead := true} : StaInfo).blocked = sta.blocked := rfl
  rw [same]
  unfold World.cleanupSingleSta
  rw [held]
  split
  · rename_i kept
    simp only [Bool.and_eq_true,beq_iff_eq] at kept
    have heldUc : (w.setSta i {sta with dead := true,phase := .freed}).heldUc = w.heldUc - sta.held + 0 :=
      total_set found _
    have change : (w.setSta i {sta with dead := true,phase := .freed}).drift = w.drift + sta.psTxBuf.len := by
      rw [← held_alive alive]
      unfold World.drift
      rw [heldUc]
      show w.totalPsBuffered - (w.heldUc - sta.held + 0 + w.heldBc) = _
      omega
    unfold Balanced at balanced ⊢
    rw [change,balanced]
    simp [kept]
  rename_i gone
  have freed : ¬(sta.blocked = true ∧ sta.type = .other) := by
    simpa using gone
  have kept : ∀ w' : World, w'.stations = w.stations → w'.drift = w.drift → ({w'.setSta i ({sta with dead := true} : StaInfo).cleaned with
      totalPsBuffered := w'.totalPsBuffered - sta.psTxBuf.len} : World).drift = w.drift := by
    intro w' stations counted
    rw [← counted]
    rw [← stations] at found
    exact buf_drift _ found alive rfl rfl rfl (by simp [StaInfo.cleaned])
  have balances : ∀ w' : World, w'.drift = w.drift → (Balanced w' ↔
      (sta.blocked = true → sta.type = .other → sta.psTxBuf.len = 0)) := by
    intro _ counted
    unfold Balanced at balanced ⊢
    rw [counted]
    exact ⟨fun _ blocked other => absurd ⟨blocked,other⟩ freed,fun _ => balanced⟩
  split
  · exact balances _ (kept _ (stations_addNumStaPs w sta.ps (-1)) (drift_addNumStaPs w sta.ps (-1)))
  · exact balances _ (kept w rfl rfl)

end steps

section runs

theorem Balanced.kept {e : Event} (balanced : Balanced w) (drift : w'.drift = w.drift) (whole : e.Whole w) : Balanced w' ↔ e.Whole w :=
  ⟨fun _ => whole,fun _ => drift.trans balanced⟩

theorem step_balanced (ran : step e w = some w') (balanced : Balanced w) : Balanced w' ↔ e.Whole w := by
  cases e with
  | txUnicast =>
    obtain ⟨sta,found,alive,rfl⟩ := onSta_inv ran
    exact unicast_balanced found alive balanced
  | txMulticast =>
    cases ran
    exact multicast_balanced balanced
  | filtered =>
    obtain ⟨sta,found,alive,rfl⟩ := onSta_inv ran
    refine balanced.kept ?_ trivial
    unfold World.handleFilteredFrame
    dsimp only
    split
    · exact same_drift found rfl rfl rfl rfl
    · rfl
  | rxSta i fc txq =>
    obtain ⟨sta,found,alive,rfl⟩ := onSta_inv ran
    refine balanced.kept ?_ trivial
    unfold World.rxHStaProcess
    split
    · split
      · split
        · exact end_drift found alive
        · rfl
      · split
        · exact start_drift found txq
        · rfl
    · rfl
  | rxPoll i fc ac =>
    obtain ⟨sta,found,alive,rfl⟩ := onSta_inv ran
    exact balanced.kept (rxPoll_drift found alive fc ac) trivial
  | transition i begins txq =>
    obtain ⟨sta,found,test,rfl⟩ := onSta_inv ran
    simp only [Bool.and_eq_true] at test
    refine balanced.kept ?_ trivial
    unfold World.staPsTransition
    split
    · rfl
    split
    · exact start_drift found txq
    · exact end_drift found test.1.1
  | blockAwake =>
    obtain ⟨sta,found,alive,rfl⟩ := onSta_inv ran
    refine balanced.kept (same_drift found rfl rfl rfl ?_) trivial
    unfold StaInfo.blockAwake
    repeat' split
    all_goals rfl
  | work i =>
    obtain ⟨sta,found,test,rfl⟩ := onSta_inv ran
    simp only [Bool.and_eq_true] at test
    have taken : (w.setSta i {sta with deliverWk := false}).drift = w.drift := same_drift found rfl rfl rfl rfl
    have ran := work_drift (found_setSta found {sta with deliverWk := false}) test.1
    exact balanced.kept (ran.trans taken) trivial
  | eosp i =>
    obtain ⟨sta,found,alive,rfl⟩ := onSta_inv ran
    have same : (w.setSta i {sta with sp := false}).drift = w.drift := same_drift found rfl rfl rfl rfl
    exact balanced.kept same trivial
  | setBuffered =>
    obtain ⟨sta,found,alive,rfl⟩ := onSta_inv ran
    exact balanced.kept (same_drift found rfl rfl rfl rfl) trivial
  | mpsStatus i doBuffer =>
    obtain ⟨sta,found,test,rfl⟩ := onSta_inv ran
    simp only [Bool.and_eq_true] at test
    exact balanced.kept (mpsStatus_drift found test.1 doBuffer) trivial
  | mpsDeliver i nFrames =>
    obtain ⟨sta,found,test,rfl⟩ := onSta_inv ran
    simp only [Bool.and_eq_true] at test
    exact balanced.kept (mpsDeliver_drift found test.1 nFrames) trivial
  | bufferedBc b drops =>
    obtain ⟨ps,found,rfl⟩ := onPs_inv ran
    exact balanced.kept (bufferedBc_drift found drops) trivial
  | expire =>
    obtain ⟨sta,found,test,rfl⟩ := onSta_inv ran
    have listed : sta.phase = .listed := by simpa using test
    exact balanced.kept (expire_drift found (by simp [StaInfo.alive,listed])) trivial
  | addSta =>
    simp only [step] at ran
    split at ran
    · cases ran
      exact balanced.kept addSta_drift trivial
    · cases ran
  | unlink =>
    obtain ⟨sta,found,test,rfl⟩ := onSta_inv ran
    have listed : sta.phase = .listed := by simpa using test
    refine balanced.kept (same_drift found rfl rfl rfl ?_) trivial
    simp [StaInfo.held,StaInfo.alive,listed]
  | staExpire =>
    obtain ⟨sta,found,test,rfl⟩ := onSta_inv ran
    have listed : sta.phase = .listed := by simpa using test
    have held : ({sta with phase := .unlinked} : StaInfo).held = sta.held := by simp [StaInfo.held,StaInfo.alive,listed]
    refine balanced.kept ?_ trivial
    unfold World.staExpire
    split
    · exact turn_drift found _ _ held
    · exact same_drift found rfl rfl rfl held
  | destroy =>
    obtain ⟨sta,found,test,rfl⟩ := onSta_inv ran
    have unlinked : sta.phase = .unlinked := by simpa using test
    exact destroy_balanced found (by simp [StaInfo.alive,unlinked]) balanced
  | stop =>
    obtain ⟨ps,found,rfl⟩ := onPs_inv ran
    exact balanced.kept (ps_drift {ps with bcBuf := []} found rfl rfl (by simp)) trivial
  | stopVlan b dev =>
    obtain ⟨ps,found,rfl⟩ := onPs_inv ran
    refine balanced.kept (ps_drift _ found rfl rfl ?_) trivial
    have parts := List.length_eq_countP_add_countP (fun skb : Skb => skb.dev == dev) (l := ps.bcBuf)
    have left : (ps.bcBuf.filter fun skb => skb.dev != dev).length = ps.bcBuf.countP fun skb => ¬(skb.dev == dev) = true := by
      rw [← List.countP_eq_length_filter]
      congr 1
      funext skb
      by_cases same : skb.dev = dev <;> simp [same]
    dsimp only
    omega
  | beacon =>
    obtain ⟨_,found,rfl⟩ := onPs_inv ran
    refine balanced.kept (ps_drift _ found rfl rfl ?_) trivial
    exact (Int.sub_add_cancel _ _).symm
  | tick =>
    cases ran
    exact balanced.kept rfl trivial

def World.buffered (w : World) : Nat :=
  (w.stations.map StaInfo.held).sum + (w.interfaces.map fun ps => ps.bcBuf.length).sum

theorem balanced_iff (w : World) : Balanced w ↔ w.totalPsBuffered = w.buffered := by
  have frames : (w.buffered : Int) = w.heldUc + w.heldBc := by
    unfold World.buffered World.heldUc World.heldBc
    rw [total_natCast,total_natCast]
    rfl
  unfold Balanced World.drift
  omega

inductive WholeRun (start : World) : World → Prop where
  | refl : WholeRun start start
  | step (prior : WholeRun start before) (whole : Event.Whole before e) (ran : step e before = some after) : WholeRun start after

theorem initial_balanced (initial : start.Initial) : Balanced start := by
  obtain ⟨empty,none,bc⟩ := initial
  rw [balanced_iff,none]
  unfold World.buffered
  have zero : (start.interfaces.map fun ps => ps.bcBuf.length).sum = 0 := by
    rw [List.sum_eq_zero]
    intro n member
    obtain ⟨ps,among,rfl⟩ := List.mem_map.mp member
    rw [(bc ps among).1]
    rfl
  rw [empty,zero]
  rfl

theorem whole_balanced (whole : WholeRun start w) (initial : start.Initial) : Balanced w := by
  induction whole with
  | refl => exact initial_balanced initial
  | step prior whole ran ih => exact (step_balanced ran ih).mpr whole

theorem total_ps_buffered_counts (initial : start.Initial) (whole : WholeRun start w) :
    w.totalPsBuffered = w.buffered ∧ ∀ e w', step e w = some w' → (w'.totalPsBuffered = w'.buffered ↔ e.Whole w) := by
  have balanced := whole_balanced whole initial
  refine ⟨(balanced_iff w).mp balanced,?_⟩
  intro e _ ran
  rw [← balanced_iff]
  exact step_balanced ran balanced

def sampleData (ac : Ac) : Skb := ⟨0,0x0208,ac,64,0,false⟩

theorem total_ps_buffered_sample : (sampleAfter [sampleJoins,sampleSleeps,.txUnicast 0 (sampleData .be)]).totalPsBuffered = 1 ∧
    (sampleAfter [sampleJoins,sampleSleeps,.txUnicast 0 (sampleData .be)]).totalPsBuffered =
      (sampleAfter [sampleJoins,sampleSleeps,.txUnicast 0 (sampleData .be)]).buffered ∧
    ∀ e w', step e (sampleAfter [sampleJoins,sampleSleeps,.txUnicast 0 (sampleData .be)]) = some w' →
      (w'.totalPsBuffered = w'.buffered ↔
        e.Whole (sampleAfter [sampleJoins,sampleSleeps,.txUnicast 0 (sampleData .be)])) := by
  have joins : step sampleJoins sampleBss = some (sampleAfter [sampleJoins]) := by decide
  have sleeps : step sampleSleeps (sampleAfter [sampleJoins]) = some (sampleAfter [sampleJoins,sampleSleeps]) := by decide
  have sends : step (.txUnicast 0 (sampleData .be)) (sampleAfter [sampleJoins,sampleSleeps]) =
      some (sampleAfter [sampleJoins,sampleSleeps,.txUnicast 0 (sampleData .be)]) := by decide
  have free : Event.Whole (sampleAfter [sampleJoins,sampleSleeps]) (.txUnicast 0 (sampleData .be)) := by
    intro _ _ _ full
    exact absurd full (by decide)
  have start : WholeRun sampleBss sampleBss := .refl
  exact ⟨by decide,total_ps_buffered_counts sample_initial
    (((start.step (e := sampleJoins) trivial joins).step (e := sampleSleeps) trivial sleeps).step free sends)⟩

def sampleFull : List Event :=
  [sampleJoins,sampleJoins,sampleSleeps,.rxSta 1 0x1148 none] ++
    ([0,1].flatMap fun i => Ac.all.flatMap fun ac => List.replicate 64 (.txUnicast i (sampleData ac)))

theorem total_ps_buffered_drifts :
    ∃ w, Reach sampleBss w ∧ w.totalPsBuffered = 127 ∧ w.buffered = 511 := by
  have lost : (run (sampleFull ++ [.txUnicast 0 (sampleData .bk)]) sampleBss).any
      (fun w => w.totalPsBuffered == 127 && w.buffered == 511) = true := by decide +kernel
  obtain ⟨w,ran,found⟩ := (Option.any_eq_true _ _).mp lost
  exact ⟨w,Transitions.run_reach .step .refl ran,by simpa using found⟩

end runs

end Mac80211.PowerSave

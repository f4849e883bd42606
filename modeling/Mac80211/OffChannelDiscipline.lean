import Mac80211.OffChannelScans

namespace Mac80211.OffChannel
open Scan (Channel notScanning)
open List (mem_append mem_map mem_singleton map_cons mem_cons nil_append getElem_mem cons_append)

section periods

theorem Mode.relist (mode : Mode cfg base l) (asked : Nat) (near : (∀ roc ∈ l.rocList, ¬Off roc) → ∀ roc ∈ list, ¬Off roc)
    (waiting : l.scanning ≠ notScanning → Waiting l.rocList → Waiting list)
    (first : (∃ roc rest, l.rocList = roc :: rest ∧ Off roc) → ∃ roc rest, list = roc :: rest ∧ Off roc) :
    Mode cfg base {l with rocList := list,asked := asked} := by
  cases mode with
  | resting idle off scan home none => exact .resting idle off scan ⟨home.vifs,home.woken⟩ (near none)
  | onchannel busy req off scan home wait =>
    have wait := waiting (by rw [busy]; decide) wait
    exact .onchannel busy req off scan ⟨home.vifs,home.woken⟩ wait
  | scanning busy req off state away wait =>
    have wait := waiting (by rw [busy]; decide) wait
    exact .scanning busy req off state ⟨away.vifs,away.stopped⟩ wait
  | suspended busy req off scan state home wait =>
    have wait := waiting (by rw [busy]; decide) wait
    exact .suspended busy req off scan state ⟨home.vifs,home.woken⟩ wait
  | period idle scan tuned away one => exact .period idle scan tuned ⟨away.vifs,away.stopped⟩ (first one)

theorem checkCombine_durations (taken : checkCombine roc timer list = some out) :
    List.Forall₂ (fun old new => ∃ more, new = {old with duration := max old.duration more}) list out := by
  induction list generalizing out with
  | nil => cases taken
  | cons tmp rest ih =>
    have same : ∀ r : Roc, ∃ more, r = {r with duration := max r.duration more} := fun r => ⟨0,by simp⟩
    have all : List.Forall₂ (fun old new => ∃ more, new = {old with duration := max old.duration more}) rest rest :=
      List.forall₂_same.mpr fun r _ => same r
    unfold checkCombine at taken
    split_ifs at taken with other started
    · obtain ⟨_,later,rfl⟩ := Option.map_eq_some_iff.mp taken
      exact .cons (same tmp) (ih later)
    · cases taken
      exact .cons ⟨roc.duration,rfl⟩ all
    · cases taken
      exact .cons (same tmp) all

theorem combined_sound (sound : Sound cfg base l) (asked : Nat) (taken : checkCombine roc timer l.rocList = some list) :
    Sound cfg base {l with rocList := list,asked := asked} := by
  have longer := checkCombine_durations taken
  have from_old : ∀ r ∈ list, ∃ old ∈ l.rocList, ∃ more, r = {old with duration := max old.duration more} := by
    intro r member
    obtain ⟨i,inside,rfl⟩ := List.getElem_of_mem member
    have inside' : i < l.rocList.length := longer.length_eq ▸ inside
    exact ⟨l.rocList[i],getElem_mem inside',longer.get inside' inside⟩
  refine ⟨sound.mode.relist asked ?_ ?_ ?_,?_,?_⟩
  · intro near r member
    obtain ⟨old,known,more,rfl⟩ := from_old r member
    exact near old known
  · intro _ waiting r member
    obtain ⟨old,known,more,rfl⟩ := from_old r member
    exact waiting old known
  · rintro ⟨old,rest,split,off⟩
    rw [split] at longer
    cases longer with
    | cons step _ =>
      obtain ⟨more,rfl⟩ := step
      exact ⟨_,_,rfl,off⟩
  · intro r member
    obtain ⟨old,known,more,rfl⟩ := from_old r member
    have some := sound.rocs.durations old known
    show max old.duration more ≠ 0
    omega
  have tail := sound.rocs.tail
  generalize l.rocList = old at longer tail
  cases longer with
  | nil => exact nofun
  | @cons _ _ rest out _ later =>
    intro r member
    obtain ⟨i,inside,rfl⟩ := List.getElem_of_mem member
    have inside' : i < rest.length := later.length_eq ▸ inside
    obtain ⟨_,same⟩ := later.get inside' inside
    have unstarted := tail _ (getElem_mem inside')
    exact (congrArg Roc.started same).trans unstarted

theorem startRocWork_sound (sdata : Nat) (chan : Channel) (duration : Nat) (radarRequired timer : Bool) (sound : Sound cfg base l) :
    Sound cfg base (startRocWork sdata chan duration radarRequired timer l) := by
  unfold startRocWork
  dsimp only
  have lasting : (if duration = 0 then 10 else duration) ≠ 0 := by split_ifs <;> omega
  generalize (if duration = 0 then 10 else duration) = time at lasting
  -- A new period at the end of the list has not started.
  have behind (roc : Roc) (long : roc.duration ≠ 0) (new : roc.started = false) (free : roc.pending = true → l.rocList = []) (idle :
      roc.pending = true → l.scanning = notScanning) : Sound cfg base {l with
        rocList := l.rocList ++ [roc]
        asked := l.asked + 1} := by
    refine ⟨sound.mode.relist (l.asked + 1) ?_ ?_ ?_,?_,?_⟩
    · intro near r member
      obtain old | last := mem_append.mp member
      · exact near r old
      · rw [mem_singleton.mp last]
        exact fun off => Bool.false_ne_true (new.symm.trans off.1)
    · intro busy waiting r member
      obtain old | last := mem_append.mp member
      · exact waiting r old
      · rw [mem_singleton.mp last]
        exact ⟨new,fun pending => absurd (idle pending) busy⟩
    · rintro ⟨old,rest,split,off⟩
      exact ⟨old,rest ++ [roc],by rw [split,cons_append],off⟩
    · intro r member
      obtain old | last := mem_append.mp member
      · exact sound.rocs.durations r old
      · rw [mem_singleton.mp last]
        exact long
    intro r member
    cases split : l.rocList with
    | nil =>
      rw [split] at member
      cases member
    | cons old =>
      rw [split,cons_append,List.tail_cons] at member
      obtain old | last := mem_append.mp member
      · exact sound.rocs.tail r (by rw [split]; exact old)
      · rw [mem_singleton.mp last]
        exact new
  split_ifs with queued
  · split
    · rename_i list taken
      exact combined_sound sound (l.asked + 1) taken
    · exact behind _ lasting rfl nofun nofun
  · have alone : l.rocList = [] ∧ l.scanning = notScanning := by
      simp only [Bool.or_eq_true,Bool.not_eq_true',bne_iff_ne,not_or,Bool.not_eq_false,List.isEmpty_iff,ne_eq,Decidable.not_not] at queued
      exact queued.1
    exact behind _ lasting rfl (fun _ => alone.1) (fun _ => alone.2)

theorem cancelRoc_sound (id : Nat) (sound : Sound cfg base l) : Sound cfg base (cancelRoc id l) := by
  have same (r : Roc) : ∃ abort pending, (if r.id = id then {r with
      abort := true
      pending := true} else r) = {r with
        abort := abort
        pending := pending} ∧ ((pending = true → abort = true) ∨ abort = r.abort ∧ pending = r.pending) := by
    split_ifs
    · exact ⟨true,true,rfl,.inl fun _ => rfl⟩
    · exact ⟨r.abort,r.pending,rfl,.inr ⟨rfl,rfl⟩⟩
  unfold cancelRoc
  refine ⟨sound.mode.relist l.asked ?_ ?_ ?_,?_,?_⟩
  · intro near r member
    obtain ⟨old,known,rfl⟩ := mem_map.mp member
    obtain ⟨abort,pending,new,-⟩ := same old
    rw [new]
    exact near old known
  · intro _ waiting r member
    obtain ⟨old,known,rfl⟩ := mem_map.mp member
    obtain ⟨abort,pending,new,aborted⟩ := same old
    rw [new]
    refine ⟨(waiting old known).1,?_⟩
    obtain fine | ⟨rfl,rfl⟩ := aborted
    · exact fine
    · exact (waiting old known).2
  · rintro ⟨old,_,split,off⟩
    obtain ⟨abort,pending,new,-⟩ := same old
    refine ⟨_,_,by rw [split,map_cons],?_⟩
    rw [new]
    exact off
  · intro r member
    obtain ⟨old,known,rfl⟩ := mem_map.mp member
    obtain ⟨_,_,new,-⟩ := same old
    rw [new]
    exact sound.rocs.durations old known
  · intro r member
    rw [← List.map_tail] at member
    obtain ⟨old,known,rfl⟩ := mem_map.mp member
    obtain ⟨_,_,new,-⟩ := same old
    rw [new]
    exact sound.rocs.tail old known

theorem take_splits {id : Nat} (taken : take id list = some (before,roc,after)) :
    ∃ old, list = before ++ old :: after ∧ roc = {old with pending := false} ∧ old.pending = true := by
  induction list generalizing before with
  | nil => cases taken
  | cons head rest ih =>
    unfold take at taken
    split_ifs at taken with found
    · cases taken
      exact ⟨head,rfl,rfl,found.2⟩
    · obtain ⟨⟨_,_,_⟩,later,same⟩ := Option.map_eq_some_iff.mp taken
      cases same
      obtain ⟨old,split,fresh,was⟩ := ih later
      exact ⟨old,by rw [split]; rfl,fresh,was⟩

theorem finished_sound (sound : Sound cfg base l) (split : l.rocList = roc :: after) (started : roc.started = true) :
    Sound cfg base (finishRoc cfg {roc with pending := false} {l with rocList := after}) := by
  have fresh : ∀ r ∈ after, r.started = false := by
    have tail := sound.rocs.tail
    rw [split] at tail
    exact tail
  have near : ∀ r ∈ after, ¬Off r := fun r member off => Bool.false_ne_true ((fresh r member).symm.trans off.1)
  have rocs : Rocs after := by
    have all := sound.rocs
    rw [split] at all
    exact all.rest
  have awake (waiting : Waiting l.rocList) : False := by
    rw [split] at waiting
    exact Bool.false_ne_true ((waiting roc List.mem_cons_self).1.symm.trans started)
  unfold finishRoc
  rw [started,if_pos rfl,Bool.true_and]
  cases sound.mode with
  | onchannel _ _ _ _ _ waiting | scanning _ _ _ _ _ waiting | suspended _ _ _ _ _ _ waiting => exact (awake waiting).elim
  | resting idle off scan home none =>
    rw [split] at none
    have on : roc.onChannel = true := by
      cases on : roc.onChannel with
      | true => rfl
      | false => exact absurd ⟨started,on⟩ (none roc List.mem_cons_self)
    rw [on,Bool.not_true,if_neg Bool.false_ne_true]
    exact startNext_resting (l := {l with rocList := after}) idle off scan ⟨home.vifs,home.woken⟩ near rocs
  | period idle scan tuned away first =>
    obtain ⟨_,_,list,-,on⟩ := first
    rw [split] at list
    cases list
    rw [on,Bool.not_false,if_pos rfl]
    have home := return_home (l := {l with rocList := after,tmpChannel := none}) ⟨away.vifs,away.stopped⟩
    exact startNext_resting (l := offchannelReturn cfg {l with
      rocList := after
      tmpChannel := none}) idle rfl scan home near rocs

theorem unstarted_sound (news : List Roc) (sound : Sound cfg base l) (split : l.rocList = before ++ roc :: after) (new : roc.started = false)
    (fresh : ∀ r ∈ news, r.started = false ∧ r.pending = false ∧ r.duration ≠ 0) : Sound cfg base {l with rocList := before ++ (news ++ after)} := by
  have kept : ∀ r ∈ before ++ (news ++ after), r ∈ l.rocList ∨ r ∈ news := by
    intro r member
    rw [split]
    obtain first | later := mem_append.mp member
    · exact .inl (List.mem_append_left _ first)
    · obtain added | last := mem_append.mp later
      · exact .inr added
      · exact .inl (List.mem_append_right _ (List.mem_cons_of_mem _ last))
  refine ⟨sound.mode.relist l.asked ?_ ?_ ?_,?_,?_⟩
  · intro near r member
    obtain old | added := kept r member
    · exact near r old
    · exact fun off => Bool.false_ne_true ((fresh r added).1.symm.trans off.1)
  · intro _ waiting r member
    obtain old | added := kept r member
    · exact waiting r old
    · refine ⟨(fresh r added).1,fun pending => ?_⟩
      exact absurd ((fresh r added).2.1.symm.trans pending) Bool.false_ne_true
  · rintro ⟨_,_,first,off⟩
    cases before with
    | nil =>
      rw [split,nil_append] at first
      cases first
      exact absurd (new.symm.trans off.1) Bool.false_ne_true
    | cons =>
      rw [split,cons_append] at first
      cases first
      exact ⟨_,_,rfl,off⟩
  · intro r member
    obtain old | added := kept r member
    · exact sound.rocs.durations r old
    · exact (fresh r added).2.2
  have tail := sound.rocs.tail
  rw [split] at tail
  intro r member
  cases before with
  | nil =>
    rw [nil_append] at member tail
    obtain added | last := mem_append.mp (List.mem_of_mem_tail member)
    · exact (fresh r added).1
    · exact tail r last
  | cons =>
    obtain first | later := mem_append.mp member
    · exact tail r (List.mem_append_left _ first)
    · obtain added | last := mem_append.mp later
      · exact (fresh r added).1
      · exact tail r (List.mem_append_right _ (List.mem_cons_of_mem _ last))

theorem begun_sound (onChannel : Bool) (sound : Sound cfg base l) (split : l.rocList = roc :: after) (new : roc.started = false)
    (pending : roc.pending = true) (going : roc.abort = false) :
    Sound cfg base (beginRoc cfg {roc with pending := false} onChannel after l) := by
  have inside : roc ∈ l.rocList := by
    rw [split]
    exact List.mem_cons_self
  have long : roc.duration ≠ 0 := sound.rocs.durations roc inside
  have tail := sound.rocs.tail
  have rocs := sound.rocs
  rw [split] at tail rocs
  have asleep (waiting : Waiting l.rocList) : False := by
    have abort := (waiting roc inside).2 pending
    exact Bool.false_ne_true (going.symm.trans abort)
  have rocs' (r : Roc) (long : r.duration ≠ 0) : Rocs (r :: after) := by
    refine ⟨?_,tail⟩
    intro r' member
    obtain rfl | old := mem_cons.mp member
    · exact long
    · exact rocs.rest.durations r' old
  cases sound.mode with
  | onchannel _ _ _ _ _ waiting | scanning _ _ _ _ _ waiting | suspended _ _ _ _ _ _ waiting => exact (asleep waiting).elim
  | period _ _ _ _ first =>
    obtain ⟨_,_,list,off⟩ := first
    rw [split] at list
    cases list
    exact absurd (new.symm.trans off.1) Bool.false_ne_true
  | resting idle off scan home =>
    unfold beginRoc
    rw [if_neg long]
    cases onChannel with
    | true =>
      refine ⟨.resting idle off scan ⟨home.vifs,home.woken⟩ ?_,rocs' _ long⟩
      intro r member
      obtain rfl | old := mem_cons.mp member
      · exact fun off => absurd off.2.symm Bool.false_ne_true
      · exact fun off => Bool.false_ne_true ((tail r old).symm.trans off.1)
    | false =>
      have away := leave_away home
      exact ⟨.period idle scan rfl ⟨away.vifs,away.stopped⟩ ⟨_,_,rfl,rfl,rfl⟩,rocs' _ long⟩

theorem swRocWork_sound (id : Nat) (operChan : Option Channel) (narrow : Bool) (sound : Sound cfg base l) :
    Sound cfg base (swRocWork cfg id operChan narrow l) := by
  unfold swRocWork
  cases taken : take id l.rocList with
  | none => exact sound
  | some out =>
    obtain ⟨before,_,_⟩ := out
    obtain ⟨old,split,rfl,pending⟩ := take_splits taken
    have first (started : old.started = true) : before = [] := by
      cases before with
      | nil => rfl
      | cons =>
        have new := sound.rocs.tail old (by simp [split])
        exact absurd (new.symm.trans started) Bool.false_ne_true
    dsimp only
    by_cases aborted : old.abort = true
    · rw [if_pos aborted]
      by_cases started : old.started = true
      · rw [first started,nil_append] at split ⊢
        exact finished_sound sound split started
      · have new := Bool.not_eq_true _ ▸ started
        unfold finishRoc
        rw [new,Bool.false_and,if_neg Bool.false_ne_true,if_neg Bool.false_ne_true]
        exact unstarted_sound [] sound split new nofun
    rw [if_neg aborted]
    cases before with
    | cons =>
      have new := sound.rocs.tail old (by simp [split])
      have long := sound.rocs.durations old (by simp [split])
      refine unstarted_sound [{old with pending := false}] sound split new ?_
      intro r member
      rw [mem_singleton.mp member]
      exact ⟨new,rfl,long⟩
    | nil =>
      rw [if_neg (by decide)]
      by_cases started : old.started = true
      · rw [if_neg (by simp [started])]
        exact finished_sound sound split started
      · have new := Bool.not_eq_true _ ▸ started
        rw [if_pos (by simp [new])]
        exact begun_sound _ sound split new pending (Bool.not_eq_true _ ▸ aborted)

end periods

open Scan (Channel Request notScanning)
open Transitions (Run)

-- A P2P device never beacons.
structure Start (cfg : Queues.Config) (l : Local) : Prop where
  saved : ∀ v ∈ l.vifs, v.beaconStopped = false
  p2p : ∀ v ∈ l.vifs, v.type = .p2pDevice → v.enableBeacon = false
  woken : ∀ q < cfg.hwQueues, l.queues.queueStopReasons q .offchannel = false
  idle : l.scanReq = none ∧ l.scanning = notScanning ∧ l.scanChan = none
  off : l.tmpChannel = none ∧ l.rocList = []

def Tuned (l : Local) : Prop := (l.scanChan.isSome = true ∧ l.scanning.onchannelScanning = false) ∨ l.tmpChannel.isSome = true

def Busy (l : Local) : Prop := l.scanning.swScanning = true ∨ ∃ roc ∈ l.rocList, Off roc

structure Disciplined (cfg : Queues.Config) (base : List Vif) (l : Local) : Prop where
  silent : Tuned l → (∀ q < cfg.hwQueues, l.queues.queueStopReasons q .offchannel = true) ∧
    ∀ v ∈ l.vifs, v.running = true → v.enableBeacon = false
  back : ¬Busy l → (∀ q < cfg.hwQueues, l.queues.queueStopReasons q .offchannel = false) ∧
    l.vifs.map Vif.enableBeacon = base.map Vif.enableBeacon

section runs

theorem away_silent (p2p : ∀ v ∈ base, v.type = .p2pDevice → v.enableBeacon = false) (away : Away cfg base l) :
    ∀ v ∈ l.vifs, v.running = true → v.enableBeacon = false := by
  intro v member up
  obtain ⟨i,inside,rfl⟩ := List.getElem_of_mem member
  have inside' : i < base.length := away.vifs.length_eq ▸ inside
  have gone := away.vifs.get inside' inside
  by_cases device : (base[i]).type = .p2pDevice
  · exact (gone.other (.inr device)).1.trans (p2p _ (getElem_mem inside') device)
  · exact (gone.silent (gone.same.2.symm.trans up) device).1

theorem home_beacons (home : Home cfg base l) : l.vifs.map Vif.enableBeacon = base.map Vif.enableBeacon := by
  have same := home.vifs
  clear home
  generalize l.vifs = vifs at same
  induction same with
  | nil => rfl
  | cons one _ ih => rw [map_cons,map_cons,one.beacon,ih]

theorem sound_disciplined (p2p : ∀ v ∈ base, v.type = .p2pDevice → v.enableBeacon = false) (sound : Sound cfg base l) :
    Disciplined cfg base l := by
  have back (home : Home cfg base l) := And.intro home.woken (home_beacons home)
  have silent (away : Away cfg base l) := And.intro away.stopped (away_silent p2p away)
  have untuned (off : l.tmpChannel = none) (scan : l.scanChan = none) : ¬Tuned l := by
    rintro (⟨set,-⟩ | set)
    · rw [scan] at set
      cases set
    · rw [off] at set
      cases set
  cases sound.mode with
  | resting _ off scan home | onchannel _ _ off scan home | suspended _ _ off scan _ home =>
    exact ⟨fun tuned => absurd tuned (untuned off scan),fun _ => back home⟩
  | scanning busy _ _ _ away =>
    refine ⟨fun _ => silent away,fun free => absurd (.inl ?_) free⟩
    rw [busy]
    rfl
  | period _ _ _ away first =>
    obtain ⟨roc,rest,list,off⟩ := first
    refine ⟨fun _ => silent away,fun free => absurd (.inr ⟨roc,?_,off⟩) free⟩
    rw [list]
    exact List.mem_cons_self

theorem start_sound (start : Start cfg l0) : Sound cfg l0.vifs l0 := by
  obtain ⟨saved,-,woken,⟨-,idle,scan⟩,off,empty⟩ := start
  have vifs : List.Forall₂ AtHome l0.vifs l0.vifs := List.forall₂_same.mpr fun v member => ⟨⟨rfl,rfl⟩,rfl,saved v member⟩
  refine ⟨.resting idle off scan ⟨vifs,woken⟩ ?_,?_⟩
  · rw [empty]
    exact nofun
  · rw [empty]
    exact rocs_nil

theorem step_sound (e : Event) (sound : Sound cfg base l) (fine : neat l e = true) : Sound cfg base (step cfg l e) := by
  cases e with
  | scan sdata req a => exact startScan_sound sdata req a sound
  | scanWork a => exact scanWork_sound a sound fine
  | scanCancel =>
    refine scanCompleted_sound sound ?_
    simpa [neat,or_assoc] using fine
  | roc sdata chan duration radarRequired timer => exact startRocWork_sound sdata chan duration radarRequired timer sound
  | rocWork id operChan narrow => exact swRocWork_sound id operChan narrow sound
  | rocCancel id => exact cancelRoc_sound id sound

end runs

def oneQueue : Queues.Config where
  hwQueues := 1
  queueControl := false
  wakeTxQueue := false
  txqAcMaxPending := 64
  interfaces := []
  vifType _ := .other
  hasDev _ := false
  hwQueue _ _ := 0
  cabQueue _ := none
  monitorSdata := none
  staTxq _ _ := none
  vifTxq _ := none
  txqVif _ := 0
  txqAc _ := 0

def channel1 : Channel := ⟨1,.band2GHz,false,false⟩
def channel6 : Channel := ⟨6,.band2GHz,false,false⟩
def channel11 : Channel := ⟨11,.band2GHz,false,false⟩

def accessPoint : Vif := ⟨.ap,true,true,false,false⟩

def serving : Local where
  vifs := [accessPoint]
  queues := Queues.idle
  scanReq := none
  scanSdata := none
  scanning := notScanning
  scanChan := none
  nextScanState := .decision
  scanChannelIdx := 0
  rocList := []
  tmpChannel := none
  asked := 0

theorem serving_start : Start oneQueue serving where
  saved := by decide
  p2p := by decide
  woken _ _ := rfl
  idle := ⟨rfl,rfl,rfl⟩
  off := ⟨rfl,rfl⟩

def oneChannel : Request := ⟨some 0,[channel11],1,false,by decide⟩

def busyRadio : List Event :=
  [.roc 0 channel6 100 false false,.rocWork 0 (some channel1) false,.scan 0 oneChannel ⟨false,false,some channel1⟩]

def deferred : Local := busyRadio.foldl (step oneQueue) serving

theorem deferred_run (fine : Local → Event → Prop) (all : ∀ l, ∀ e ∈ busyRadio, fine l e) : Run (step oneQueue) fine serving deferred :=
  ((Run.start.next (e := busyRadio[0]) (all _ _ (by simp [busyRadio]))).next (e := busyRadio[1]) (all _ _ (by simp [busyRadio]))).next
    (e := busyRadio[2]) (all _ _ (by simp [busyRadio]))

end Mac80211.OffChannel

import Mac80211.RocLive

namespace Mac80211.Roc

open Bool (false_ne_true or_true)
open List (forall_mem_cons mem_append mem_append_right mem_map mem_cons mem_cons_self mem_append_left mem_cons_of_mem mem_filter)

-- While a purge holds entries on its own list, the head may wait for a started one there to be finished.
structure SwGoing (w : World) : Prop where
  going : w.going
  durations : ∀ e ∈ w.rocList, e.roc.duration ≠ 0
  empty : (∀ o, w.caller ≠ .purging o) → w.tmpList = []

-- With remain_on_channel in the driver no work of an entry is queued: the head is started, or there is none.
structure HwGoing (w : World) : Prop where
  going : ∀ e ∈ w.rocList.head?, e.started = true
  idle : ∀ e ∈ w.rocList, e.work = .idle
  caller : w.caller = .none
  empty : w.tmpList = []

section software
variable {cfg : Config} {w : World}

theorem startNext_sw (software : cfg.remainOnChannel = false) (w : World) (accept : Bool) :
    (∀ e ∈ (startNextRoc cfg w accept).rocList.head?, e.live = true) ∧
      ((∀ e ∈ w.rocList, e.roc.duration ≠ 0) → ∀ e ∈ (startNextRoc cfg w accept).rocList, e.roc.duration ≠ 0) ∧
      (startNextRoc cfg w accept).tmpList = w.tmpList ∧ (startNextRoc cfg w accept).caller = w.caller := by
  unfold startNextRoc
  split
  · rename_i nothing
    refine ⟨fun e member => ?_,id,rfl,rfl⟩
    rw [nothing] at member
    cases member
  rename_i roc rest list
  split
  · rename_i started
    refine ⟨fun e member => ?_,id,rfl,rfl⟩
    rw [list] at member
    cases member
    unfold Entry.live
    rw [started,Bool.true_or]
  rw [if_neg (by rw [software]; exact false_ne_true)]
  refine ⟨fun e member => ?_,fun each => ?_,rfl,rfl⟩
  · cases member
    unfold Entry.live
    rw [Bool.or_eq_true,bne_iff_ne]
    right
    split
    · exact Work.noConfusion
    · assumption
  · rw [list] at each
    obtain ⟨first,others⟩ := forall_mem_cons.mp each
    exact forall_mem_cons.mpr ⟨first,others⟩

theorem finish_sw (software : cfg.remainOnChannel = false) (w : World) (roc : Entry) (durations : ∀ e ∈ w.rocList, e.roc.duration ≠ 0)
    (unstarted : roc.started = false → w.going) :
    (finish cfg w roc).going ∧ (∀ e ∈ (finish cfg w roc).rocList, e.roc.duration ≠ 0) ∧
      (finish cfg w roc).tmpList = w.tmpList ∧ (finish cfg w roc).caller = w.caller := by
  have shape : ∃ mid : World, finish cfg w roc = (if roc.started then startNextRoc cfg mid true else mid) ∧ mid.rocList = w.rocList ∧
      mid.tmpList = w.tmpList ∧ mid.caller = w.caller := by
    refine ⟨_,rfl,?_,?_,?_⟩ <;> split <;> rfl
  obtain ⟨mid,same,list,tmp,caller⟩ := shape
  rw [same]
  split
  · obtain ⟨live,keeps,tmp',caller'⟩ := startNext_sw software mid true
    exact ⟨fun e member => .inl (live e member),keeps (list ▸ durations),tmp'.trans tmp,caller'.trans caller⟩
  · rename_i idle
    have going := unstarted (Bool.eq_false_iff.mpr idle)
    unfold World.going at going ⊢
    rw [list,tmp]
    exact ⟨going,durations,rfl,caller⟩

theorem SwGoing.beside (sw : SwGoing w) (beside : Beside w after) : (∀ o, after.caller ≠ .purging o) → after.tmpList = [] := by
  rw [beside.caller,beside.tmpList]
  exact sw.empty

theorem HeadKept.going {after : World} (kept : HeadKept w.rocList after.rocList) (tmp : after.tmpList = w.tmpList) (going : w.going) : after.going := by
  intro e' member
  rw [tmp]
  by_cases taken : ∃ taken ∈ w.tmpList, taken.started = true
  · exact .inr taken
  · refine .inl (kept.live (fun e inside => ?_) e' member)
    exact (going e inside).resolve_right taken

section
variable (software : cfg.remainOnChannel = false) (sw : SwGoing w)
include software sw

theorem request_sw (sdata chan duration txskb type j : Nat) (accept : Bool) :
    SwGoing (startRocWork cfg w sdata chan duration txskb type false j accept) := by
  obtain ⟨beside,_,_,lasts,became⟩ := startRocWork_asked cfg w sdata chan duration txskb type false j accept
  generalize startRocWork cfg w sdata chan duration txskb type false j accept = after at beside became
  cases became with
  | refused list => exact ⟨HeadKept.going (list ▸ fun e member => ⟨e,member,rfl,id⟩) beside.tmpList sw.going,list ▸ sw.durations,sw.beside beside⟩
  | combined list reports found same =>
    exact ⟨HeadKept.going (same ▸ combine_kept found) beside.tmpList sw.going,same ▸ combine_all durations_stay found sw.durations,sw.beside beside⟩
  | behind e new alone abort same asked told first =>
    refine ⟨fun e' member => ?_,?_,sw.beside beside⟩
    · rw [same] at member
      rw [beside.tmpList]
      cases list : w.rocList with
      | nil =>
        rw [list] at member
        cases member
        have queued := first rfl list
        rw [if_neg (by rw [software]; exact false_ne_true)] at queued
        left
        unfold Entry.live
        rw [queued]
        exact or_true _
      | cons =>
        rw [list] at member
        refine sw.going e' ?_
        rw [list]
        exact member
    · rw [same]
      intro e' member
      rcases mem_append.mp member with old | last
      · exact sw.durations e' old
      · rw [List.mem_singleton.mp last,new]
        exact lasts

theorem cancel_sw (free : w.caller = .none) (cookie : Nat) (mgmtTx drvOk accept : Bool) :
    SwGoing (cancelRoc cfg w cookie mgmtTx drvOk accept) := by
  have empty : w.tmpList = [] := sw.empty fun o => by rw [free]; exact Caller.noConfusion
  unfold cancelRoc
  split
  · exact sw
  · rename_i list dep found
    refine ⟨HeadKept.going (find_dependent found) rfl sw.going,fun e' member => ?_,sw.empty⟩
    obtain ⟨e,inside,same,_⟩ := find_members found e' member
    rw [same]
    exact sw.durations e inside
  rename_i before roc after found
  rw [if_neg (by rw [software]; exact false_ne_true)]
  have split := find_entry found
  refine ⟨fun e member => ?_,fun e member => ?_,fun _ => empty⟩
  · cases before with
    | nil =>
      cases member
      left
      exact or_true _
    | cons =>
      refine sw.going e ?_
      rw [split]
      exact member
  · rcases mem_append.mp member with inside | inside
    · exact sw.durations e (by rw [split]; exact mem_append_left _ inside)
    · rcases mem_cons.mp inside with same | later
      · rw [same]
        exact sw.durations roc (by rw [split]; exact mem_append_right _ mem_cons_self)
      · exact sw.durations e (by rw [split]; exact mem_append_right _ (mem_cons_of_mem _ later))

theorem work_sw (id : Nat) (fair : w.fair cfg (.swWork id)) : SwGoing (swRocWork cfg w id) := by
  have less : ∀ {before after : List Entry} {e : Entry}, w.rocList = before ++ e :: after →
      ∀ i ∈ before ++ after, i.roc.duration ≠ 0 := by
    intro before after e split i member
    refine sw.durations i ?_
    rw [split]
    rcases mem_append.mp member with inside | inside
    · exact mem_append_left _ inside
    · exact mem_append_right _ (mem_cons_of_mem _ inside)
  unfold swRocWork
  split
  · rename_i before roc after found
    obtain ⟨e,split,_,made⟩ := take_some found
    have lasts := sw.durations e (by rw [split]; exact mem_append_right _ mem_cons_self)
    split
    · rename_i abort
      obtain ⟨going,durations,tmp,caller⟩ := finish_sw software {w with rocList := before ++ after} roc (less split) fun unstarted i member => by
        cases before with
        | nil =>
          rw [fair roc after found abort unstarted] at member
          cases member
        | cons =>
          refine sw.going i ?_
          rw [split]
          exact member
      exact ⟨going,durations,fun other => tmp.trans (sw.empty (caller ▸ other))⟩
    split
    · rename_i later
      refine ⟨fun i member => ?_,fun i member => ?_,sw.empty⟩
      · cases before with
        | nil => cases later
        | cons =>
          refine sw.going i ?_
          rw [split]
          exact member
      · rcases mem_append.mp member with inside | inside
        · exact less split i (mem_append_left _ inside)
        · rcases mem_cons.mp inside with same | inside
          · rw [same,made]
            exact lasts
          · exact less split i (mem_append_right _ inside)
    rename_i first
    have alone : before = [] := by
      cases before with
      | nil => rfl
      | cons => exact absurd rfl first
    subst alone
    split
    · have duration : roc.handleStarted.roc.duration ≠ 0 := by
        rw [made]
        exact lasts
      rw [if_neg duration]
      refine ⟨fun i member => ?_,forall_mem_cons.mpr ⟨duration,less split⟩,sw.empty⟩
      cases member
      exact .inl rfl
    · rename_i started
      obtain ⟨going,durations,tmp,caller⟩ := finish_sw software {w with rocList := after} roc (less split) fun unstarted => by
        rw [unstarted] at started
        exact absurd rfl started
      exact ⟨going,durations,fun other => tmp.trans (sw.empty (caller ▸ other))⟩
  split
  · rename_i before roc after found
    obtain ⟨e,split,_,made⟩ := take_some found
    obtain ⟨going,durations,tmp,caller⟩ := finish_sw software {w with tmpList := before ++ after} roc sw.durations fun unstarted i member => by
      refine (sw.going i member).imp_right fun ⟨taken,inside,started⟩ => ⟨taken,?_,started⟩
      rw [split] at inside
      rcases mem_append.mp inside with there | there
      · exact mem_append_left _ there
      · rcases mem_cons.mp there with same | there
        · rw [made] at unstarted
          rw [same] at started
          cases started.symm.trans unstarted
        · exact mem_append_right _ there
    refine ⟨going,durations,fun other => tmp.trans ?_⟩
    have nothing := sw.empty (caller ▸ other)
    rw [split] at nothing
    simp at nothing
  · exact sw

theorem purge_sw (free : w.caller = .none) (sdata : Option Nat)
    (fair : w.fair cfg (.purge sdata)) : SwGoing (rocPurge cfg w sdata) := by
  have empty : w.tmpList = [] := sw.empty fun o => by rw [free]; exact Caller.noConfusion
  unfold rocPurge
  rw [if_neg (by rw [software]; exact false_ne_true)]
  refine ⟨fun e member => ?_,fun e member => sw.durations e (mem_filter.mp member).1,fun other => absurd rfl (other none)⟩
  have live : ∀ e ∈ w.rocList.head?, e.live = true := by
    intro e first
    refine (sw.going e first).resolve_right fun ⟨taken,inside,_⟩ => ?_
    rw [empty] at inside
    cases inside
  have fair := fair free
  cases list : w.rocList with
  | nil =>
    rw [list] at member
    cases member
  | cons first rest =>
    rw [list] at live fair member
    cases taken : takes sdata first with
    | false =>
      left
      unfold takes at taken
      rw [List.filter_cons,taken] at member
      cases member
      exact live e rfl
    | true =>
      rcases fair first rfl taken with all | ⟨_,started⟩
      · have nothing : ((first :: rest).filter fun roc => !sdata.all (· == roc.roc.sdata)) = [] := by
          refine List.filter_eq_nil_iff.mpr fun other inside => ?_
          have gone := all other inside
          unfold takes at gone
          rw [gone]
          exact false_ne_true
        rw [nothing] at member
        cases member
      · refine .inr ⟨{first with abort := true},mem_map.mpr ⟨first,mem_filter.mpr ⟨?_,taken⟩,rfl⟩,started⟩
        exact mem_cons_self

end

theorem flushed_sw (sw : SwGoing w) : SwGoing (flushed w) := by
  unfold flushed
  split
  · exact sw
  · rename_i id waits
    split
    · exact sw
    · refine ⟨sw.going,sw.durations,fun _ => sw.empty fun o => ?_⟩
      rw [waits]
      exact Caller.noConfusion
  · unfold purgeNext
    split
    · rename_i nothing
      refine ⟨sw.going,sw.durations,fun _ => nothing⟩
    · rename_i roc rest list
      refine ⟨fun e member => (sw.going e member).imp_right fun ⟨taken,inside,started⟩ => ?_,sw.durations,fun other => absurd rfl (other _)⟩
      rw [list] at inside
      rcases mem_cons.mp inside with same | inside
      · exact ⟨_,mem_cons_self,same ▸ started⟩
      · exact ⟨taken,mem_cons_of_mem _ inside,started⟩
  · split
    · exact sw
    · exact ⟨sw.going,sw.durations,fun other => absurd rfl (other none)⟩

theorem fire_sw (sw : SwGoing w) (id : Nat) : SwGoing (fire w id) := by
  unfold fire
  refine ⟨fun e member => ?_,fun e member => ?_,fun other => ?_⟩
  · rw [List.head?_map] at member
    obtain ⟨old,inside,same⟩ := Option.map_eq_some_iff.mp member
    refine (sw.going old inside).imp (fun live => ?_) fun ⟨taken,there,started⟩ => ⟨_,List.mem_map_of_mem there,?_⟩
    · rw [← same]
      split
      · exact or_true _
      · exact live
    · split <;> exact started
  · obtain ⟨old,inside,same⟩ := mem_map.mp member
    rw [← same]
    split <;> exact sw.durations old inside
  · exact List.map_eq_nil_iff.mpr (sw.empty other)

theorem hwStart_sw (sw : SwGoing w) : SwGoing (hwRocStartWork w) := by
  unfold hwRocStartWork
  split
  · exact sw
  dsimp only
  split
  · exact {sw with}
  rename_i roc rest list
  split
  · exact {sw with}
  rename_i started
  have each := sw.durations
  rw [list] at each
  obtain ⟨here,others⟩ := forall_mem_cons.mp each
  obtain ⟨lasts,moved⟩ := begin_durations roc.dependents roc.roc.duration [] [] (fun _ member => by cases member) here
  refine ⟨fun e member => ?_,?_,sw.empty⟩
  · cases member
    left
    rw [show roc.started = true by simpa using started]
    rfl
  · refine forall_mem_cons.mpr ⟨lasts,fun e member => ?_⟩
    rcases mem_append.mp member with inside | inside
    · obtain ⟨dep,there,same⟩ := mem_map.mp inside
      rw [← same]
      exact moved dep there
    · exact others e inside

section
variable (software : cfg.remainOnChannel = false) (sw : SwGoing w)
include software sw

theorem hwDone_sw (accept : Bool) : SwGoing (hwRocDoneWork cfg w accept) := by
  unfold hwRocDoneWork
  split
  · exact sw
  dsimp only
  split
  · exact {sw with}
  · rename_i roc rest list
    split
    · exact {sw with}
    · have each := sw.durations
      rw [list] at each
      obtain ⟨live,keeps,tmp,caller⟩ := startNext_sw software (({w with hwRocDone := false,rocList := rest} : World).report (notifyDestroy roc true)) accept
      exact ⟨fun e member => .inl (live e member),keeps (forall_mem_cons.mp each).2,
        fun other => tmp.trans (sw.empty fun o => caller ▸ other o)⟩

theorem startNext_going (accept : Bool) : SwGoing (startNextRoc cfg w accept) := by
  obtain ⟨live,keeps,tmp,caller⟩ := startNext_sw software w accept
  exact ⟨fun e member => .inl (live e member),keeps sw.durations,fun other => tmp.trans (sw.empty fun o => caller ▸ other o)⟩

theorem step_sw (e : Event) (fair : w.fair cfg e) : SwGoing (step cfg w e) := by
  unfold step
  cases e with
  | request sdata chan duration txskb type busy j accept =>
    dsimp only
    split
    · cases show busy = false from fair
      exact request_sw software sw sdata chan duration txskb type j accept
    · exact sw
  | cancel cookie mgmtTx drvOk accept =>
    dsimp only
    split
    · rename_i free
      exact cancel_sw software sw free cookie mgmtTx drvOk accept
    · exact sw
  | purge sdata =>
    dsimp only
    split
    · rename_i free
      exact purge_sw software sw free sdata fair
    · exact sw
  | flushed => exact flushed_sw sw
  | fire id => exact fire_sw sw id
  | swWork id => exact work_sw software sw id fair
  | ready =>
    dsimp only
    rwa [if_neg (by rw [software]; exact false_ne_true)]
  | expired =>
    rwa [if_neg (by rw [software]; exact false_ne_true)]
  | hwStart => exact hwStart_sw sw
  | hwDone accept => exact hwDone_sw software sw accept
  | startNext accept => exact startNext_going software sw accept

end

end software

section hardware
variable {cfg : Config}

theorem startNext_hw (hardware : cfg.remainOnChannel = true) (idle : ∀ e ∈ w.rocList, e.work = .idle) (caller : w.caller = .none)
    (empty : w.tmpList = []) (accept : Bool) : HwGoing (startNextRoc cfg w accept) := by
  unfold startNextRoc
  split
  · rename_i nothing
    refine ⟨fun e member => ?_,idle,caller,empty⟩
    rw [nothing] at member
    cases member
  rename_i roc rest list
  split
  · rename_i started
    refine ⟨fun e member => ?_,idle,caller,empty⟩
    rw [list] at member
    cases member
    exact started
  · rw [list] at idle
    obtain ⟨first,others⟩ := forall_mem_cons.mp idle
    refine ⟨fun e member => ?_,forall_mem_cons.mpr ⟨first,others⟩,caller,empty⟩
    cases member
    rfl

theorem idle_stays : Stays fun e => e.work = .idle := ⟨fun _ _ => id,fun _ _ => id,fun _ _ => rfl⟩

section
variable (hardware : cfg.remainOnChannel = true) (hw : HwGoing w)
include hardware hw

theorem request_hw (sdata chan duration txskb type j : Nat) (accept : Bool) :
    HwGoing (startRocWork cfg w sdata chan duration txskb type false j accept) := by
  obtain ⟨beside,_,_,_,became⟩ := startRocWork_asked cfg w sdata chan duration txskb type false j accept
  generalize startRocWork cfg w sdata chan duration txskb type false j accept = after at beside became
  have caller := beside.caller.trans hw.caller
  have empty := beside.tmpList.trans hw.empty
  cases became with
  | refused list => exact ⟨list ▸ hw.going,list ▸ hw.idle,caller,empty⟩
  | combined list reports found same =>
    refine ⟨fun e member => ?_,same ▸ combine_all idle_stays found hw.idle,caller,empty⟩
    rw [same] at member
    obtain ⟨old,inside,started,_⟩ := combine_kept found e member
    exact started.trans (hw.going old inside)
  | behind e new alone abort same asked told first idle =>
    refine ⟨fun e' member => ?_,fun e' member => ?_,caller,empty⟩
    · rw [same] at member
      cases list : w.rocList with
      | nil =>
        rw [list] at member
        cases member
        have started := first rfl list
        rwa [if_pos hardware] at started
      | cons =>
        rw [list] at member
        refine hw.going e' ?_
        rw [list]
        exact member
    · rw [same] at member
      rcases mem_append.mp member with old | last
      · exact hw.idle e' old
      · rw [List.mem_singleton.mp last]
        exact idle hardware

theorem cancel_hw (cookie : Nat) (mgmtTx drvOk accept : Bool) : HwGoing (cancelRoc cfg w cookie mgmtTx drvOk accept) := by
  unfold cancelRoc
  split
  · exact hw
  · rename_i list dep found
    refine ⟨fun e member => ?_,fun e member => ?_,hw.caller,hw.empty⟩
    · obtain ⟨old,inside,started,_⟩ := find_dependent found e member
      exact started.trans (hw.going old inside)
    · obtain ⟨old,inside,_,_,work⟩ := find_members found e member
      exact work.trans (hw.idle old inside)
  rename_i before roc after found
  have split := find_entry found
  have idle : ∀ e ∈ before ++ after, e.work = .idle := by
    intro e member
    refine hw.idle e ?_
    rw [split]
    rcases mem_append.mp member with inside | inside
    · exact mem_append_left _ inside
    · exact mem_append_right _ (mem_cons_of_mem _ inside)
  rw [if_pos hardware]
  split
  · exact hw
  cases started : roc.started with
  | true =>
    have next := startNext_hw (w := {w with rocList := before ++ after}) hardware idle hw.caller hw.empty accept
    exact {next with}
  | false =>
    refine ⟨fun e member => ?_,idle,hw.caller,hw.empty⟩
    cases before with
    | nil =>
      have under := hw.going roc (by rw [split]; rfl)
      cases under.symm.trans started
    | cons =>
      refine hw.going e ?_
      rw [split]
      exact member

theorem purge_hw (sdata : Option Nat) (fair : w.fair cfg (.purge sdata)) : HwGoing (rocPurge cfg w sdata) := by
  have fair := fair hw.caller
  unfold rocPurge
  rw [if_pos hardware]
  refine ⟨fun e member => ?_,fun e member => hw.idle e (mem_filter.mp member).1,hw.caller,hw.empty⟩
  change e ∈ (w.rocList.filter fun roc => !takes sdata roc).head? at member
  have going := hw.going
  cases list : w.rocList with
  | nil =>
    rw [list] at member
    cases member
  | cons first rest =>
    rw [list] at going fair member
    cases taken : takes sdata first with
    | false =>
      rw [List.filter_cons,taken] at member
      cases member
      exact going e rfl
    | true =>
      rcases fair first rfl taken with all | ⟨software,_⟩
      · have nothing : ((first :: rest).filter fun roc => !takes sdata roc) = [] := by
          refine List.filter_eq_nil_iff.mpr fun other inside => ?_
          rw [all other inside]
          exact false_ne_true
        rw [nothing] at member
        cases member
      · cases software.symm.trans hardware

end

theorem work_hw (hw : HwGoing w) (id : Nat) : swRocWork cfg w id = w := by
  have nothing : ∀ list : List Entry, (∀ e ∈ list, e.work = .idle) → take id list = none := by
    intro list idle
    cases found : take id list with
    | none => rfl
    | some =>
      obtain ⟨e,split,queued,_⟩ := take_some found
      have here := idle e (by rw [split]; exact mem_append_right _ mem_cons_self)
      cases here.symm.trans queued
  unfold swRocWork
  rw [nothing w.rocList hw.idle,hw.empty]
  rfl

theorem fire_hw (hw : HwGoing w) (id : Nat) : HwGoing (fire w id) := by
  have same : ∀ e ∈ w.rocList, (if e.roc.id = id ∧ e.work = .timer then {e with work := .queued} else e) = e := by
    intro e member
    rw [if_neg]
    intro both
    cases both.2.symm.trans (hw.idle e member)
  unfold fire
  dsimp only
  rw [List.map_congr_left same,List.map_id',hw.empty]
  exact ⟨hw.going,hw.idle,hw.caller,rfl⟩

theorem hwStart_hw (hw : HwGoing w) : HwGoing (hwRocStartWork w) := by
  unfold hwRocStartWork
  split
  · exact hw
  dsimp only
  split
  · exact {hw with}
  rename_i roc rest list
  split
  · exact {hw with}
  rename_i started
  have each := hw.idle
  rw [list] at each
  obtain ⟨here,others⟩ := forall_mem_cons.mp each
  refine ⟨fun e member => ?_,forall_mem_cons.mpr ⟨here,fun e member => ?_⟩,hw.caller,hw.empty⟩
  · cases member
    simpa using started
  · rcases mem_append.mp member with inside | inside
    · obtain ⟨_,_,same⟩ := mem_map.mp inside
      rw [← same]
      rfl
    · exact others e inside

theorem hwDone_hw (hardware : cfg.remainOnChannel = true) (hw : HwGoing w) (accept : Bool) : HwGoing (hwRocDoneWork cfg w accept) := by
  unfold hwRocDoneWork
  split
  · exact hw
  dsimp only
  split
  · exact {hw with}
  · rename_i roc rest list
    split
    · exact {hw with}
    · have each := hw.idle
      rw [list] at each
      exact startNext_hw (w := ({w with hwRocDone := false,rocList := rest} : World).report (notifyDestroy roc true)) hardware
        (forall_mem_cons.mp each).2 hw.caller hw.empty accept

theorem step_hw (hardware : cfg.remainOnChannel = true) (hw : HwGoing w) (e : Event) (fair : w.fair cfg e) : HwGoing (step cfg w e) := by
  unfold step
  cases e with
  | request sdata chan duration txskb type busy j accept =>
    dsimp only
    rw [if_pos hw.caller]
    cases show busy = false from fair
    exact request_hw hardware hw sdata chan duration txskb type j accept
  | cancel cookie mgmtTx drvOk accept =>
    dsimp only
    rw [if_pos hw.caller]
    exact cancel_hw hardware hw cookie mgmtTx drvOk accept
  | purge sdata =>
    dsimp only
    rw [if_pos hw.caller]
    exact purge_hw hardware hw sdata fair
  | flushed =>
    unfold flushed
    rw [hw.caller]
    exact hw
  | fire id => exact fire_hw hw id
  | swWork =>
    dsimp only
    rw [work_hw hw]
    exact hw
  | ready =>
    dsimp only
    rw [if_pos hardware]
    exact {hw with}
  | expired =>
    rw [if_pos hardware]
    exact {hw with}
  | hwStart => exact hwStart_hw hw
  | hwDone accept => exact hwDone_hw hardware hw accept
  | startNext accept => exact startNext_hw hardware hw.idle hw.caller hw.empty accept

end hardware

def fairRun (cfg : Config) (w : World) : List Event → Prop
  | [] => True
  | e :: rest => w.fair cfg e ∧ fairRun cfg (step cfg w e) rest

theorem run_going (cfg : Config) {P : World → Prop} (each : ∀ w e, P w → w.fair cfg e → P (step cfg w e)) (events : List Event)
    (holds : P w) (fair : fairRun cfg w events) : P (run cfg w events) := by
  induction events generalizing w with
  | nil => exact holds
  | cons e rest ih => exact ih (each w e holds fair.1) fair.2

theorem roc_goes_on (cfg : Config) (events : List Event) (fair : fairRun cfg start events) :
    ∀ e ∈ (run cfg start events).rocList.head?,
      ((∀ o, (run cfg start events).caller ≠ .purging o) → e.started = true ∨ e.work ≠ .idle) ∧
        (e.started = true ∨ e.work ≠ .idle ∨ ∃ taken ∈ (run cfg start events).tmpList, taken.started = true) := by
  cases mode : cfg.remainOnChannel with
  | true =>
    have hw : HwGoing (run cfg start events) :=
      run_going cfg (fun w e hw fair => step_hw mode hw e fair) events
        ⟨fun _ member => (by cases member),fun _ member => (by cases member),rfl,rfl⟩ fair
    exact fun e member => ⟨fun _ => .inl (hw.going e member),.inl (hw.going e member)⟩
  | false =>
    have sw : SwGoing (run cfg start events) :=
      run_going cfg (fun w e sw fair => step_sw mode sw e fair) events
        ⟨fun _ member => (by cases member),fun _ member => (by cases member),fun _ => rfl⟩ fair
    intro e member
    rcases sw.going e member with live | ⟨taken,inside,started⟩
    · unfold Entry.live at live
      rw [Bool.or_eq_true,bne_iff_ne] at live
      exact ⟨fun _ => live,live.imp_right Or.inl⟩
    · refine ⟨fun other => ?_,.inr (.inr ⟨taken,inside,started⟩)⟩
      rw [sw.empty other] at inside
      cases inside

def hwConfig : Config := ⟨true,true,1,id,id⟩

def twoRequests : List Event := [.request 0 1 100 0 0 false 0 true,.request 1 6 100 0 0 false 0 true]

theorem twoRequests_fair (w : World) (e e' : Event) :
    fairRun hwConfig w (twoRequests ++ [e,e']) ↔ (run hwConfig w twoRequests).fair hwConfig e ∧ (step hwConfig (run hwConfig w twoRequests) e).fair hwConfig e' := by
  change (false = false ∧ false = false ∧ _ ∧ _ ∧ True) ↔ _
  simp only [true_and,and_true]
  rfl

theorem roc_goes_on_done :
    let w := run hwConfig start (twoRequests ++ [.expired,.hwDone true])
    ∀ e ∈ w.rocList.head?, ((∀ o, w.caller ≠ .purging o) → e.started = true ∨ e.work ≠ .idle) ∧
      (e.started = true ∨ e.work ≠ .idle ∨ ∃ taken ∈ w.tmpList, taken.started = true) :=
  roc_goes_on hwConfig (twoRequests ++ [.expired,.hwDone true]) ((twoRequests_fair start .expired (.hwDone true)).mpr ⟨trivial,trivial⟩)

theorem purged_stalls :
    let w := run hwConfig start (twoRequests ++ [.purge (some 0)])
    w.caller = .none ∧ w.rocList.map (fun e => (e.roc.sdata,e.started,e.work)) = [(1,false,.idle)] := by
  decide

end Mac80211.Roc

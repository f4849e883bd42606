import Mac80211.RocMoves

namespace Mac80211.Roc

def Entry.aborted (e : Entry) : List (Nat × Bool) := if e.abort then [(e.roc.id,e.work == .queued)] else []

def aborted (list : List Entry) : List (Nat × Bool) := list.flatMap Entry.aborted

inductive Waits : Caller → List Entry → List Nat → List (Nat × Bool) → Prop where
  | nobody : Waits .none [] [] []
  | cancelling (id : Nat) : Waits (.cancelling id) [] [] [(id,true)]
  | cancelled (id : Nat) : Waits (.cancelling id) [] [id] []
  | purging (tmp : List Entry) (abort : ∀ e ∈ tmp, e.abort = true) : Waits (.purging none) tmp [] []
  | taking (e : Entry) (tmp : List Entry) (queued : e.work = .queued) (abort : ∀ e' ∈ e :: tmp, e'.abort = true) :
    Waits (.purging (some e.roc.id)) (e :: tmp) [] []
  | taken (id : Nat) (tmp : List Entry) (abort : ∀ e ∈ tmp, e.abort = true) : Waits (.purging (some id)) tmp [id] []

structure Waiting (cfg : Config) (w : World) : Prop where
  hardware : cfg.remainOnChannel = true → w.caller = .none
  software : cfg.remainOnChannel = false → w.hwRocDone = false
  waits : Waits w.caller w.tmpList w.toBeFreed (aborted w.rocList)

structure Kept (cfg : Config) (w after : World) : Prop where
  caller : after.caller = w.caller
  tmpList : after.tmpList = w.tmpList
  toBeFreed : after.toBeFreed = w.toBeFreed
  hwRocDone : cfg.remainOnChannel = false → after.hwRocDone = w.hwRocDone
  aborted : aborted after.rocList = aborted w.rocList

section lists

theorem Waiting.kept (waiting : Waiting cfg w) (kept : Kept cfg w after) : Waiting cfg after := by
  refine ⟨fun hardware => kept.caller.trans (waiting.hardware hardware),fun software => (kept.hwRocDone software).trans (waiting.software software),?_⟩
  rw [kept.caller,kept.tmpList,kept.toBeFreed,kept.aborted]
  exact waiting.waits

theorem aborted_cons (e : Entry) (list : List Entry) : aborted (e :: list) = e.aborted ++ aborted list := List.flatMap_cons

theorem aborted_append (list rest : List Entry) : aborted (list ++ rest) = aborted list ++ aborted rest := List.flatMap_append

theorem aborted_none : aborted list = [] ↔ ∀ e ∈ list, e.abort = false := by
  unfold aborted
  rw [List.flatMap_eq_nil_iff]
  refine forall₂_congr fun e _ => ?_
  unfold Entry.aborted
  cases e.abort <;> simp

theorem aborted_fresh (rocs : List RocWork) : aborted (rocs.map fresh) = [] := by
  refine aborted_none.mpr fun e member => ?_
  obtain ⟨_,_,same⟩ := List.mem_map.mp member
  rw [← same]
  rfl

theorem handleStarted_id (r : Request) : r.handleStarted.1.id = r.id := by
  unfold Request.handleStarted
  split
  · rfl
  · split
    · split <;> rfl
    · rfl

theorem coalesce_aborted
    (found : coalesceStartedRoc cfg j new cur list = some out) : aborted out.1 = aborted (cur :: list) := by
  unfold coalesceStartedRoc at found
  dsimp only at found
  split at found
  · cases found
  · split at found
    · cases found
    · split at found
      · cases found
        rfl
      · split at found
        · cases found
          rfl
        · split at found <;> cases found <;> rfl

theorem combine_aborted (found : checkCombine cfg j new list = some out) :
    aborted out.1 = aborted list := by
  induction list generalizing out with
  | nil => cases found
  | cons tmp rest ih =>
    unfold checkCombine at found
    split at found
    · obtain ⟨_,within,same⟩ := Option.map_eq_some_iff.mp found
      cases same
      rw [aborted_cons,aborted_cons,ih within]
    split at found
    · cases found
      rfl
    · split at found
      · split at found
        · cases found
          rfl
        · exact coalesce_aborted found
      · split at found
        · cases found
          rfl
        · cases found

theorem dependent_aborted (found : find p list = some (.dependent rest dep)) :
    aborted rest = aborted list := by
  induction list generalizing rest with
  | nil => cases found
  | cons roc others ih =>
    unfold find at found
    split at found
    · cases found
      rfl
    · split at found
      · cases found
      · obtain ⟨inner,within,same⟩ := Option.map_eq_some_iff.mp found
        cases inner with
        | entry => cases same
        | dependent =>
          cases same
          rw [aborted_cons,aborted_cons,ih within]

theorem take_id {id : Nat} (found : take id list = some (before,roc,after)) : roc.roc.id = id := by
  induction list generalizing before with
  | nil => cases found
  | cons e rest ih =>
    unfold take at found
    split at found
    · rename_i here
      cases found
      exact here.1
    · obtain ⟨⟨_,_,_⟩,inner,same⟩ := Option.map_eq_some_iff.mp found
      cases same
      exact ih inner

end lists

section kept
variable {w : World}

theorem startNext_kept (w : World) (accept : Bool) : Kept cfg w (startNextRoc cfg w accept) := by
  unfold startNextRoc
  split
  · exact ⟨rfl,rfl,rfl,fun _ => rfl,rfl⟩
  rename_i roc rest list
  split
  · exact ⟨rfl,rfl,rfl,fun _ => rfl,rfl⟩
  split
  · rename_i hardware
    refine ⟨rfl,rfl,rfl,fun software => ?_,?_⟩
    · cases hardware.symm.trans software
    · rw [list]
      rfl
  refine ⟨rfl,rfl,rfl,fun _ => rfl,?_⟩
  rw [list,aborted_cons,aborted_cons]
  refine congrArg (· ++ aborted rest) ?_
  unfold Entry.aborted
  dsimp only
  split
  · split
    · rename_i idle
      rw [idle]
      rfl
    · rfl
  · rfl

theorem Waiting.free (waiting : Waiting cfg w) (free : w.caller = .none) : w.tmpList = [] ∧ w.toBeFreed = [] ∧ aborted w.rocList = [] := by
  have waits := waiting.waits
  rw [free] at waits
  generalize w.tmpList = tmp at waits ⊢
  generalize w.toBeFreed = freed at waits ⊢
  generalize aborted w.rocList = gone at waits ⊢
  cases waits
  exact ⟨rfl,rfl,rfl⟩

theorem request_waits (waiting : Waiting cfg w) (sdata chan duration txskb type : Nat) (busy : Bool) (j : Nat) (accept : Bool) :
    Waiting cfg (startRocWork cfg w sdata chan duration txskb type busy j accept) := by
  obtain ⟨beside,_,_,_,became⟩ := startRocWork_asked cfg w sdata chan duration txskb type busy j accept
  refine waiting.kept ⟨beside.caller,beside.tmpList,beside.toBeFreed,fun _ => beside.hwRocDone,?_⟩
  cases became with
  | refused list => rw [list]
  | combined list reports found same =>
    rw [same]
    exact combine_aborted found
  | behind e made alone abort same =>
    rw [same,aborted_append,aborted_cons]
    unfold Entry.aborted
    rw [abort]
    exact List.append_nil _

theorem cancel_waits (waiting : Waiting cfg w) (free : w.caller = .none) (cookie : Nat) (mgmtTx drvOk accept : Bool) :
    Waiting cfg (cancelRoc cfg w cookie mgmtTx drvOk accept) := by
  obtain ⟨tmp,freed,nothing⟩ := waiting.free free
  unfold cancelRoc
  split
  · exact waiting
  · rename_i list dep found
    exact waiting.kept ⟨rfl,rfl,rfl,fun _ => rfl,dependent_aborted found⟩
  rename_i before roc after found
  have split := find_entry found
  rw [split,aborted_append,aborted_cons,List.append_eq_nil_iff,List.append_eq_nil_iff] at nothing
  obtain ⟨earlier,here,later⟩ := nothing
  have less : aborted (before ++ after) = aborted w.rocList := by
    rw [split,aborted_append,aborted_append,aborted_cons,here,List.nil_append]
  split
  · split
    · exact waiting
    · have removed : Waiting cfg {w with rocList := before ++ after} := waiting.kept ⟨rfl,rfl,rfl,fun _ => rfl,less⟩
      split
      · exact (removed.kept (startNext_kept _ accept)).kept ⟨rfl,rfl,rfl,fun _ => rfl,rfl⟩
      · exact removed.kept ⟨rfl,rfl,rfl,fun _ => rfl,rfl⟩
  · rename_i software
    refine ⟨fun hardware => absurd hardware software,waiting.software,?_⟩
    rw [tmp,freed,aborted_append,aborted_cons,earlier,later]
    exact .cancelling roc.roc.id

theorem finish_kept (roc : Entry) (aborts : roc.abort = false) : Kept cfg w (finish cfg w roc) := by
  unfold finish
  rw [aborts]
  dsimp only
  split
  · have next := @startNext_kept cfg (w.report (notifyDestroy roc (!false))) true
    exact {next with}
  · exact ⟨rfl,rfl,rfl,fun _ => rfl,rfl⟩

theorem finish_leaves (roc : Entry) (aborts : roc.abort = true) :
    Kept cfg {w with toBeFreed := w.toBeFreed ++ [roc.roc.id]} (finish cfg w roc) := by
  unfold finish
  rw [aborts]
  dsimp only
  split
  · have next := @startNext_kept cfg ({w.report (notifyDestroy roc (!true)) with toBeFreed := w.toBeFreed ++ [roc.roc.id]}) true
    exact {next with}
  · exact ⟨rfl,rfl,rfl,fun _ => rfl,rfl⟩

theorem purge_waits (waiting : Waiting cfg w) (free : w.caller = .none) (sdata : Option Nat) : Waiting cfg (rocPurge cfg w sdata) := by
  obtain ⟨_,freed,nothing⟩ := waiting.free free
  have stays : aborted (w.rocList.filter fun roc => !sdata.all (· == roc.roc.sdata)) = [] := by
    refine aborted_none.mpr fun e member => ?_
    exact aborted_none.mp nothing e (List.mem_filter.mp member).1
  unfold rocPurge
  split
  · refine waiting.kept ⟨rfl,rfl,rfl,fun _ => rfl,?_⟩
    exact stays.trans nothing.symm
  · rename_i software
    refine ⟨fun hardware => absurd hardware software,waiting.software,?_⟩
    rw [freed,stays]
    refine .purging _ fun e member => ?_
    obtain ⟨_,_,same⟩ := List.mem_map.mp member
    rw [← same]

theorem hwStart_waits (waiting : Waiting cfg w) : Waiting cfg (hwRocStartWork w) := by
  unfold hwRocStartWork
  split
  · exact waiting
  dsimp only
  split
  · exact waiting.kept ⟨rfl,rfl,rfl,fun _ => rfl,rfl⟩
  · rename_i roc rest list
    split
    · exact waiting.kept ⟨rfl,rfl,rfl,fun _ => rfl,rfl⟩
    · refine waiting.kept ⟨rfl,rfl,rfl,fun _ => rfl,?_⟩
      rw [list]
      unfold World.report
      rw [List.cons_append,aborted_cons,aborted_append,aborted_fresh,List.nil_append,aborted_cons]
      unfold Entry.aborted
      rw [show ({roc.roc.handleStarted with duration := _} : RocWork).id = roc.roc.id from handleStarted_id roc.roc.toRequest]

theorem hwDone_waits (waiting : Waiting cfg w) (accept : Bool) : Waiting cfg (hwRocDoneWork cfg w accept) := by
  unfold hwRocDoneWork
  split
  · exact waiting
  rename_i pending
  have hardware : cfg.remainOnChannel = true := by
    by_contra software
    rw [waiting.software (Bool.eq_false_iff.mpr software)] at pending
    exact pending rfl
  obtain ⟨_,_,nothing⟩ := waiting.free (waiting.hardware hardware)
  dsimp only
  split
  · exact waiting.kept ⟨rfl,rfl,rfl,fun software => (waiting.software software).symm,rfl⟩
  · rename_i roc rest list
    split
    · exact waiting.kept ⟨rfl,rfl,rfl,fun software => (waiting.software software).symm,rfl⟩
    · rw [list,aborted_cons,List.append_eq_nil_iff] at nothing
      have removed : Waiting cfg (({w with hwRocDone := false,rocList := rest} : World).report (notifyDestroy roc true)) := by
        refine waiting.kept ⟨rfl,rfl,rfl,fun software => (waiting.software software).symm,?_⟩
        rw [list,aborted_cons,nothing.1]
        rfl
      exact removed.kept (startNext_kept _ accept)

section
variable {tmp : List Entry} {freed : List Nat} {gone : List (Nat × Bool)}
include tmp freed gone

theorem waits_cancelling {id : Nat} (waits : Waits (.cancelling id) tmp freed gone) :
    tmp = [] ∧ (freed = [] ∧ gone = [(id,true)] ∨ freed = [id] ∧ gone = []) := by
  cases waits with
  | cancelling => exact ⟨rfl,.inl ⟨rfl,rfl⟩⟩
  | cancelled => exact ⟨rfl,.inr ⟨rfl,rfl⟩⟩

theorem waits_purging (waits : Waits (.purging none) tmp freed gone) :
    freed = [] ∧ gone = [] ∧ ∀ e ∈ tmp, e.abort = true := by
  cases waits with
  | purging _ abort => exact ⟨rfl,rfl,abort⟩

theorem waits_taking {id : Nat} (waits : Waits (.purging (some id)) tmp freed gone) :
    gone = [] ∧ (∀ e ∈ tmp, e.abort = true) ∧ (freed = [] ∧ (∃ e rest, tmp = e :: rest ∧ e.roc.id = id ∧ e.work = .queued) ∨ freed = [id]) := by
  cases waits with
  | taking e rest queued abort => exact ⟨rfl,abort,.inl ⟨rfl,e,rest,rfl,rfl,queued⟩⟩
  | taken _ _ abort => exact ⟨rfl,abort,.inr rfl⟩

end

theorem waits_flags (waits : Waits caller tmp freed gone) :
    ∀ out ∈ gone, out.2 = true := by
  cases waits with
  | cancelling => exact fun out member => List.mem_singleton.mp member ▸ rfl
  | _ => exact fun out member => (by cases member)

theorem waits_given {id : Nat}
    (waits : Waits caller tmp freed gone) (whole : gone = before ++ ([(id,true)] ++ after)) :
    caller = .cancelling id ∧ tmp = [] ∧ freed = [] ∧ before = [] ∧ after = [] := by
  cases waits with
  | cancelling =>
    cases before with
    | nil =>
      cases whole
      exact ⟨rfl,rfl,rfl,rfl,rfl⟩
    | cons first rest =>
      have tail : [] = rest ++ ([(id,true)] ++ after) := (List.cons.inj whole).2
      simp at tail
  | _ => simp at whole

theorem pending_of (member : e ∈ w.rocList ++ w.tmpList) (queued : e.work = .queued) : w.pending e.roc.id = true := by
  refine List.any_eq_true.mpr ⟨e,member,?_⟩
  rw [queued,beq_self_eq_true]
  rfl

theorem aborted_some {id : Nat} (gone : aborted list = [(id,true)]) : ∃ e ∈ list, e.roc.id = id ∧ e.work = .queued := by
  have member : (id,true) ∈ aborted list := by
    rw [gone]
    exact List.mem_singleton_self _
  obtain ⟨e,inside,here⟩ := List.mem_flatMap.mp member
  unfold Entry.aborted at here
  split at here
  · have same := List.mem_singleton.mp here
    exact ⟨e,inside,(congrArg Prod.fst same).symm,beq_iff_eq.mp (congrArg Prod.snd same).symm⟩
  · cases here

theorem free_moves {id : Nat} (freed : w.toBeFreed = [id]) (caller : Caller) :
    Moves w.ledger (({w with toBeFreed := w.toBeFreed.erase id,caller := caller} : World).report [.freed id]).ledger := by
  unfold World.ledger World.report
  rw [freed,List.erase_cons_head,← Multiset.coe_add,add_comm (w.reports : Multiset Report)]
  exact .single (.free id ⟨live w.rocList + live w.tmpList,0,w.asked,w.reports⟩)

theorem flushed_waits (waiting : Waiting cfg w) : Moves w.ledger (flushed w).ledger ∧ Waiting cfg (flushed w) := by
  have waits := waiting.waits
  unfold flushed
  split
  · exact ⟨.refl,waiting⟩
  · rename_i id caller
    split
    · exact ⟨.refl,waiting⟩
    · rename_i idle
      rw [caller] at waits
      obtain ⟨tmp,before | ⟨freed,nothing⟩⟩ := waits_cancelling waits
      · obtain ⟨e,member,same,queued⟩ := aborted_some before.2
        exact absurd (same ▸ pending_of (List.mem_append_left _ member) queued) idle
      · refine ⟨free_moves freed .none,fun _ => rfl,waiting.software,?_⟩
        unfold World.report
        rw [tmp,freed,nothing,List.erase_cons_head]
        exact .nobody
  · rename_i caller
    rw [caller] at waits
    obtain ⟨freed,nothing,abort⟩ := waits_purging waits
    unfold purgeNext
    split
    · rename_i empty
      refine ⟨.refl,fun _ => rfl,waiting.software,?_⟩
      rw [empty,freed,nothing]
      exact .nobody
    rename_i roc rest list
    rw [list] at abort
    refine ⟨?_,fun hardware => ?_,waiting.software,?_⟩
    · unfold World.ledger
      rw [list,live_cons,live_cons]
      exact .refl
    · cases caller.symm.trans (waiting.hardware hardware)
    · rw [freed,nothing]
      exact .taking {roc with work := .queued} rest rfl (List.forall_mem_cons.mpr (List.forall_mem_cons.mp abort))
  rename_i id caller
  split
  · exact ⟨.refl,waiting⟩
  rename_i idle
  rw [caller] at waits
  obtain ⟨nothing,abort,⟨_,e,_,list,same,queued⟩ | freed⟩ := waits_taking waits
  · refine absurd (same ▸ pending_of (List.mem_append_right _ ?_) queued) idle
    rw [list]
    exact List.mem_cons_self
  · refine ⟨free_moves freed (.purging none),fun hardware => ?_,waiting.software,?_⟩
    · cases caller.symm.trans (waiting.hardware hardware)
    · unfold World.report
      rw [freed,nothing,List.erase_cons_head]
      exact .purging _ abort

theorem fire_waits (waiting : Waiting cfg w) (id : Nat) : Waiting cfg (fire w id) := by
  have waits := waiting.waits
  have flags := waits_flags waits
  have same : aborted (w.rocList.map fun roc => if roc.roc.id = id ∧ roc.work = .timer then {roc with work := .queued} else roc) = aborted w.rocList := by
    unfold aborted at flags ⊢
    rw [List.flatMap_map]
    refine List.flatMap_congr fun e member => ?_
    split
    · rename_i fires
      unfold Entry.aborted
      split
      · rename_i abort
        have flag := flags (e.roc.id,e.work == .queued) (List.mem_flatMap.mpr ⟨e,member,by
          unfold Entry.aborted
          rw [abort]
          exact List.mem_singleton_self _⟩)
        rw [fires.2] at flag
        cases flag
      · rfl
    · rfl
  refine ⟨waiting.hardware,waiting.software,?_⟩
  unfold fire
  dsimp only
  rw [same]
  generalize w.caller = caller at waits ⊢
  generalize w.tmpList = tmp at waits ⊢
  generalize w.toBeFreed = freed at waits ⊢
  generalize aborted w.rocList = gone at waits ⊢
  have keeps : ∀ list : List Entry, (∀ e ∈ list, e.abort = true) →
      ∀ e ∈ list.map (fun roc => if roc.roc.id = id ∧ roc.work = .timer then {roc with work := .queued} else roc), e.abort = true := by
    intro _ abort e member
    obtain ⟨old,inside,same⟩ := List.mem_map.mp member
    rw [← same]
    split <;> exact abort old inside
  cases waits with
  | nobody => exact .nobody
  | cancelling id => exact .cancelling id
  | cancelled id => exact .cancelled id
  | purging _ abort => exact .purging _ (keeps _ abort)
  | taking e rest queued abort =>
    have stays : (if e.roc.id = id ∧ e.work = .timer then {e with work := .queued} else e) = e := if_neg fun fires => by
      cases fires.2.symm.trans queued
    have later := keeps _ abort
    rw [List.map_cons,stays] at later ⊢
    exact .taking e _ queued later
  | taken id _ abort => exact .taken id _ (keeps _ abort)

theorem Sound.apart (sound : Sound l) (member : r ∈ l.live) : r.id ∉ l.held := by
  intro held
  have balanced := sound.balanced r.id
  have placed : 0 < (l.tally r.id).placed := Multiset.countP_pos.mpr ⟨r,member,rfl⟩
  have left : 0 < (l.tally r.id).held := Multiset.count_pos.mpr held
  unfold Balanced at balanced
  split at balanced
  · rw [balanced] at placed
    exact absurd placed (Nat.lt_irrefl 0)
  · omega

-- The work of an entry that a purge has taken runs when the purge has got to it.
def World.careful (w : World) : Event → Prop
  | .swWork id => take id w.rocList = none → (take id w.tmpList).isSome = true → w.caller = .purging (some id)
  | _ => True

theorem work_waits (waiting : Waiting cfg w) (sound : Sound w.ledger) (id : Nat) (careful : w.careful (.swWork id)) :
    Waiting cfg (swRocWork cfg w id) := by
  have waits := waiting.waits
  unfold swRocWork
  split
  · rename_i before roc after found
    obtain ⟨e,split,queued,made⟩ := take_some found
    have here : e.roc.id = id := by rw [← take_id found,made]
    have whole : aborted w.rocList = aborted before ++ (e.aborted ++ aborted after) := by rw [split,aborted_append,aborted_cons]
    split
    · rename_i abort
      -- Only a cancellation leaves an entry in the list that is given up.
      have gives : e.aborted = [(id,true)] := by
        unfold Entry.aborted
        rw [show e.abort = true by rw [made] at abort; exact abort,queued,here]
        rfl
      obtain ⟨caller,tmp,freed,earlier,later⟩ := waits_given waits (whole.trans (by rw [gives]))
      have left : Waiting cfg {w with rocList := before ++ after,toBeFreed := w.toBeFreed ++ [roc.roc.id]} := by
        refine ⟨fun hardware => ?_,waiting.software,?_⟩
        · cases caller.symm.trans (waiting.hardware hardware)
        · rw [caller,tmp,freed,aborted_append,earlier,later,take_id found]
          exact .cancelled id
      exact left.kept (finish_leaves (w := {w with rocList := before ++ after}) roc abort)
    rename_i stays
    have none : e.aborted = [] := by
      unfold Entry.aborted
      rw [if_neg]
      intro abort
      rw [made] at stays
      exact stays abort
    have less : aborted (before ++ after) = aborted w.rocList := by
      rw [whole,none,aborted_append,List.nil_append]
    have unaborted : ∀ e' : Entry, e'.abort = roc.abort → e'.aborted = [] := by
      intro e' same
      unfold Entry.aborted
      rw [same,if_neg stays]
    have going : roc.abort = false := Bool.eq_false_iff.mpr stays
    split
    · refine waiting.kept ⟨rfl,rfl,rfl,fun _ => rfl,?_⟩
      rw [aborted_append,aborted_cons,unaborted roc rfl,List.nil_append,← aborted_append]
      exact less
    rename_i first
    have alone : before = [] := by
      cases before with
      | nil => rfl
      | cons => exact absurd rfl first
    subst alone
    have removed : Waiting cfg {w with rocList := after} := waiting.kept ⟨rfl,rfl,rfl,fun _ => rfl,less⟩
    split
    · dsimp only
      split
      · have started : Waiting cfg {w.report roc.startReports with rocList := after} := removed.kept ⟨rfl,rfl,rfl,fun _ => rfl,rfl⟩
        exact started.kept (finish_kept roc.handleStarted going)
      · refine waiting.kept ⟨rfl,rfl,rfl,fun _ => rfl,?_⟩
        rw [← less]
        exact congrArg (· ++ aborted after) (unaborted {roc.handleStarted with started := true,work := .timer} rfl)
    · exact removed.kept (finish_kept roc going)
  rename_i nothing
  split
  · rename_i before roc after found
    obtain ⟨e,split,_,made⟩ := take_some found
    have caller := careful nothing (by rw [found]; rfl)
    rw [caller] at waits
    obtain ⟨gone,abort,⟨freed,e',rest,list,same,first⟩ | freed⟩ := waits_taking waits
    · -- The first entry that the purge has taken is the one it flushes.
      have takes : take id w.tmpList = some ([],{e' with work := .idle},rest) := by
        rw [list]
        unfold take
        rw [if_pos ⟨same,first⟩]
      rw [takes] at found
      cases found
      rw [list] at abort
      obtain ⟨aborts,others⟩ := List.forall_mem_cons.mp abort
      have left : Waiting cfg {w with tmpList := after,toBeFreed := w.toBeFreed ++ [e'.roc.id]} := by
        refine ⟨fun hardware => ?_,waiting.software,?_⟩
        · cases caller.symm.trans (waiting.hardware hardware)
        · rw [caller,freed,gone,same]
          exact .taken id _ others
      exact left.kept (finish_leaves (w := {w with tmpList := after}) {e' with work := .idle} aborts)
    refine absurd (?_ : id ∈ w.ledger.held) ?_
    · unfold World.ledger
      rw [freed]
      exact Multiset.mem_singleton_self _
    · have member : e.roc.toRequest ∈ w.ledger.live := by
        unfold World.ledger
        rw [split,live_middle]
        refine Multiset.mem_add.mpr (.inr (Multiset.mem_add.mpr (.inl ?_)))
        exact List.mem_cons_self
      have apart := sound.apart member
      rwa [show e.roc.toRequest.id = id by rw [← take_id found,made]] at apart
  · exact waiting

def carefulRun (cfg : Config) (w : World) : List Event → Prop
  | [] => True
  | e :: rest => w.careful e ∧ carefulRun cfg (step cfg w e) rest

theorem step_once (waiting : Waiting cfg w) (sound : Sound w.ledger) (e : Event) (careful : w.careful e) :
    Moves w.ledger (step cfg w e).ledger ∧ Waiting cfg (step cfg w e) := by
  unfold step
  cases e with
  | request sdata chan duration txskb type busy j accept =>
    dsimp only
    split
    · exact ⟨request_moves sdata chan duration txskb type busy j accept,request_waits waiting sdata chan duration txskb type busy j accept⟩
    · exact ⟨.refl,waiting⟩
  | cancel cookie mgmtTx drvOk accept =>
    dsimp only
    split
    · rename_i free
      exact ⟨cancel_moves cookie mgmtTx drvOk accept,cancel_waits waiting free cookie mgmtTx drvOk accept⟩
    · exact ⟨.refl,waiting⟩
  | purge sdata =>
    dsimp only
    split
    · rename_i free
      exact ⟨purge_moves sdata (waiting.free free).1,purge_waits waiting free sdata⟩
    · exact ⟨.refl,waiting⟩
  | flushed => exact flushed_waits waiting
  | fire id =>
    refine ⟨?_,fire_waits waiting id⟩
    rw [fire_ledger]
    exact .refl
  | swWork id => exact ⟨work_moves id,work_waits waiting sound id careful⟩
  | ready =>
    dsimp only
    split
    · exact ⟨.refl,waiting.kept ⟨rfl,rfl,rfl,fun _ => rfl,rfl⟩⟩
    · exact ⟨.refl,waiting⟩
  | expired =>
    dsimp only
    split
    · rename_i hardware
      refine ⟨.refl,waiting.kept ⟨rfl,rfl,rfl,fun software => ?_,rfl⟩⟩
      cases hardware.symm.trans software
    · exact ⟨.refl,waiting⟩
  | hwStart => exact ⟨hwStart_moves,hwStart_waits waiting⟩
  | hwDone accept => exact ⟨hwDone_moves accept,hwDone_waits waiting accept⟩
  | startNext accept =>
    refine ⟨?_,waiting.kept (startNext_kept w accept)⟩
    rw [startNext_ledger]
    exact .refl

theorem run_once (events : List Event) (waiting : Waiting cfg w) (sound : Sound w.ledger) (careful : carefulRun cfg w events) :
    Waiting cfg (run cfg w events) ∧ Sound (run cfg w events).ledger := by
  induction events generalizing w with
  | nil => exact ⟨waiting,sound⟩
  | cons e rest ih =>
    obtain ⟨moves,waiting'⟩ := step_once waiting sound e careful.1
    exact ih waiting' (moves_sound moves sound) careful.2

end kept

theorem start_sound : Sound start.ledger :=
  ⟨fun _ member => absurd member (Multiset.notMem_zero _),fun _ member => absurd member (Multiset.notMem_zero _),fun _ => rfl⟩

def World.places (w : World) (id : Nat) : Nat := (requests (w.rocList ++ w.tmpList)).countP fun r => r.id = id

structure World.Accounted (w : World) (id : Nat) : Prop where
  told : w.reports.count (.ready id) + w.reports.count (.sent id) ≤ 1
  here : w.places id = 1 → w.reports.count (.expired id) = 0 ∧ w.reports.count (.failed id) = 0 ∧ w.reports.count (.freed id) = 0
  left : w.places id = 0 → w.toBeFreed.count id + w.reports.count (.freed id) = 1 ∧
    (w.asked[id]? = some 0 → w.reports.count (.expired id) = 1 ∧ w.reports.count (.sent id) = 0 ∧ w.reports.count (.failed id) = 0) ∧
    (w.asked[id]? ≠ some 0 → w.reports.count (.sent id) + w.reports.count (.failed id) = 1 ∧ w.reports.count (.expired id) = 0)

theorem tally_world (w : World) (id : Nat) : w.ledger.tally id = {
    placed := w.places id,
    unsent := (w.ledger.tally id).unsent,
    unready := (w.ledger.tally id).unready,
    held := w.toBeFreed.count id,
    freed := w.reports.count (.freed id),
    ready := w.reports.count (.ready id),
    sent := w.reports.count (.sent id),
    failed := w.reports.count (.failed id),
    expired := w.reports.count (.expired id)} := by
  have placed : (w.ledger.tally id).placed = w.places id := by
    unfold World.places World.ledger Ledger.tally
    rw [← live_append]
    exact Multiset.coe_countP (fun r : Request => r.id = id) _
  rw [← placed]
  unfold Ledger.tally World.ledger
  simp only [Multiset.coe_count]

theorem roc_accounted (cfg : Config) (events : List Event) (careful : carefulRun cfg start events) (id : Nat)
    (accepted : id < (run cfg start events).asked.length) :
    let w := run cfg start events
    (w.places id = 1 ∨ w.places id = 0) ∧ w.Accounted id ∧ (w.caller = .none → w.tmpList = [] ∧ w.toBeFreed = []) := by
  obtain ⟨waiting,sound⟩ := run_once events ⟨fun _ => rfl,fun _ => rfl,.nobody⟩ start_sound careful
  generalize run cfg start events = w at *
  have balanced := sound.balanced id
  have unsent : w.places id = 0 → (w.ledger.tally id).unsent = 0 := by
    intro left
    rw [show w.places id = (w.ledger.tally id).placed by rw [tally_world]] at left
    have nowhere : ∀ r ∈ w.ledger.live, ¬r.id = id := Multiset.countP_eq_zero.mp left
    exact Multiset.countP_eq_zero.mpr fun r member both => nowhere r member both.1
  rw [tally_world] at balanced
  unfold Balanced at balanced
  split at balanced
  · rename_i unknown
    exact absurd (List.getElem?_eq_none_iff.mp unknown) (not_le.mpr accepted)
  rename_i cookie asked
  have asked : w.asked[id]? = some cookie := asked
  obtain ⟨once,rest⟩ := balanced
  dsimp only at once rest
  refine ⟨by omega,?_,fun free => ⟨(waiting.free free).1,(waiting.free free).2.1⟩⟩
  by_cases plain : cookie = 0
  · rw [if_pos plain] at rest
    refine ⟨by omega,fun here => by omega,fun left => ⟨by omega,fun _ => by omega,fun other => ?_⟩⟩
    rw [asked,plain] at other
    exact absurd rfl other
  · rw [if_neg plain] at rest
    refine ⟨by omega,fun here => by omega,fun left => ⟨by omega,fun other => ?_,fun _ => ?_⟩⟩
    · rw [asked] at other
      exact absurd (Option.some.inj other) plain
    · omega

def swConfig : Config := ⟨false,false,1,id,id⟩

theorem roc_accounted_done :
    let w := run swConfig start [.request 0 1 100 7 0 false 0 true,.swWork 0,.purge none,.flushed,.swWork 0,.flushed,.flushed]
    (w.places 0 = 1 ∨ w.places 0 = 0) ∧ w.Accounted 0 ∧ (w.caller = .none → w.tmpList = [] ∧ w.toBeFreed = []) :=
  roc_accounted swConfig [.request 0 1 100 7 0 false 0 true,.swWork 0,.purge none,.flushed,.swWork 0,.flushed,.flushed]
    (by simp [carefulRun,World.careful]; decide) 0 (by decide)

-- The purge has not got to the entry yet.
theorem purged_leaks :
    let w := run swConfig start [.request 0 1 100 0 0 false 0 true,.purge none,.swWork 0,.flushed]
    w.asked = [0] ∧ w.caller = .none ∧ w.places 0 = 0 ∧ w.reports = [.expired 0] := by
  decide

end Mac80211.Roc

import Mac80211.Roc

namespace Mac80211.Roc

open List (forall_mem_cons)

def Entry.live (e : Entry) : Bool := e.started || e.work != .idle

structure Beside (w after : World) : Prop where
  tmpList : after.tmpList = w.tmpList
  toBeFreed : after.toBeFreed = w.toBeFreed
  caller : after.caller = w.caller
  hwRocDone : after.hwRocDone = w.hwRocDone

def newRequest (w : World) (txskb : Nat) : Request := ⟨w.asked.length,txskb,if txskb = 0 then none else some txskb,false⟩

-- Refused, taken in by an entry, or put behind the others.
inductive Asked (cfg : Config) (w : World) (txskb : Nat) (busy : Bool) (j : Nat) (roc : RocWork) (after : World) : Prop where
  | refused (list : after.rocList = w.rocList) (asked : after.asked = w.asked) (reports : after.reports = w.reports)
  | combined (list : List Entry) (reports : List Report) (found : checkCombine cfg j roc w.rocList = some (list,reports))
      (same : after.rocList = list) (asked : after.asked = w.asked ++ [txskb]) (told : after.reports = w.reports ++ reports)
  | behind (e : Entry) (new : e.roc = roc) (alone : e.dependents = []) (abort : e.abort = false)
      (same : after.rocList = w.rocList ++ [e]) (asked : after.asked = w.asked ++ [txskb]) (told : after.reports = w.reports)
      (first : busy = false → w.rocList = [] → if cfg.remainOnChannel then e.started = true else e.work = .queued)
      (idle : cfg.remainOnChannel = true → e.work = .idle)

def World.going (w : World) : Prop :=
  ∀ e ∈ w.rocList.head?, e.live = true ∨ ∃ taken ∈ w.tmpList, taken.started = true

def takes (sdata : Option Nat) (e : Entry) : Bool := sdata.all (· == e.roc.sdata)

-- There is no scan.
def World.fair (cfg : Config) (w : World) : Event → Prop
  | .request _ _ _ _ _ busy _ _ => busy = false
  | .purge sdata =>
    w.caller = .none → ∀ e ∈ w.rocList.head?, takes sdata e = true →
      (∀ other ∈ w.rocList, takes sdata other = true) ∨ cfg.remainOnChannel = false ∧ e.started = true
  | .swWork id => ∀ roc after, take id w.rocList = some ([],roc,after) → roc.abort = true → roc.started = false → after = []
  | _ => True

section lists
variable {id : Nat}

theorem take_some (found : take id list = some (before,roc,after)) :
    ∃ e, list = before ++ e :: after ∧ e.work = .queued ∧ roc = {e with work := .idle} := by
  induction list generalizing before with
  | nil => cases found
  | cons e rest ih =>
    unfold take at found
    split at found
    · rename_i here
      cases found
      exact ⟨e,rfl,here.2,rfl⟩
    · obtain ⟨⟨_,_,_⟩,inner,same⟩ := Option.map_eq_some_iff.mp found
      cases same
      obtain ⟨e',split,queued,same⟩ := ih inner
      exact ⟨e',by rw [split,List.cons_append],queued,same⟩

def HeadKept (list after : List Entry) : Prop :=
  ∀ e' ∈ after.head?, ∃ e ∈ list.head?, e'.started = e.started ∧ (e.work ≠ .idle → e'.work ≠ .idle)

theorem HeadKept.live (kept : HeadKept list after) (live : ∀ e ∈ list.head?, e.live = true) : ∀ e ∈ after.head?, e.live = true := by
  intro e' member
  obtain ⟨e,inside,started,work⟩ := kept e' member
  have before := live e inside
  unfold Entry.live at before ⊢
  rw [started]
  cases begun : e.started with
  | true => rfl
  | false =>
    rw [begun,Bool.false_or,bne_iff_ne] at before
    rw [Bool.false_or,bne_iff_ne]
    exact work before

theorem coalesce_head
    (found : coalesceStartedRoc cfg j new cur list = some out) :
    ∃ first, out.1.head? = some first ∧ first.started = cur.started ∧ first.work = cur.work := by
  unfold coalesceStartedRoc at found
  dsimp only at found
  split at found
  · cases found
  · split at found
    · cases found
    · split at found
      · cases found
        exact ⟨_,rfl,rfl,rfl⟩
      · split at found
        · cases found
          exact ⟨_,rfl,rfl,rfl⟩
        · split at found <;> cases found <;> exact ⟨_,rfl,rfl,rfl⟩

section
variable {new : RocWork} (found : checkCombine cfg j new list = some out)
include new found

theorem checkCombine_head :
    ∃ first e, list.head? = some e ∧ out.1.head? = some first ∧ first.started = e.started ∧ first.work = e.work := by
  cases list with
  | nil => cases found
  | cons tmp =>
    unfold checkCombine at found
    split at found
    · obtain ⟨_,_,same⟩ := Option.map_eq_some_iff.mp found
      rw [← same]
      exact ⟨_,_,rfl,rfl,rfl,rfl⟩
    split at found
    · cases found
      exact ⟨_,_,rfl,rfl,rfl,rfl⟩
    split at found
    · split at found
      · cases found
        exact ⟨_,_,rfl,rfl,rfl,rfl⟩
      · obtain ⟨first,head,started,work⟩ := coalesce_head found
        exact ⟨first,tmp,rfl,head,started,work⟩
    · split at found
      · cases found
        exact ⟨_,_,rfl,rfl,rfl,rfl⟩
      · cases found

theorem combine_kept : HeadKept list out.1 := by
  obtain ⟨_,e,head,same,started,work⟩ := checkCombine_head found
  intro _ member
  rw [same] at member
  cases member
  exact ⟨e,head,started,fun busy => work ▸ busy⟩

end

theorem find_dependent (found : find p list = some (.dependent rest dep)) :
    HeadKept list rest := by
  cases list with
  | nil => cases found
  | cons e =>
    unfold find at found
    split at found
    · cases found
      intro e' member
      cases member
      exact ⟨e,rfl,rfl,id⟩
    split at found
    · cases found
    · obtain ⟨inner,_,same⟩ := Option.map_eq_some_iff.mp found
      cases inner with
      | dependent =>
        cases same
        intro _ member
        cases member
        exact ⟨e,rfl,rfl,id⟩
      | entry => cases same

theorem find_entry (found : find p list = some (.entry before roc after)) : list = before ++ roc :: after := by
  induction list generalizing before with
  | nil => cases found
  | cons e others ih =>
    unfold find at found
    split at found
    · cases found
    · split at found
      · cases found
        rfl
      · obtain ⟨inner,deeper,same⟩ := Option.map_eq_some_iff.mp found
        cases inner with
        | dependent => cases same
        | entry =>
          cases same
          rw [ih deeper,List.cons_append]

structure Stays (P : Entry → Prop) : Prop where
  extend : ∀ e new, P e → P (e.extend new)
  takeIn : ∀ e deps, P e → P {e with dependents := deps}
  new : ∀ roc : RocWork, roc.duration ≠ 0 → P (fresh roc)

theorem coalesce_all (stays : Stays P)
    (found : coalesceStartedRoc cfg j new cur list = some out) (here : P cur) (each : ∀ e ∈ list, P e) : ∀ e ∈ out.1, P e := by
  unfold coalesceStartedRoc at found
  dsimp only at found
  split at found
  · cases found
  split at found
  · cases found
  split at found
  · cases found
    exact forall_mem_cons.mpr ⟨stays.takeIn _ _ here,each⟩
  rename_i positive
  have lasts : ∀ left : Int, ¬left ≤ 0 → left.toNat ≠ 0 := fun left more => by omega
  split at found
  · cases found
    exact forall_mem_cons.mpr ⟨here,List.forall_mem_singleton.mpr (stays.new _ (lasts _ positive))⟩
  · obtain ⟨next,rest⟩ := forall_mem_cons.mp each
    split at found
    · cases found
      exact forall_mem_cons.mpr ⟨here,forall_mem_cons.mpr ⟨stays.extend _ _ next,rest⟩⟩
    · cases found
      exact forall_mem_cons.mpr ⟨here,forall_mem_cons.mpr ⟨stays.new _ (lasts _ positive),each⟩⟩

theorem combine_all (stays : Stays P)
    (found : checkCombine cfg j new list = some out) (each : ∀ e ∈ list, P e) : ∀ e ∈ out.1, P e := by
  induction list generalizing out with
  | nil => cases found
  | cons tmp rest ih =>
    obtain ⟨here,others⟩ := forall_mem_cons.mp each
    unfold checkCombine at found
    split at found
    · obtain ⟨_,deeper,same⟩ := Option.map_eq_some_iff.mp found
      rw [← same]
      exact forall_mem_cons.mpr ⟨here,ih deeper others⟩
    split at found
    · cases found
      exact forall_mem_cons.mpr ⟨stays.extend _ _ here,others⟩
    · split at found
      · split at found
        · cases found
          exact forall_mem_cons.mpr ⟨stays.takeIn _ _ here,others⟩
        · exact coalesce_all stays found here others
      · split at found
        · cases found
          exact forall_mem_cons.mpr ⟨stays.takeIn _ _ here,others⟩
        · cases found

theorem durations_stay : Stays fun e => e.roc.duration ≠ 0 where
  extend e new some := by
    unfold Entry.extend
    dsimp only
    omega
  takeIn _ _ := id
  new _ := id

theorem begin_durations (deps : List RocWork) (duration : Nat) (stay moved : List RocWork)
    (each : ∀ dep ∈ moved, dep.duration ≠ 0) (some : duration ≠ 0) :
    (beginDependents deps duration stay moved).1 ≠ 0 ∧ ∀ dep ∈ (beginDependents deps duration stay moved).2.2, dep.duration ≠ 0 := by
  induction deps generalizing duration stay moved with
  | nil => exact ⟨some,each⟩
  | cons dep rest ih =>
    unfold beginDependents
    dsimp only
    split
    · refine ih _ _ _ (forall_mem_cons.mpr ⟨?_,each⟩) (by omega)
      dsimp only
      omega
    · exact ih _ _ _ each some

theorem startRocWork_asked (cfg : Config) (w : World) (sdata chan duration txskb type : Nat) (busy : Bool) (j : Nat) (accept : Bool) :
    Beside w (startRocWork cfg w sdata chan duration txskb type busy j accept) ∧
      ∃ roc : RocWork, roc.toRequest = newRequest w txskb ∧ roc.duration ≠ 0 ∧
        Asked cfg w txskb busy j roc (startRocWork cfg w sdata chan duration txskb type busy j accept) := by
  have positive : (if duration = 0 then 10 else duration) ≠ 0 := by split <;> omega
  unfold startRocWork
  split
  · exact ⟨⟨rfl,rfl,rfl,rfl⟩,⟨newRequest w txskb,0,0,0,1,0,0⟩,rfl,Nat.one_ne_zero,.refused rfl rfl rfl⟩
  dsimp only
  generalize counted : (if txskb = 0 then {w with rocCookieCounter := nextCookie w.rocCookieCounter} else w) = v
  generalize (if txskb = 0 then nextCookie w.rocCookieCounter else 0) = cookie
  have parts : v.rocList = w.rocList ∧ v.asked = w.asked ∧ v.reports = w.reports ∧ Beside w v := by
    rw [← counted]
    split <;> exact ⟨rfl,rfl,rfl,rfl,rfl,rfl,rfl⟩
  obtain ⟨list,asked,reports,beside⟩ := parts
  generalize made : (⟨⟨w.asked.length,txskb,if txskb = 0 then none else some txskb,false⟩,sdata,chan,type,
    if duration = 0 then 10 else duration,if duration = 0 then 10 else duration,cookie⟩ : RocWork) = roc
  have request : roc.toRequest = newRequest w txskb := by rw [← made]; rfl
  have lasts : roc.duration ≠ 0 := by rw [← made]; exact positive
  split
  · rename_i busy'
    split
    · rename_i out told found
      rw [list] at found
      exact ⟨{beside with},roc,request,lasts,
        .combined out told found rfl (congrArg (· ++ [txskb]) asked) (congrArg (· ++ told) reports)⟩
    · refine ⟨{beside with},roc,request,lasts,
        .behind (fresh roc) rfl rfl rfl (congrArg (· ++ [fresh roc]) list) (congrArg (· ++ [txskb]) asked) reports
          (fun calm empty => ?_) fun _ => rfl⟩
      rw [list,empty,calm] at busy'
      cases busy'
  split
  · rename_i software
    refine ⟨{beside with},roc,request,lasts,
      .behind {fresh roc with work := .queued} rfl rfl rfl (congrArg (· ++ [_]) list) (congrArg (· ++ [txskb]) asked) reports
        (fun _ _ => ?_) fun hardware => ?_⟩
    · rw [if_neg (by simpa using software)]
    · rw [hardware] at software
      cases software
  · rename_i hardware
    split
    · exact ⟨beside,roc,request,lasts,.refused list asked reports⟩
    · refine ⟨{beside with},roc,request,lasts,
        .behind {fresh roc with started := true} rfl rfl rfl (congrArg (· ++ [_]) list) (congrArg (· ++ [txskb]) asked) reports
          (fun _ _ => ?_) fun _ => rfl⟩
      rw [if_pos (by simpa using hardware)]

theorem find_members (found : find p list = some (.dependent rest dep)) :
    ∀ e' ∈ rest, ∃ e ∈ list, e'.roc = e.roc ∧ e'.started = e.started ∧ e'.work = e.work := by
  induction list generalizing rest with
  | nil => cases found
  | cons e others ih =>
    have same : ∀ e' ∈ others, ∃ e0 ∈ e :: others, e'.roc = e0.roc ∧ e'.started = e0.started ∧ e'.work = e0.work :=
      fun e' member => ⟨e',List.mem_cons_of_mem _ member,rfl,rfl,rfl⟩
    unfold find at found
    split at found
    · cases found
      exact forall_mem_cons.mpr ⟨⟨e,List.mem_cons_self,rfl,rfl,rfl⟩,same⟩
    split at found
    · cases found
    · obtain ⟨inner,deeper,made⟩ := Option.map_eq_some_iff.mp found
      cases inner with
      | dependent =>
        cases made
        refine forall_mem_cons.mpr ⟨⟨e,List.mem_cons_self,rfl,rfl,rfl⟩,fun e' member => ?_⟩
        obtain ⟨e0,inside,parts⟩ := ih deeper e' member
        exact ⟨e0,List.mem_cons_of_mem _ inside,parts⟩
      | entry => cases made

end lists

end Mac80211.Roc

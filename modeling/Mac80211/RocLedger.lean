import Mathlib.Algebra.Order.Group.Multiset
import Mac80211.Roc

namespace Mac80211.Roc

open Multiset (coe_nil mem_cons_self mem_cons_of_mem coe_add cons_coe cons_add mem_cons add_cons countP_cons forall_mem_cons)

-- The requests somewhere, those only a caller still has, those accepted, and what was reported.
structure Ledger where
  live : Multiset Request
  held : Multiset Nat
  asked : List Nat
  reports : Multiset Report

def asking (id txskb : Nat) : Request := ⟨id,txskb,if txskb = 0 then none else some txskb,false⟩

inductive Move : Ledger → Ledger → Prop where
  | ask (txskb : Nat) (l : Ledger) : Move l {l with live := asking l.asked.length txskb ::ₘ l.live,asked := l.asked ++ [txskb]}
  | tell (r : Request) (l : Ledger) :
    Move {l with live := r ::ₘ l.live} {l with live := r.handleStarted.1 ::ₘ l.live,reports := l.reports + (r.handleStarted.2 : Multiset Report)}
  | destroy (r : Request) (l : Ledger) :
    Move {l with live := r ::ₘ l.live} {l with held := r.id ::ₘ l.held,reports := l.reports + (r.destroyReports : Multiset Report)}
  | free (id : Nat) (l : Ledger) : Move {l with held := id ::ₘ l.held} {l with reports := .freed id ::ₘ l.reports}

-- unsent and unready: what it may still be told.
structure Tally where
  placed : Nat
  unsent : Nat
  unready : Nat
  held : Nat
  freed : Nat
  ready : Nat
  sent : Nat
  failed : Nat
  expired : Nat

def Ledger.tally (l : Ledger) (id : Nat) : Tally where
  placed := l.live.countP fun r => r.id = id
  unsent := l.live.countP fun r => r.id = id ∧ r.frame.isSome
  unready := l.live.countP fun r => r.id = id ∧ r.notified = false ∧ r.mgmtTxCookie = 0
  held := l.held.count id
  freed := l.reports.count (.freed id)
  ready := l.reports.count (.ready id)
  sent := l.reports.count (.sent id)
  failed := l.reports.count (.failed id)
  expired := l.reports.count (.expired id)

inductive Kind (r : Request) : Prop where
  | plain (cookie : r.mgmtTxCookie = 0) (frame : r.frame = none)
  | unsent (cookie : r.mgmtTxCookie ≠ 0) (frame : r.frame.isSome = true) (notified : r.notified = false)
  | sent (cookie : r.mgmtTxCookie ≠ 0) (frame : r.frame = none) (notified : r.notified = true)

-- asked is the frame of a request that was accepted.
def Balanced (t : Tally) (asked : Option Nat) : Prop :=
  match asked with
  | none => t = ⟨0,0,0,0,0,0,0,0,0⟩
  | some cookie =>
    t.placed + t.held + t.freed = 1 ∧
      if cookie = 0 then t.expired = t.held + t.freed ∧ t.ready + t.unready ≤ 1 ∧ t.sent + t.failed + t.unsent = 0
      else t.sent + t.failed + t.unsent = 1 ∧ t.failed ≤ t.held + t.freed ∧ t.expired + t.ready + t.unready = 0

structure Sound (l : Ledger) : Prop where
  kind : ∀ r ∈ l.live, Kind r
  known : ∀ r ∈ l.live, l.asked[r.id]? = some r.mgmtTxCookie
  balanced : ∀ id, Balanced (l.tally id) l.asked[id]?

section tally
variable (r : Request) (l : Ledger) (id : Nat)

def Tally.owing (t : Tally) (r : Request) : Tally := {t with
  placed := t.placed + 1,
  unsent := t.unsent + if r.frame.isSome then 1 else 0,
  unready := t.unready + if r.notified = false ∧ r.mgmtTxCookie = 0 then 1 else 0}

theorem tally_live (live : Multiset Request) : (Ledger.mk (r ::ₘ live) held asked reports).tally id =
    if r.id = id then ((Ledger.mk live held asked reports).tally id).owing r else (Ledger.mk live held asked reports).tally id := by
  unfold Ledger.tally Tally.owing
  by_cases same : r.id = id <;> simp [same,countP_cons]

theorem tally_destroy : ({l with held := r.id ::ₘ l.held,reports := l.reports + (r.destroyReports : Multiset Report)} : Ledger).tally id =
    if r.id = id then {l.tally id with
      held := (l.tally id).held + 1,
      failed := (l.tally id).failed + if r.frame.isSome then 1 else 0,
      expired := (l.tally id).expired + if r.mgmtTxCookie = 0 then 1 else 0}
    else l.tally id := by
  unfold Ledger.tally Request.destroyReports
  by_cases same : r.id = id <;> cases r.frame.isSome <;> by_cases plain : r.mgmtTxCookie = 0 <;> simp [same,plain,eq_comm (a := id)]

theorem tally_held : ({l with held := i ::ₘ l.held} : Ledger).tally id =
    if i = id then {l.tally id with held := (l.tally id).held + 1} else l.tally id := by
  unfold Ledger.tally
  by_cases same : i = id <;> simp [same,eq_comm (a := id)]

theorem tally_freed : ({l with reports := .freed i ::ₘ l.reports} : Ledger).tally id =
    if i = id then {l.tally id with freed := (l.tally id).freed + 1} else l.tally id := by
  unfold Ledger.tally
  by_cases same : i = id <;> simp [same,eq_comm (a := id)]

end tally

variable {t : Tally}

theorem Balanced.destroy (balanced : Balanced (t.owing r) (some r.mgmtTxCookie)) (kind : Kind r) : Balanced {t with
      held := t.held + 1,
      failed := t.failed + if r.frame.isSome then 1 else 0,
      expired := t.expired + if r.mgmtTxCookie = 0 then 1 else 0} (some r.mgmtTxCookie) := by
  unfold Balanced Tally.owing at *
  cases kind with
  | plain cookie frame =>
    simp only [cookie,frame,Option.isSome_none,Bool.false_eq_true,if_true,if_false] at *
    omega
  | unsent cookie frame notified =>
    simp only [cookie,frame,notified,if_true,if_false] at *
    omega
  | sent cookie frame =>
    simp only [cookie,frame,Option.isSome_none,Bool.false_eq_true,if_false] at *
    omega

inductive Told (r : Request) : Request × List Report → Prop where
  | already : Told r (r,[])
  | ready (cookie : r.mgmtTxCookie = 0) (frame : r.frame = none) (notified : r.notified = false) :
    Told r ({r with notified := true},[.ready r.id])
  | sent (cookie : r.mgmtTxCookie ≠ 0) (frame : r.frame.isSome = true) (notified : r.notified = false) :
    Told r ({r with frame := none,notified := true},[.sent r.id])

theorem Kind.told (kind : Kind r) : Told r r.handleStarted := by
  unfold Request.handleStarted
  split
  · exact .already
  rename_i fresh
  have notified := Bool.eq_false_iff.mpr fresh
  cases kind with
  | plain cookie frame =>
    rw [if_neg (not_not.mpr cookie)]
    exact .ready cookie frame notified
  | unsent cookie frame =>
    rw [if_pos cookie]
    split
    · rename_i nothing
      rw [nothing] at frame
      cases frame
    · exact .sent cookie frame notified
  | sent _ _ already => exact absurd already fresh

theorem Told.keeps (told : Told r (r',reports)) (kind : Kind r) : Kind r' ∧ r'.id = r.id ∧ r'.mgmtTxCookie = r.mgmtTxCookie := by
  cases told with
  | already => exact ⟨kind,rfl,rfl⟩
  | ready cookie frame => exact ⟨.plain cookie frame,rfl,rfl⟩
  | sent cookie => exact ⟨.sent cookie rfl rfl,rfl,rfl⟩

theorem tally_told (became : Told r (r',reports)) (id : Nat) :
    (Ledger.mk (r' ::ₘ live) held asked (told + (reports : Multiset Report))).tally id =
      if r.id = id then {((Ledger.mk live held asked told).tally id).owing r' with
        ready := ((Ledger.mk live held asked told).tally id).ready + reports.count (.ready id),
        sent := ((Ledger.mk live held asked told).tally id).sent + reports.count (.sent id)}
      else (Ledger.mk live held asked told).tally id := by
  unfold Ledger.tally Tally.owing
  cases became <;> by_cases same : r.id = id <;> simp [same,countP_cons,eq_comm (a := id)]

theorem Balanced.told (balanced : Balanced (t.owing r) (some r.mgmtTxCookie)) (became : Told r (r',reports)) :
    Balanced {t.owing r' with ready := t.ready + reports.count (.ready r.id),sent := t.sent + reports.count (.sent r.id)}
      (some r.mgmtTxCookie) := by
  unfold Balanced Tally.owing at *
  cases became with
  | already => exact balanced
  | ready cookie frame notified =>
    simp only [cookie,frame,notified,Option.isSome_none,Bool.false_eq_true,and_self,if_true,if_false] at *
    simp
    omega
  | sent cookie frame notified =>
    simp only [cookie,frame,notified,if_true,if_false] at *
    simp
    omega

theorem Balanced.ask (balanced : Balanced t none) (txskb id : Nat) : Balanced (t.owing (asking id txskb)) (some txskb) := by
  cases show t = ⟨0,0,0,0,0,0,0,0,0⟩ from balanced
  unfold Balanced Tally.owing asking
  by_cases plain : txskb = 0 <;> simp [plain]

theorem Balanced.free (balanced : Balanced {t with held := t.held + 1} asked) : Balanced {t with freed := t.freed + 1} asked := by
  unfold Balanced at *
  cases asked with
  | none => cases (congrArg Tally.held balanced : t.held + 1 = 0)
  | some cookie =>
    by_cases plain : cookie = 0
    · simp only [plain,if_true] at *
      omega
    · simp only [plain,if_false] at *
      omega

theorem move_sound (move : Move l l') (sound : Sound l) : Sound l' := by
  obtain ⟨kind,known,balanced⟩ := sound
  cases move with
  | ask txskb =>
    have older : ∀ i, l.asked[i]? ≠ none → (l.asked ++ [txskb])[i]? = l.asked[i]? := fun i old =>
      List.getElem?_append_left (by rw [ne_eq,List.getElem?_eq_none_iff,not_le] at old; exact old)
    have last : (l.asked ++ [txskb])[l.asked.length]? = some txskb := List.getElem?_concat_length
    refine ⟨fun i member => ?_,fun i member => ?_,fun id => ?_⟩
    · rcases mem_cons.mp member with new | old
      · rw [new]
        unfold asking
        by_cases plain : txskb = 0
        · exact .plain plain (if_pos plain)
        · exact .unsent plain (by rw [if_neg plain]; rfl) rfl
      · exact kind i old
    · rcases mem_cons.mp member with new | old
      · rw [new]
        exact last
      · have mine := known i old
        exact (older i.id (by rw [mine]; exact Option.some_ne_none _)).trans mine
    have balanced := balanced id
    rw [tally_live,show (asking l.asked.length txskb).id = l.asked.length from rfl]
    by_cases same : l.asked.length = id
    · subst same
      rw [if_pos rfl,last]
      rw [List.getElem?_eq_none (Nat.le_refl _)] at balanced
      exact balanced.ask txskb l.asked.length
    · rw [if_neg same]
      rcases Nat.lt_or_gt_of_ne same with _ | earlier
      · rw [List.getElem?_eq_none (by rw [List.length_append,List.length_singleton]; omega)]
        rw [List.getElem?_eq_none (by omega)] at balanced
        exact balanced
      · rw [List.getElem?_append_left earlier]
        exact balanced
  | tell r =>
    have mine := known r (mem_cons_self _ _)
    have kindR := kind r (mem_cons_self _ _)
    have told := kindR.told
    generalize r.handleStarted = out at told
    obtain ⟨kind',id',cookie'⟩ := told.keeps kindR
    refine ⟨?_,?_,fun id => ?_⟩
    · exact forall_mem_cons.mpr ⟨kind',fun i member => kind i (mem_cons_of_mem member)⟩
    · refine forall_mem_cons.mpr ⟨?_,fun i member => known i (mem_cons_of_mem member)⟩
      rw [id',cookie']
      exact mine
    have balanced := balanced id
    rw [tally_told told]
    rw [tally_live] at balanced
    by_cases same : r.id = id
    · subst same
      rw [if_pos rfl] at balanced ⊢
      rw [mine] at balanced ⊢
      exact balanced.told told
    · rw [if_neg same] at balanced ⊢
      exact balanced
  | destroy r =>
    refine ⟨fun i member => kind i (mem_cons_of_mem member),fun i member => known i (mem_cons_of_mem member),fun id => ?_⟩
    have balanced := balanced id
    have mine := known r (mem_cons_self _ _)
    rw [tally_destroy]
    rw [tally_live] at balanced
    by_cases same : r.id = id
    · subst same
      rw [if_pos rfl] at balanced ⊢
      rw [mine] at balanced ⊢
      exact balanced.destroy (kind r (mem_cons_self _ _))
    · rw [if_neg same] at balanced ⊢
      exact balanced
  | free i =>
    refine ⟨kind,known,fun id => ?_⟩
    have balanced := balanced id
    rw [tally_freed]
    rw [tally_held] at balanced
    by_cases same : i = id
    · rw [if_pos same] at balanced ⊢
      exact balanced.free
    · rw [if_neg same] at balanced ⊢
      exact balanced

def Moves : Ledger → Ledger → Prop := Relation.ReflTransGen Move

theorem moves_sound (moves : Moves l l') (sound : Sound l) : Sound l' := by
  induction moves with
  | refl => exact sound
  | tail _ move ih => exact move_sound move ih

section moves
variable (r : Request) (l : Ledger)

theorem moves_tell : Moves {l with live := r ::ₘ l.live}
    {l with live := r.handleStarted.1 ::ₘ l.live,reports := l.reports + (r.handleStarted.2 : Multiset Report)} :=
  .single (.tell r l)

theorem moves_leave : Moves {l with live := r ::ₘ l.live} {l with reports := l.reports + (r.destroyReports ++ [Report.freed r.id] : List Report)} := by
  have moves : Moves {l with live := r ::ₘ l.live} {l with reports := .freed r.id ::ₘ (l.reports + (r.destroyReports : Multiset Report))} :=
    .tail (.single (.destroy r l)) (.free r.id {l with reports := l.reports + (r.destroyReports : Multiset Report)})
  rwa [← coe_add,← add_assoc,Multiset.coe_singleton,add_comm _ {Report.freed r.id},Multiset.singleton_add]

theorem moves_tellAll (rs : List Request) (l : Ledger) : Moves {l with live := (rs : Multiset Request) + l.live} {l with
      live := (rs.map fun r => r.handleStarted.1 : List Request) + l.live,
      reports := l.reports + (rs.flatMap fun r => r.handleStarted.2 : List Report)} := by
  induction rs generalizing l with
  | nil =>
    rw [List.map_nil,List.flatMap_nil,coe_nil,coe_nil,zero_add,add_zero]
    exact .refl
  | cons r rest ih =>
    have here := moves_tell r {l with live := (rest : Multiset Request) + l.live}
    have later := ih {l with live := r.handleStarted.1 ::ₘ l.live,reports := l.reports + (r.handleStarted.2 : Multiset Report)}
    rw [add_cons,add_cons] at later
    rw [List.map_cons,List.flatMap_cons,← cons_coe,← cons_coe,← coe_add,← add_assoc,cons_add,cons_add]
    exact here.trans later

theorem moves_leaveAll (rs : List Request) (l : Ledger) : Moves {l with live := (rs : Multiset Request) + l.live}
    {l with reports := l.reports + (rs.flatMap fun r => r.destroyReports ++ [Report.freed r.id] : List Report)} := by
  induction rs generalizing l with
  | nil =>
    rw [List.flatMap_nil,coe_nil,coe_nil,zero_add,add_zero]
    exact .refl
  | cons r rest ih =>
    have here := moves_leave r {l with live := (rest : Multiset Request) + l.live}
    have later := ih {l with reports := l.reports + (r.destroyReports ++ [Report.freed r.id] : List Report)}
    rw [List.flatMap_cons,← cons_coe,← coe_add (r.destroyReports ++ _),← add_assoc,cons_add]
    exact here.trans later

end moves

end Mac80211.Roc

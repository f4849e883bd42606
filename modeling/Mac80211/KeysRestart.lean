import Mac80211.KeysTailroom

namespace Mac80211.Keys
open Tally

def World.staleKey (w : World) (replies : Nat → Reply) (k : Nat) : Bool := (w.refs.key k).any fun key => w.stale k key (replies k)

def World.staleKeys (w : World) (i : Nat) (replies : Nat → Reply) : Nat := (w.refs.keyList i).countP (w.staleKey replies)

def World.linkedSoft (w : World) (i : Nat) : Nat := (w.refs.keyList i).countP fun k => !(w.flags k).hardware

-- Every listed key is counted and then offered: one that was `stale` stays counted.
structure Restarted (w : World) (keys : List Nat) (i : Nat) (replies : Nat → Reply) (after : World) : Prop where
  hw : after.hw = w.hw
  refs : after.refs = w.refs
  staUploaded : after.staUploaded = w.staUploaded
  apVlan : after.apVlan = w.apVlan
  pending : after.cryptoTxTailroomPendingDec = w.cryptoTxTailroomPendingDec
  flags : ∀ m, m ∉ keys → after.flags m = w.flags m
  driver : (∀ k, (w.flags k).uploaded = true → w.hw.setKey = true) → ∀ k, (after.flags k).uploaded = true → w.hw.setKey = true
  needed : ∀ j, after.cryptoTxTailroomNeededCnt j = w.cryptoTxTailroomNeededCnt j +
    if j = i then total (fun k => (after.flags k).soft + if w.staleKey replies k then 1 else 0) keys else 0

theorem staleKey_congr {w after : World} (hw : after.hw = w.hw) (refs : after.refs = w.refs) (staUploaded : after.staUploaded = w.staUploaded)
    (apVlan : after.apVlan = w.apVlan) (flags : after.flags k = w.flags k) (replies : Nat → Reply) :
    after.staleKey replies k = w.staleKey replies k := by
  have offered : ∀ key, after.offered key = w.offered key := by
    intro _
    simp only [World.offered,hw,staUploaded,apVlan]
  simp only [World.staleKey,World.stale,refs,flags,offered]

theorem enableKey_restarted (known : w.refs.key k = some key) (replies : Nat → Reply) :
    Restarted w [k] key.sdata replies (w.enableKey replies k) := by
  obtain ⟨f,moved,driver⟩ := enable_moved (w.addNeeded key.sdata 1) k key (replies k)
  have same : w.enableKey replies k = (w.addNeeded key.sdata 1).moved k f key.sdata
      (f.soft - 1 + if w.stale k key (replies k) then 1 else 0) := by
    unfold World.enableKey
    rw [known]
    exact moved
  rw [same]
  have stale : w.staleKey replies k = w.stale k key (replies k) := by simp [World.staleKey,known]
  refine ⟨rfl,rfl,rfl,rfl,rfl,?_,?_,?_⟩
  · intro m other
    rw [flags_moved,if_neg (by simpa using other)]
    rfl
  · intro before m uploaded
    rw [flags_moved] at uploaded
    split at uploaded
    · exact (driver uploaded).elim id (before k)
    · exact before m uploaded
  · intro j
    change (World.addNeeded _ _ _).cryptoTxTailroomNeededCnt j = _
    rw [added_needed]
    change (w.addNeeded key.sdata 1).cryptoTxTailroomNeededCnt j + _ = _
    rw [added_needed,total_cons,total_nil,flags_moved,if_pos rfl,stale]
    split
    · omega
    · omega

theorem Restarted.trans (first : Restarted w [k] i replies mid) (rest : Restarted mid keys i replies after) (apart : k ∉ keys) :
    Restarted w (k :: keys) i replies after where
  hw := rest.hw.trans first.hw
  refs := rest.refs.trans first.refs
  staUploaded := rest.staUploaded.trans first.staUploaded
  apVlan := rest.apVlan.trans first.apVlan
  pending := rest.pending.trans first.pending
  flags m other := by
    rw [List.mem_cons,not_or] at other
    rw [rest.flags m other.2,first.flags m (by simpa using other.1)]
  driver before k uploaded := by
    have later := rest.driver (fun k uploaded => by rw [first.hw]; exact first.driver before k uploaded) k uploaded
    rwa [first.hw] at later
  needed j := by
    rw [rest.needed,first.needed,total_cons,total_cons,total_nil,rest.flags k apart]
    have others : total (fun m => (after.flags m).soft + if mid.staleKey replies m then 1 else 0) keys =
        total (fun m => (after.flags m).soft + if w.staleKey replies m then 1 else 0) keys := by
      refine total_congr fun m member => ?_
      have other : m ≠ k := fun same => apart (same ▸ member)
      rw [staleKey_congr first.hw first.refs first.staUploaded first.apVlan (first.flags m (by simpa using other))]
    split <;> omega

theorem restarted_nil (w : World) (i : Nat) (replies : Nat → Reply) : Restarted w [] i replies w :=
  ⟨rfl,rfl,rfl,rfl,rfl,fun _ _ => rfl,fun before => before,fun j => by simp⟩

theorem enableAll_restarted (keys : List Nat) (nodup : keys.Nodup)
    (known : ∀ k ∈ keys, ∃ key, (World.refs w).key k = some key ∧ key.sdata = i) (replies : Nat → Reply) :
    Restarted w keys i replies (keys.foldl (World.enableKey replies) w) := by
  induction keys generalizing w with
  | nil => exact restarted_nil w i replies
  | cons k rest ih =>
    obtain ⟨apart,nodup⟩ := List.nodup_cons.mp nodup
    obtain ⟨_,here,owner⟩ := known k (List.mem_cons_self ..)
    have first := enableKey_restarted here replies
    rw [owner] at first
    refine first.trans (ih nodup fun m member => ?_) apart
    rw [first.refs]
    exact known m (List.mem_cons_of_mem _ member)

theorem enableKeys_restarted (sound : Sound [] (World.refs w)) (i : Nat) (replies : Nat → Reply) :
    Restarted (w.resetNeeded i) (w.refs.keyList i) i replies (w.enableKeys i replies) := by
  refine enableAll_restarted _ (sound.nodup i) (fun k member => ?_) replies
  obtain ⟨key,known,owner,_⟩ := sound.listed i k member
  exact ⟨key,known,owner⟩

theorem demand_listed (sound : Sound [] (World.refs w)) (i : Nat) : w.demand i = total (fun k => (w.flags k).soft) (w.refs.keyList i) := by
  have perm : (w.refs.keyList i).Perm ((List.range w.refs.next).filter fun k => decide (w.owner k = some i)) := by
    refine (List.perm_ext_iff_of_nodup (sound.nodup i) (List.nodup_range.filter _)).mpr fun k => ?_
    simp only [List.mem_filter,List.mem_range,decide_eq_true_eq,World.owner,Option.map_eq_some_iff]
    constructor
    · intro member
      obtain ⟨key,known,owner,_⟩ := sound.listed i k member
      refine ⟨?_,key,known,owner⟩
      by_contra above
      rw [sound.fresh k (Nat.le_of_not_lt above)] at known
      cases known
    · rintro ⟨_,key,known,rfl⟩
      exact sound.live k key known List.not_mem_nil
  rw [total_perm perm,total_filter]
  refine total_congr fun k _ => ?_
  simp [World.weight]

theorem linkedSoft_total (w : World) (i : Nat) : (w.linkedSoft i : Int) = total (fun k => (w.flags k).soft) (w.refs.keyList i) := by
  unfold World.linkedSoft
  rw [← total_countP]
  refine total_congr fun k _ => ?_
  unfold KeyFlags.soft
  cases (w.flags k).hardware <;> rfl

section restart
variable {w : World} (sound : Sound [] w.refs) (i : Nat) (replies : Nat → Reply)
include sound

theorem sound_enableKeys : Sound [] (w.enableKeys i replies).refs := by
  rw [refs_enableKeys]
  exact sound

theorem needed_enableKeys : (w.enableKeys i replies).cryptoTxTailroomNeededCnt i =
    (w.enableKeys i replies).demand i + w.staleKeys i replies := by
  have restarted := enableKeys_restarted sound i replies
  have lists : (w.enableKeys i replies).refs.keyList i = w.refs.keyList i := by rw [refs_enableKeys]
  have cleared : (w.resetNeeded i).cryptoTxTailroomNeededCnt i = 0 := Function.update_self _ _ _
  rw [restarted.needed i,if_pos rfl,total_add,cleared,demand_listed (sound_enableKeys sound i replies),lists,Int.zero_add]
  unfold World.staleKeys
  rw [← total_countP]
  rfl

theorem demand_enableKeys (other : j ≠ i) : (w.enableKeys i replies).demand j = w.demand j := by
  have restarted := enableKeys_restarted sound i replies
  refine demand_congr (congrArg Refs.next restarted.refs) fun k => ?_
  have owner : (w.enableKeys i replies).owner k = w.owner k := congrArg (fun r => (Refs.key r k).map Key.sdata) restarted.refs
  unfold World.weight
  rw [owner]
  by_cases member : k ∈ w.refs.keyList i
  · obtain ⟨_,known,here,_⟩ := sound.listed i k member
    have apart : w.owner k ≠ some j := by
      unfold World.owner
      rw [known,Option.map_some,here]
      exact fun same => other (Option.some.inj same).symm
    rw [if_neg apart,if_neg apart]
  · rw [restarted.flags k member]
    rfl

theorem enableKeys_balanced (balanced : Balanced w) :
    Balanced (w.enableKeys i replies) ↔ w.cryptoTxTailroomPendingDec i = w.staleKeys i replies := by
  have restarted := enableKeys_restarted sound i replies
  have needed := needed_enableKeys sound i replies
  have pending : (w.enableKeys i replies).cryptoTxTailroomPendingDec = w.cryptoTxTailroomPendingDec := restarted.pending
  constructor
  · intro after
    have even := after.even i
    rw [pending] at even
    omega
  intro _
  refine ⟨?_,?_,?_,?_⟩
  · rw [refs_enableKeys]
    exact balanced.fresh
  · rw [restarted.hw]
    exact restarted.driver balanced.driver
  · rw [pending]
    exact balanced.pending
  · intro j
    rw [pending]
    by_cases here : j = i
    · subst here
      omega
    · rw [demand_enableKeys sound i replies here,restarted.needed,if_neg here,Int.add_zero,← balanced.even j]
      exact Function.update_of_ne here _ _

end restart

def Matched (w : World) : Event → Prop
  | .enableKeys i replies => w.cryptoTxTailroomPendingDec i = w.staleKeys i replies
  | _ => True

inductive MatchedReach (hw : Hw) : World → Prop where
  | initial : MatchedReach hw (initial hw)
  | step (prior : MatchedReach hw w) (e : Event) (matched : Matched w e) : MatchedReach hw (step w e)

theorem MatchedReach.reach (run : MatchedReach hw w) : Reach hw w := by
  induction run with
  | initial => exact .initial
  | step _ e _ ih => exact .step ih e

theorem step_balanced (sound : Sound [] (World.refs w)) (balanced : Balanced w) (e : Event) (matched : Matched w e) :
    Balanced (step w e) := by
  cases e with
  | link key reply => exact balanced.keyLink sound key reply
  | delKey place => exact balanced.delKey place
  | removeKey k => exact balanced.removeKey k
  | setDefaultKey i idx uni multi =>
    have same := same_setDefaultKey w.refs i idx uni multi
    exact balanced.refs same.key same.next
  | setDefaultMgmtKey => exact balanced.refs rfl rfl
  | freeStaKeys s => exact balanced.freeStaKeys s
  | freeKeys i => exact balanced.freeKeys i
  | enableKeys i replies => exact (enableKeys_balanced sound i replies balanced).mpr matched
  | delayedTailroomDec i => exact balanced.delayed i
  | taint i => exact balanced.taint i
  | around => exact {balanced with}

theorem initial_balanced (hw : Hw) : Balanced (initial hw) :=
  ⟨fun _ _ => rfl,nofun,fun _ => Int.le_refl 0,fun _ => rfl⟩

theorem matched_balanced (run : MatchedReach hw w) : Balanced w := by
  induction run with
  | initial => exact initial_balanced hw
  | step prior e matched ih => exact step_balanced (reach_sound prior.reach) ih e matched

def World.counted (w : World) (i : Nat) : Prop :=
  w.cryptoTxTailroomNeededCnt i - w.cryptoTxTailroomPendingDec i = w.linkedSoft i ∧ 0 ≤ w.cryptoTxTailroomNeededCnt i

theorem Balanced.counted (sound : Sound [] (World.refs w)) (balanced : Balanced w) (i : Nat) : w.counted i := by
  have even := balanced.even i
  have pending := balanced.pending i
  have demand : w.demand i = w.linkedSoft i := by rw [linkedSoft_total,demand_listed sound]
  unfold World.counted
  omega

theorem tailroom_counted (run : MatchedReach hw w) (i : Nat) : w.counted i ∧
    ∀ replies, (w.enableKeys i replies).counted i ↔ w.cryptoTxTailroomPendingDec i = w.staleKeys i replies := by
  have sound := reach_sound run.reach
  have balanced := matched_balanced run
  refine ⟨balanced.counted sound i,fun replies => ⟨fun counted => ?_,fun same => ?_⟩⟩
  · have after := sound_enableKeys sound i replies
    have needed := needed_enableKeys sound i replies
    have pending := congrFun (enableKeys_restarted sound i replies).pending i
    change (w.enableKeys i replies).cryptoTxTailroomPendingDec i = w.cryptoTxTailroomPendingDec i at pending
    rw [demand_listed after,← linkedSoft_total] at needed
    have even := counted.1
    omega
  · exact ((enableKeys_balanced sound i replies balanced).mpr same).counted (sound_enableKeys sound i replies) i

theorem tailroom_counted_restart :
    (step (step (initial plainHw) (.link (groupKey 1) accepted)) (.enableKeys 0 fun _ => accepted)).counted 0 := by
  have run : MatchedReach plainHw (step (step (initial plainHw) (.link (groupKey 1) accepted)) (.enableKeys 0 fun _ => accepted)) :=
    .step (.step .initial (.link (groupKey 1) accepted) trivial) (.enableKeys 0 fun _ => accepted) rfl
  exact (tailroom_counted run 0).1

def softHw : Hw := ⟨false,false,false⟩
def restartEarly : World :=
  step (step (step (initial softHw) (.link (groupKey (Fin.last 3)) accepted)) (.delKey (.keys 0 3))) (.enableKeys 0 fun _ => accepted)

theorem tailroom_lost : ¬ ∀ w, Reach softHw w → ∀ i, w.counted i := by
  intro always
  have wrong : ¬ restartEarly.counted 0 := by
    unfold World.counted
    decide
  exact wrong (always restartEarly (.step (.step (.step .initial _) _) _) 0)

end Mac80211.Keys

import Mac80211.KeysLive
import Mac80211.Tally

namespace Mac80211.Keys
open Tally
open Function (update update_apply update_eq_self update_of_ne update_self)

def KeyFlags.hardware (f : KeyFlags) : Bool := f.uploaded && !f.needsTailroom

-- One for a key whose frames need tailroom: software encrypts them, or adds the MIC.
def KeyFlags.soft (f : KeyFlags) : Int := if f.hardware then 0 else 1

def World.owner (w : World) (k : Nat) : Option Nat := (w.refs.key k).map Key.sdata

def World.weight (w : World) (i k : Nat) : Int := if w.owner k = some i then (w.flags k).soft else 0

def World.demand (w : World) (i : Nat) : Int := total (w.weight i) (List.range w.refs.next)

structure Balanced (w : World) : Prop where
  fresh : ∀ k, w.refs.next ≤ k → w.refs.key k = none
  driver : ∀ k, (w.flags k).uploaded = true → w.hw.setKey = true
  pending : ∀ i, 0 ≤ w.cryptoTxTailroomPendingDec i
  even : ∀ i, w.cryptoTxTailroomNeededCnt i = w.cryptoTxTailroomPendingDec i + w.demand i

theorem soft_unuploaded (off : f.uploaded = false) : KeyFlags.soft f = 1 := by
  simp [KeyFlags.soft,KeyFlags.hardware,off]

theorem demand_congr {w after : World} (next : after.refs.next = w.refs.next) (same : ∀ k, after.weight i k = w.weight i k) :
    after.demand i = w.demand i := by
  unfold World.demand
  rw [next]
  exact total_congr fun k _ => same k

theorem demand_change {w after : World} (next : after.refs.next = w.refs.next) (inside : k < w.refs.next)
    (same : ∀ m, m ≠ k → after.weight i m = w.weight i m) : after.demand i = w.demand i - w.weight i k + after.weight i k := by
  unfold World.demand
  rw [next]
  exact total_change List.nodup_range (List.mem_range.mpr inside) fun m _ => same m

theorem added_needed (w : World) (i j : Nat) (d : Int) :
    (w.addNeeded i d).cryptoTxTailroomNeededCnt j = w.cryptoTxTailroomNeededCnt j + if j = i then d else 0 := by
  unfold World.addNeeded
  by_cases same : j = i
  · subst same
    simp
  · simp [same]

theorem added_pending (w : World) (i j : Nat) :
    (w.addPending i).cryptoTxTailroomPendingDec j = w.cryptoTxTailroomPendingDec j + if j = i then 1 else 0 := by
  unfold World.addPending
  by_cases same : j = i
  · subst same
    simp
  · simp [same]

def World.moved (w : World) (k : Nat) (f : KeyFlags) (i : Nat) (d : Int) : World := (w.setFlags k f).addNeeded i d

theorem flags_moved (w : World) (k : Nat) (f : KeyFlags) (i : Nat) (d : Int) (m : Nat) :
    (w.moved k f i d).flags m = if m = k then f else w.flags m := by
  change update w.flags k f m = _
  rw [update_apply]

theorem weight_moved (known : w.refs.key k = some key) (i m : Nat) :
    (World.moved w k f key.sdata d).weight i m = if m = k then (if key.sdata = i then f.soft else 0) else w.weight i m := by
  unfold World.weight
  rw [flags_moved]
  change (if (w.refs.key m).map Key.sdata = some i then _ else 0) = _
  by_cases same : m = k
  · subst same
    simp [known]
  · simp [same,World.owner]

theorem weight_known {w : World} (known : w.refs.key k = some key) (i : Nat) :
    w.weight i k = if key.sdata = i then (w.flags k).soft else 0 := by
  simp [World.weight,World.owner,known]

section
variable (balanced : Balanced w) (known : w.refs.key k = some key)
include balanced known

theorem known_inside : k < w.refs.next := by
  by_contra above
  rw [balanced.fresh k (Nat.le_of_not_lt above)] at known
  cases known

theorem demand_moved (i : Nat) :
    (World.moved w k f key.sdata d).demand i = w.demand i + if key.sdata = i then f.soft - (w.flags k).soft else 0 := by
  have change : (World.moved w k f key.sdata d).demand i =
      w.demand i - w.weight i k + (World.moved w k f key.sdata d).weight i k := by
    refine demand_change rfl (known_inside balanced known) fun m other => ?_
    rw [weight_moved known,if_neg other]
  rw [change,weight_moved known,weight_known known,if_pos rfl]
  split <;> omega

theorem Balanced.moved (driver : f.uploaded = true → w.hw.setKey = true) (even : d = f.soft - (w.flags k).soft) :
    Balanced (w.moved k f key.sdata d) := by
  refine ⟨balanced.fresh,?_,balanced.pending,?_⟩
  · intro m uploaded
    rw [flags_moved] at uploaded
    split at uploaded
    · exact driver uploaded
    · exact balanced.driver m uploaded
  intro i
  rw [demand_moved balanced known]
  change (World.addNeeded _ _ _).cryptoTxTailroomNeededCnt i = w.cryptoTxTailroomPendingDec i + _
  rw [added_needed]
  change w.cryptoTxTailroomNeededCnt i + _ = _
  rw [balanced.even i]
  by_cases same : key.sdata = i
  · omega
  · rw [if_neg same,if_neg (Ne.symm same)]
    omega

end

theorem addNeeded_zero (w : World) (i : Nat) : w.addNeeded i 0 = w := by
  unfold World.addNeeded
  rw [Int.add_zero,update_eq_self]

theorem setFlags_self (w : World) (k : Nat) : w.setFlags k (w.flags k) = w := by
  unfold World.setFlags
  rw [update_eq_self]

theorem moved_self (w : World) (k i : Nat) : w.moved k (w.flags k) i 0 = w := by
  unfold World.moved
  rw [setFlags_self,addNeeded_zero]

theorem moved_zero (w : World) (k i : Nat) (f : KeyFlags) : w.moved k f i 0 = w.setFlags k f :=
  addNeeded_zero _ _

-- The key is in hardware already and stays there: nothing is subtracted a second time.
def World.stale (w : World) (k : Nat) (key : Key) (reply : Reply) : Bool :=
  let f := w.flags k
  f.uploaded && !f.tainted &&
    if w.offered key then decide (reply.ret ≠ 0) && !(reply.generateMmic || reply.reserveTailroom) else !f.needsTailroom

def KeyFlags.answered (f : KeyFlags) (reply : Reply) : KeyFlags :=
  {f with generateMmic := reply.generateMmic,reserveTailroom := reply.reserveTailroom,swMgmtTx := reply.swMgmtTx}

theorem enable_tainted (tainted : (World.flags w k).tainted = true) (key : Key) (reply : Reply) :
    (w.keyEnableHwAccel k key reply).1 = w.setFlags k {w.flags k with uploaded := false} := by
  simp [World.keyEnableHwAccel,tainted]

section
variable (clean : (World.flags w k).tainted = false)
include clean

theorem enable_unoffered (offered : w.offered key = false) (reply : Reply) : (w.keyEnableHwAccel k key reply).1 = w := by
  simp [World.keyEnableHwAccel,clean,offered]

theorem enable_taken (offered : w.offered key = true) (taken : reply.ret = 0) :
    (w.keyEnableHwAccel k key reply).1 = w.moved k {(w.flags k).answered reply with uploaded := true} key.sdata
      (KeyFlags.soft {(w.flags k).answered reply with uploaded := true} - 1) := by
  cases needs : ((w.flags k).answered reply).needsTailroom
  all_goals
    have needs' := needs
    unfold KeyFlags.needsTailroom KeyFlags.answered at needs'
    simp [World.keyEnableHwAccel,clean,offered,taken,KeyFlags.soft,KeyFlags.hardware,KeyFlags.needsTailroom,needs',
      KeyFlags.answered,World.moved,addNeeded_zero]

theorem enable_refused (offered : w.offered key = true) (refused : reply.ret ≠ 0) :
    (w.keyEnableHwAccel k key reply).1 = w.setFlags k ((w.flags k).answered reply) := by
  simp [World.keyEnableHwAccel,clean,offered,refused,KeyFlags.answered]

end

theorem offered_setKey {w : World} (offered : w.offered key = true) : w.hw.setKey = true := by
  unfold World.offered at offered
  simp only [Bool.and_eq_true] at offered
  exact offered.1.1.1

theorem enable_moved (w : World) (k : Nat) (key : Key) (reply : Reply) :
    ∃ f, (w.keyEnableHwAccel k key reply).1 = w.moved k f key.sdata (f.soft - 1 + if w.stale k key reply then 1 else 0) ∧
      (f.uploaded = true → w.hw.setKey = true ∨ (w.flags k).uploaded = true) := by
  cases tainted : (w.flags k).tainted with
  | true =>
    refine ⟨{w.flags k with uploaded := false},?_,nofun⟩
    rw [enable_tainted tainted,soft_unuploaded rfl]
    simp [World.stale,tainted,moved_zero]
  | false =>
    cases offered : w.offered key with
    | false =>
      refine ⟨w.flags k,?_,.inr⟩
      rw [enable_unoffered tainted offered]
      have still : (w.flags k).soft - 1 + (if w.stale k key reply then 1 else 0) = 0 := by
        cases uploaded : (w.flags k).uploaded <;> cases needs : (w.flags k).needsTailroom <;>
          simp [World.stale,KeyFlags.soft,KeyFlags.hardware,tainted,offered,uploaded,needs]
      rw [still,moved_self]
    | true =>
      by_cases taken : reply.ret = 0
      · refine ⟨{(w.flags k).answered reply with uploaded := true},?_,fun _ => .inl (offered_setKey offered)⟩
        rw [enable_taken tainted offered taken]
        simp [World.stale,offered,taken]
      · refine ⟨(w.flags k).answered reply,?_,.inr⟩
        rw [enable_refused tainted offered taken]
        have still : ((w.flags k).answered reply).soft - 1 + (if w.stale k key reply then 1 else 0) = 0 := by
          cases uploaded : (w.flags k).uploaded <;> cases mmic : reply.generateMmic <;> cases reserve : reply.reserveTailroom <;>
            simp [World.stale,KeyFlags.soft,KeyFlags.hardware,KeyFlags.needsTailroom,KeyFlags.answered,tainted,offered,taken,
              uploaded,mmic,reserve]
        rw [still,moved_zero]

theorem disable_moved {w : World} (driver : (w.flags k).uploaded = true → w.hw.setKey = true) (key : Key) :
    w.keyDisableHwAccel k key = w.moved k {w.flags k with uploaded := false} key.sdata (1 - (w.flags k).soft) := by
  unfold World.keyDisableHwAccel
  dsimp only
  cases uploaded : (w.flags k).uploaded with
  | false =>
    have off : {w.flags k with uploaded := false} = w.flags k := by rw [← uploaded]
    rw [soft_unuploaded uploaded,off]
    simp [moved_self]
  | true =>
    rw [driver uploaded]
    cases needs : (w.flags k).needsTailroom with
    | true => simp [KeyFlags.soft,KeyFlags.hardware,needs,moved_zero]
    | false =>
      simp [KeyFlags.soft,KeyFlags.hardware,needs,uploaded,World.moved,World.addNeeded,World.setFlags]

theorem Balanced.enable (balanced : Balanced w) (known : w.refs.key k = some key) (new : (w.flags k).uploaded = false)
    (reply : Reply) : Balanced (w.keyEnableHwAccel k key reply).1 := by
  obtain ⟨f,moved,driver⟩ := enable_moved w k key reply
  have fresh : w.stale k key reply = false := by simp [World.stale,new]
  rw [moved,fresh]
  refine balanced.moved known (fun uploaded => (driver uploaded).elim id fun old => ?_) ?_
  · rw [new] at old
    cases old
  · rw [soft_unuploaded new]
    simp

theorem Balanced.disable (balanced : Balanced w) (known : w.refs.key k = some key) : Balanced (w.keyDisableHwAccel k key) := by
  rw [disable_moved (balanced.driver k) key]
  have gone : KeyFlags.soft {w.flags k with uploaded := false} = 1 := soft_unuploaded rfl
  exact balanced.moved known nofun (by rw [gone])

theorem off_disable (w : World) (k : Nat) (key : Key) (driver : (w.flags k).uploaded = true → w.hw.setKey = true) :
    ((w.keyDisableHwAccel k key).flags k).uploaded = false := by
  rw [disable_moved driver,flags_moved,if_pos rfl]

section
variable (balanced : Balanced w) (known : w.refs.key k = some key) (off : (w.flags k).uploaded = false)
include balanced known off

theorem demand_free (i : Nat) :
    World.demand {w with refs := w.refs.free k} i = w.demand i - if key.sdata = i then 1 else 0 := by
  have change : World.demand {w with refs := w.refs.free k} i =
      w.demand i - w.weight i k + World.weight {w with refs := w.refs.free k} i k := by
    refine demand_change rfl (known_inside balanced known) fun m other => ?_
    simp [World.weight,World.owner,Refs.free,update_of_ne other]
  rw [change,weight_known known,soft_unuploaded off]
  simp [World.weight,World.owner,Refs.free]

theorem Balanced.free
    (delayTailroom : Bool) : Balanced
      {(if delayTailroom then w.addPending key.sdata else w.addNeeded key.sdata (-1)) with refs := w.refs.free k} := by
  have fresh : ∀ m, w.refs.next ≤ m → (w.refs.free k).key m = none := by
    intro m above
    unfold Refs.free
    simp [update_apply,balanced.fresh m above]
  have demand := demand_free balanced known off
  cases delayTailroom with
  | true =>
    refine ⟨fresh,balanced.driver,fun i => ?_,fun i => ?_⟩
    · change 0 ≤ (w.addPending key.sdata).cryptoTxTailroomPendingDec i
      rw [added_pending]
      have before := balanced.pending i
      split <;> omega
    · change w.cryptoTxTailroomNeededCnt i = (w.addPending key.sdata).cryptoTxTailroomPendingDec i +
        World.demand {w with refs := w.refs.free k} i
      rw [added_pending,demand,balanced.even i]
      omega
  | false =>
    refine ⟨fresh,balanced.driver,balanced.pending,fun i => ?_⟩
    change (w.addNeeded key.sdata (-1)).cryptoTxTailroomNeededCnt i = w.cryptoTxTailroomPendingDec i +
      World.demand {w with refs := w.refs.free k} i
    rw [added_needed,demand,balanced.even i]
    split <;> omega

end

theorem Balanced.destroy (balanced : Balanced w) (k : Nat) (delayTailroom : Bool) : Balanced (w.keyDestroy k delayTailroom) := by
  unfold World.keyDestroy
  split
  · exact balanced
  · rename_i key known
    have same := refs_disable w k key
    have known' : (w.keyDisableHwAccel k key).refs.key k = some key := by rw [same]; exact known
    have freed := (balanced.disable known).free known' (off_disable w k key (balanced.driver k)) delayTailroom
    cases delayTailroom <;> exact freed

theorem Balanced.refs (balanced : Balanced w) (key : r.key = w.refs.key) (next : r.next = w.refs.next) :
    Balanced {w with refs := r} := by
  refine ⟨by rw [key,next]; exact balanced.fresh,balanced.driver,balanced.pending,fun i => ?_⟩
  have same : World.demand {w with refs := r} i = w.demand i := by
    refine demand_congr next fun k => ?_
    simp [World.weight,World.owner,key]
  rw [same]
  exact balanced.even i

theorem keyReplace_keys (r : Refs) (i : Nat) (sta : Option Nat) (pairwise : Bool) (old new : Option Nat) :
    (r.keyReplace i sta pairwise old new).key = r.key ∧ (r.keyReplace i sta pairwise old new).next = r.next := by
  cases given : new.isNone && old.isNone with
  | true =>
    unfold Refs.keyReplace
    rw [given]
    exact ⟨rfl,rfl⟩
  | false =>
    rw [keyReplace_parts given]
    obtain ⟨key,next,_⟩ := same_dropped ((r.added i new).replaceSlot i sta pairwise (r.used old new) old new) old
    have same := same_replaceSlot (r.added i new) i sta pairwise (r.used old new) old new
    obtain ⟨addedKey,addedNext,_⟩ := same_added r i new
    exact ⟨key.trans (same.key.trans addedKey),next.trans (same.next.trans addedNext)⟩

section
variable (balanced : Balanced w)
include balanced

theorem Balanced.replace (key : Key) (old new : Option Nat) : Balanced (w.replace key old new) := by
  obtain ⟨keys,next⟩ := keyReplace_keys w.refs key.sdata key.sta key.pairwise old new
  exact balanced.refs keys next

theorem Balanced.unlink (k : Nat) : Balanced (w.unlink k) := by
  unfold World.unlink
  split
  · exact balanced
  · exact balanced.replace _ _ _

theorem Balanced.keyFree (k : Nat) (delayTailroom : Bool) : Balanced (w.keyFree k delayTailroom) := by
  unfold World.keyFree
  split
  · exact balanced
  · exact (balanced.replace _ _ _).destroy k delayTailroom

theorem Balanced.delKey (place : Slot) : Balanced (w.delKey place) := by
  unfold World.delKey
  split
  · exact balanced
  · exact balanced.keyFree _ _

theorem Balanced.removeKey (k : Nat) : Balanced (w.removeKey k) := by
  unfold World.removeKey
  split
  · exact balanced
  rename_i key known
  apply Balanced.keyFree
  cases uploaded : (w.flags k).uploaded with
  | false => simpa using balanced
  | true =>
    have off := balanced.disable known
    unfold World.keyDisableHwAccel at off
    cases needs : (w.flags k).needsTailroom with
    | true => simpa [needs,uploaded,balanced.driver k uploaded] using off
    | false =>
      have gone : Balanced ((w.addNeeded key.sdata 1).setFlags k {w.flags k with uploaded := false}) := by
        simpa [needs,uploaded,balanced.driver k uploaded] using off
      exact gone

end

def World.alloc (w : World) (key : Key) : World := {w with refs := w.refs.alloc key}.setFlags w.refs.next noFlags

theorem demand_alloc (w : World) (key : Key) (i : Nat) : (w.alloc key).demand i = w.demand i + if key.sdata = i then 1 else 0 := by
  have old : ∀ k ∈ List.range w.refs.next, (w.alloc key).weight i k = w.weight i k := by
    intro k inside
    have other : k ≠ w.refs.next := (List.mem_range.mp inside).ne
    simp [World.weight,World.owner,World.alloc,World.setFlags,Refs.alloc,update_of_ne other]
  have new : (w.alloc key).weight i w.refs.next = if key.sdata = i then 1 else 0 := by
    simp [World.weight,World.owner,World.alloc,World.setFlags,Refs.alloc,KeyFlags.soft,KeyFlags.hardware,noFlags]
  change total ((w.alloc key).weight i) (List.range (w.refs.next + 1)) = _
  rw [List.range_succ,total_append,total_congr old,total_cons,total_nil,new,Int.add_zero]
  rfl

theorem Balanced.alloc (balanced : Balanced w) (key : Key) : Balanced ((w.alloc key).addNeeded key.sdata 1) := by
  refine ⟨fun k above => ?_,fun k uploaded => ?_,balanced.pending,fun i => ?_⟩
  · have above : w.refs.next + 1 ≤ k := above
    exact (update_of_ne (by omega) _ _).trans (balanced.fresh k (by omega))
  · change (update w.flags w.refs.next noFlags k).uploaded = true at uploaded
    rw [update_apply] at uploaded
    split at uploaded
    · cases uploaded
    · exact balanced.driver k uploaded
  · change ((w.alloc key).addNeeded key.sdata 1).cryptoTxTailroomNeededCnt i = w.cryptoTxTailroomPendingDec i + (w.alloc key).demand i
    rw [added_needed,demand_alloc]
    change w.cryptoTxTailroomNeededCnt i + _ = _
    rw [balanced.even i]
    omega

theorem Balanced.linked (balanced : Balanced w) (key : Key) : Balanced (w.linked key) := by
  have replaced := (balanced.alloc key).replace key (w.refs.slot key.slot) (some w.refs.next)
  unfold World.linked
  dsimp only
  split
  · exact replaced.destroy _ true
  · exact replaced

theorem flags_destroy {w : World} (other : m ≠ k) (delayTailroom : Bool) : (w.keyDestroy k delayTailroom).flags m = w.flags m := by
  unfold World.keyDestroy
  split
  · rfl
  · rename_i key known
    have kept : (w.keyDisableHwAccel k key).flags m = w.flags m := by
      unfold World.keyDisableHwAccel
      dsimp only
      split
      · rfl
      · split <;> exact update_of_ne other _ _
    cases delayTailroom <;> exact kept

theorem linked_new (sound : Sound [] (World.refs w)) (key : Key) : (w.linked key).refs.key w.refs.next = some key ∧
    ((w.linked key).flags w.refs.next).uploaded = false := by
  have known : ((w.alloc key).addNeeded key.sdata 1).refs.key w.refs.next = some key := update_self _ _ _
  have flags : ((w.alloc key).addNeeded key.sdata 1).flags w.refs.next = noFlags := update_self _ _ _
  have keys := (keyReplace_keys (w.refs.alloc key) key.sdata key.sta key.pairwise (w.refs.slot key.slot) (some w.refs.next)).1
  unfold World.linked
  dsimp only
  split
  · rename_i old here
    have other : w.refs.next ≠ old := by
      rintro rfl
      obtain ⟨_,live,_⟩ := sound.filled _ _ here
      rw [sound.fresh _ (Nat.le_refl _)] at live
      cases live
    rw [refs_destroy,flags_destroy other]
    exact ⟨(update_of_ne other _ _).trans ((congrFun keys _).trans known),congrArg KeyFlags.uploaded flags⟩
  · exact ⟨(congrFun keys _).trans known,congrArg KeyFlags.uploaded flags⟩

theorem Balanced.keyLink (sound : Sound [] (World.refs w)) (balanced : Balanced w) (key : Key) (reply : Reply) :
    Balanced (w.keyLink key reply).1 := by
  obtain ⟨known,new⟩ := linked_new sound key
  unfold World.keyLink
  dsimp only
  split
  · exact balanced.linked key
  · have enabled := (balanced.linked key).enable known new reply
    split
    · exact enabled.keyFree _ _
    · exact enabled

section
variable (balanced : Balanced w)
include balanced

theorem Balanced.delKeys (place : Nat → Slot) (idxs : List Nat) :
    Balanced (idxs.foldl (fun w idx => w.delKey (place idx)) w) := by
  induction idxs generalizing w with
  | nil => exact balanced
  | cons idx rest ih => exact ih (balanced.delKey (place idx))

theorem Balanced.freeStaKeys (s : Nat) : Balanced (w.freeStaKeys s) :=
  (balanced.delKeys (.gtk s) _).delKeys (.ptk s) _

theorem Balanced.unlinkAll (keys : List Nat) : Balanced (keys.foldl World.unlink w) := by
  induction keys generalizing w with
  | nil => exact balanced
  | cons k rest ih => exact ih (balanced.unlink k)

theorem Balanced.destroyAll (keys : List Nat) (delayTailroom : Bool) :
    Balanced (keys.foldl (fun w k => w.keyDestroy k delayTailroom) w) := by
  induction keys generalizing w with
  | nil => exact balanced
  | cons k rest ih => exact ih (balanced.destroy k delayTailroom)

theorem Balanced.delayed (i : Nat) : Balanced (w.delayedTailroomDec i) := by
  have pending : ∀ j, (w.delayedTailroomDec i).cryptoTxTailroomPendingDec j =
      if j = i then 0 else w.cryptoTxTailroomPendingDec j := fun j => update_apply _ _ _ _
  refine ⟨balanced.fresh,balanced.driver,fun j => ?_,fun j => ?_⟩
  · rw [pending]
    have before := balanced.pending j
    split <;> omega
  · rw [pending]
    change (w.addNeeded i (-w.cryptoTxTailroomPendingDec i)).cryptoTxTailroomNeededCnt j = _ + w.demand j
    rw [added_needed,balanced.even j]
    by_cases same : j = i
    · subst same
      simp
    · simp [same]

theorem Balanced.freeKeysIfaces (ifaces : List Nat) : Balanced (w.freeKeysIfaces ifaces).1 := by
  induction ifaces generalizing w with
  | nil => exact balanced
  | cons i rest ih => exact ih ((balanced.delayed i).unlinkAll (w.refs.keyList i))

theorem Balanced.freeKeys (i : Nat) : Balanced (w.freeKeys i) :=
  (balanced.freeKeysIfaces (i :: w.vlans i)).destroyAll _ false

theorem Balanced.taint (i : Nat) : Balanced (w.taint i) := by
  have flags : ∀ k, ((w.taint i).flags k).uploaded = (w.flags k).uploaded ∧ ((w.taint i).flags k).soft = (w.flags k).soft := by
    intro k
    unfold World.taint
    dsimp only
    split <;> exact ⟨rfl,rfl⟩
  refine ⟨balanced.fresh,fun k => ?_,balanced.pending,fun j => ?_⟩
  · rw [(flags k).1]
    exact balanced.driver k
  · have same : (w.taint i).demand j = w.demand j := by
      refine demand_congr rfl fun k => ?_
      unfold World.weight
      rw [(flags k).2]
      rfl
    rw [same]
    exact balanced.even j

end

end Mac80211.Keys

import Mac80211.KeysRefs

namespace Mac80211.Keys

theorem refs_enable (w : World) (k : Nat) (key : Key) (reply : Reply) : (w.keyEnableHwAccel k key reply).1.refs = w.refs := by
  unfold World.keyEnableHwAccel
  dsimp only
  split
  · rfl
  · split
    · rfl
    · split
      · split <;> rfl
      · rfl

theorem refs_disable (w : World) (k : Nat) (key : Key) : (w.keyDisableHwAccel k key).refs = w.refs := by
  unfold World.keyDisableHwAccel
  dsimp only
  split
  · rfl
  · split <;> rfl

theorem refs_destroy (w : World) (k : Nat) (delayTailroom : Bool) : (w.keyDestroy k delayTailroom).refs = w.refs.free k := by
  unfold World.keyDestroy
  split
  · rename_i gone
    unfold Refs.free
    rw [← gone,Function.update_eq_self]
  · rename_i key known
    rw [← refs_disable w k key]
    split <;> rfl

theorem free_keeps {w : World} (sound : Sound loose w.refs) (gone : w.refs.key k = none) : Sound loose (w.keyFree k delayTailroom).refs := by
  unfold World.keyFree
  rw [gone]
  exact sound

section
variable {w : World} (sound : Sound [] w.refs)
include w sound

theorem keyFree_sound (k : Nat) (delayTailroom : Bool) : Sound [] (w.keyFree k delayTailroom).refs := by
  cases known : w.refs.key k with
  | none => exact free_keeps sound known
  | some =>
    unfold World.keyFree
    rw [known]
    rw [refs_destroy]
    exact free_sound (unlink_sound sound known (List.not_mem_nil))

theorem delKey_sound (place : Slot) : Sound [] (w.delKey place).refs := by
  unfold World.delKey
  split
  · exact sound
  · exact keyFree_sound sound _ _

theorem removeKey_sound (k : Nat) : Sound [] (w.removeKey k).refs := by
  unfold World.removeKey
  split
  · exact sound
  · apply keyFree_sound
    split
    · split <;> exact sound
    · exact sound

theorem linked_sound (key : Key) : Sound [] (w.linked key).refs := by
  have put := link_sound sound key
  unfold World.linked
  dsimp only
  split
  · rename_i old here
    rw [refs_destroy]
    apply free_sound
    have only : (w.refs.slot key.slot).toList = [old] := congrArg Option.toList here
    rwa [only] at put
  · rename_i here
    have empty : (w.refs.slot key.slot).toList = [] := congrArg Option.toList here
    rwa [empty] at put

theorem keyLink_sound (key : Key) (reply : Reply) : Sound [] (w.keyLink key reply).1.refs := by
  have linked := linked_sound sound key
  unfold World.keyLink
  dsimp only
  split
  · exact linked
  · have enabled : Sound [] ((w.linked key).keyEnableHwAccel w.refs.next key reply).1.refs := by
      rw [refs_enable]
      exact linked
    split
    · exact keyFree_sound enabled _ _
    · exact enabled

end

theorem refs_enableKey (replies : Nat → Reply) (w : World) (k : Nat) : (w.enableKey replies k).refs = w.refs := by
  unfold World.enableKey
  split
  · rfl
  · exact refs_enable _ _ _ _

theorem refs_enableAll (replies : Nat → Reply) (keys : List Nat) (w : World) :
    (keys.foldl (World.enableKey replies) w).refs = w.refs := by
  induction keys generalizing w with
  | nil => rfl
  | cons k rest ih => exact (ih (w.enableKey replies k)).trans (refs_enableKey replies w k)

theorem refs_enableKeys (w : World) (i : Nat) (replies : Nat → Reply) : (w.enableKeys i replies).refs = w.refs :=
  refs_enableAll replies (w.refs.keyList i) (w.resetNeeded i)

theorem delKeys_sound {w : World} (sound : Sound [] w.refs) (place : Nat → Slot) (idxs : List Nat) :
    Sound [] (idxs.foldl (fun w idx => w.delKey (place idx)) w).refs := by
  induction idxs generalizing w with
  | nil => exact sound
  | cons idx rest ih => exact ih (delKey_sound sound (place idx))

theorem freeStaKeys_sound {w : World} (sound : Sound [] w.refs) (s : Nat) : Sound [] (w.freeStaKeys s).refs :=
  delKeys_sound (delKeys_sound sound (.gtk s) _) (.ptk s) _

theorem unlink_known {w : World} (known : w.refs.key k = some key) :
    (w.unlink k).refs = w.refs.keyReplace key.sdata key.sta key.pairwise (some k) none := by
  unfold World.unlink
  rw [known]
  rfl

-- Unlinked keys are loose: in memory, in no slot and on no list, until they are freed.
theorem unlinkAll_sound (sound : Sound loose w.refs) (keys : List Nat) (nodup : keys.Nodup)
    (linked : ∀ k ∈ keys, k ∉ loose ∧ ∃ key, w.refs.key k = some key) :
    Sound (keys ++ loose) (keys.foldl World.unlink w).refs := by
  induction keys generalizing w loose with
  | nil => exact sound
  | cons k rest ih =>
    obtain ⟨apart,key,known⟩ := linked k (List.mem_cons_self ..)
    have replaced := unlink_replaced sound known apart
    rw [← unlink_known known] at replaced
    have next : Sound (k :: loose) (w.unlink k).refs := by
      rw [unlink_known known]
      exact unlink_sound sound known apart
    have later : Sound (rest ++ k :: loose) ((k :: rest).foldl World.unlink w).refs := by
      refine ih next (List.nodup_cons.mp nodup).2 fun m member => ?_
      obtain ⟨free,_⟩ := linked m (List.mem_cons_of_mem _ member)
      refine ⟨?_,by rwa [replaced.key]⟩
      rw [List.mem_cons,not_or]
      refine ⟨?_,free⟩
      rintro rfl
      exact (List.nodup_cons.mp nodup).1 member
    refine later.congr fun m => ?_
    simp only [List.cons_append,List.mem_cons,List.mem_append]
    rw [or_left_comm]

theorem freeKeysIface_sound {w : World} (sound : Sound loose w.refs) (i : Nat) :
    Sound ((w.freeKeysIface i).2 ++ loose) (w.freeKeysIface i).1.refs := by
  have before : Sound loose (w.delayedTailroomDec i).refs := sound
  refine unlinkAll_sound before (w.refs.keyList i) (sound.nodup i) fun k member => ⟨?_,?_⟩
  · intro inside
    exact sound.apart k inside i member
  · obtain ⟨key,known,_⟩ := sound.listed i k member
    exact ⟨key,known⟩

theorem freeKeysIfaces_sound {w : World} (sound : Sound loose w.refs) (ifaces : List Nat) :
    Sound ((w.freeKeysIfaces ifaces).2 ++ loose) (w.freeKeysIfaces ifaces).1.refs := by
  induction ifaces generalizing w loose with
  | nil => exact sound
  | cons i rest ih =>
    refine (ih (freeKeysIface_sound sound i)).congr fun k => ?_
    simp only [World.freeKeysIfaces,List.mem_append]
    rw [or_assoc,or_left_comm]

theorem destroyAll_sound {w : World} (keys : List Nat) (sound : Sound (keys ++ loose) w.refs) :
    Sound loose (keys.foldl (fun w k => w.keyDestroy k delayTailroom) w).refs := by
  induction keys generalizing w with
  | nil => exact sound
  | cons k rest ih =>
    apply ih
    rw [refs_destroy]
    exact free_sound sound

theorem freeKeys_sound {w : World} (sound : Sound [] w.refs) (i : Nat) : Sound [] (w.freeKeys i).refs :=
  destroyAll_sound _ (freeKeysIfaces_sound sound (i :: w.vlans i))

theorem setDefault_sound (sound : Sound loose r) (same : SamePointers r after)
    (set : ∀ kind j k, after.default kind j = some k → r.default kind j = some k ∨ ∃ idx, r.slot (.keys j idx) = some k) :
    Sound loose after := by
  obtain ⟨key,next,slot,keyList⟩ := same
  constructor
  · rw [key,slot,keyList]
    exact sound.listed
  · rw [keyList]
    exact sound.nodup
  · rw [key,slot,keyList]
    exact sound.filled
  · intro kind j k here
    rw [slot]
    rcases set kind j k here with stays | table
    · exact sound.defaults kind j k stays
    · exact table
  · rw [key,keyList]
    exact sound.live
  · rw [keyList]
    exact sound.apart
  · rw [key,next]
    exact sound.fresh

theorem update_default {r after : Refs} (i : Nat) (idx : Int) (take : Bool) (kind : DefaultKey)
    (result : after.default kind = if take then Function.update (r.default kind) i (r.entry i idx kind) else r.default kind)
    (here : after.default kind j = some k) : r.default kind j = some k ∨ ∃ idx, r.slot (.keys j idx) = some k := by
  rw [result] at here
  cases take with
  | false => exact .inl here
  | true =>
    by_cases same : j = i
    · subst same
      rw [if_pos rfl,Function.update_self] at here
      refine .inr ⟨idx.toNat,?_⟩
      cases kind
      all_goals
        simp only [Refs.entry] at here
        split at here
        · exact here
        · cases here
    · rw [if_pos rfl,Function.update_of_ne same] at here
      exact .inl here

theorem setDefaultKey_sound (sound : Sound loose r) (i : Nat) (idx : Int) (uni multi : Bool) :
    Sound loose (r.setDefaultKey i idx uni multi) :=
  setDefault_sound sound (same_setDefaultKey r i idx uni multi) fun kind _ _ here =>
    update_default i idx _ kind (default_setDefaultKey r i idx uni multi kind) here

theorem setDefaultMgmtKey_sound (sound : Sound loose r) (i : Nat) (idx : Int) : Sound loose (r.setDefaultMgmtKey i idx) :=
  setDefault_sound sound ⟨rfl,rfl,rfl,rfl⟩ fun kind _ _ here =>
    update_default i idx _ kind (default_setDefaultMgmtKey r i idx kind) here

theorem step_sound (sound : Sound [] w.refs) (e : Event) : Sound [] (step w e).refs := by
  cases e with
  | link key reply => exact keyLink_sound sound key reply
  | delKey place => exact delKey_sound sound place
  | removeKey k => exact removeKey_sound sound k
  | setDefaultKey i idx uni multi => exact setDefaultKey_sound sound i idx uni multi
  | setDefaultMgmtKey i idx => exact setDefaultMgmtKey_sound sound i idx
  | freeStaKeys s => exact freeStaKeys_sound sound s
  | freeKeys i => exact freeKeys_sound sound i
  | enableKeys i replies =>
    change Sound [] (w.enableKeys i replies).refs
    rw [refs_enableKeys]
    exact sound
  | delayedTailroomDec | taint | around => exact sound

theorem initial_sound : Sound [] noRefs := by
  constructor
  · exact nofun
  · intro i
    exact List.nodup_nil
  · exact nofun
  · intro kind
    cases kind <;> exact nofun
  · exact nofun
  · exact nofun
  · intro _ _
    rfl

theorem reach_sound (reach : Reach hw w) : Sound [] w.refs := by
  induction reach with
  | initial => exact initial_sound
  | step _ e ih => exact step_sound ih e

theorem keys_bounded (sound : Sound loose r) (here : r.slot (.keys i idx) = some k) : idx < numDefaultKeys + numDefaultMgmtKeys := by
  obtain ⟨key,_,place,_⟩ := sound.filled _ k here
  have bounded := key.bounded
  unfold Key.slot slotOf at place
  cases station : key.sta with
  | none =>
    simp only [station,Option.isSome_none,Bool.and_false,Bool.false_eq_true,if_false] at place bounded
    cases place
    exact bounded
  | some =>
    rw [station] at place
    dsimp only at place
    split at place <;> cases place

theorem one_list (sound : Sound loose r) (here : r.slot place = some k) :
    ∃ i, (r.keyList i).count k = 1 ∧ ∀ j, j ≠ i → k ∉ r.keyList j := by
  obtain ⟨key,known,_,listed⟩ := sound.filled place k here
  refine ⟨key.sdata,List.count_eq_one_of_mem (sound.nodup _) listed,fun j other member => ?_⟩
  exact other (listed_here sound member known)

theorem references_live (reach : Reach hw w) :
    (∀ kind i, w.refs.default kind i = none ∨
      ∃ idx < numDefaultKeys + numDefaultMgmtKeys, w.refs.slot (.keys i idx) = w.refs.default kind i) ∧
    (∀ place k, w.refs.slot place = some k → ∃ i, (w.refs.keyList i).count k = 1 ∧ ∀ j, j ≠ i → k ∉ w.refs.keyList j) ∧
    ∀ k, w.refs.key k = none → (∀ kind i, w.refs.default kind i ≠ some k) ∧ (∀ place, w.refs.slot place ≠ some k) ∧
      ∀ i, k ∉ w.refs.keyList i := by
  have sound := reach_sound reach
  refine ⟨?_,fun place k here => one_list sound here,?_⟩
  · intro kind i
    cases set : w.refs.default kind i with
    | none => exact .inl rfl
    | some k =>
      obtain ⟨idx,here⟩ := sound.defaults kind i k set
      exact .inr ⟨idx,keys_bounded sound here,here⟩
  intro k gone
  have empty : ∀ place, w.refs.slot place ≠ some k := by
    intro place here
    obtain ⟨_,known,_⟩ := sound.filled place k here
    cases gone.symm.trans known
  refine ⟨?_,empty,?_⟩
  · intro kind i set
    obtain ⟨_,here⟩ := sound.defaults kind i k set
    exact empty _ here
  · intro i member
    obtain ⟨_,known,_⟩ := sound.listed i k member
    cases gone.symm.trans known

def plainHw : Hw := ⟨true,false,false⟩
def groupKey (idx : Fin 4) : Key := ⟨.ccmp,idx,false,0,none,Nat.lt_trans idx.isLt (by decide)⟩
def accepted : Reply := ⟨0,false,false,false⟩

theorem references_live_linked :
    ∃ i, ((step (initial plainHw) (.link (groupKey 1) accepted)).refs.keyList i).count 0 = 1 ∧
      ∀ j, j ≠ i → 0 ∉ (step (initial plainHw) (.link (groupKey 1) accepted)).refs.keyList j :=
  (references_live (.step .initial _)).2.1 (.keys 0 1) 0 rfl

end Mac80211.Keys

import Mac80211.Keys
import Mathlib.Data.List.Nodup

namespace Mac80211.Keys

open Function (update update_of_ne update_self)
open Option (map_some getD_some elim_some)

inductive DefaultKey where
  | unicast | multicast | mgmt

def Refs.default (r : Refs) : DefaultKey → Nat → Option Nat
  | .unicast => r.defaultUnicastKey
  | .multicast => r.defaultMulticastKey
  | .mgmt => r.defaultMgmtKey

-- The loose keys need not be in a list.
structure Sound (loose : List Nat) (r : Refs) : Prop where
  listed : ∀ i, ∀ k ∈ r.keyList i, ∃ key, r.key k = some key ∧ key.sdata = i ∧ r.slot key.slot = some k
  nodup : ∀ i, (r.keyList i).Nodup
  filled : ∀ place k, r.slot place = some k → ∃ key, r.key k = some key ∧ key.slot = place ∧ k ∈ r.keyList key.sdata
  defaults : ∀ kind i k, r.default kind i = some k → ∃ idx, r.slot (.keys i idx) = some k
  live : ∀ k key, r.key k = some key → k ∉ loose → k ∈ r.keyList key.sdata
  apart : ∀ k ∈ loose, ∀ i, k ∉ r.keyList i
  fresh : ∀ k, r.next ≤ k → r.key k = none

section replace
variable {r : Refs} {new : Option Nat}

def Refs.entry (r : Refs) (i : Nat) (idx : Int) : DefaultKey → Option Nat
  | .mgmt => if numDefaultKeys ≤ idx ∧ idx < numDefaultKeys + numDefaultMgmtKeys then r.slot (.keys i idx.toNat) else none
  | _ => if 0 ≤ idx ∧ idx < numDefaultKeys then r.slot (.keys i idx.toNat) else none

def chosen (uni multi mgmt : Bool) : DefaultKey → Bool
  | .unicast => uni
  | .multicast => multi
  | .mgmt => mgmt

section
variable (r : Refs) (i : Nat) (idx : Int)

theorem default_setDefaultKey (uni multi : Bool) (kind : DefaultKey) :
    (r.setDefaultKey i idx uni multi).default kind =
      if chosen uni multi false kind then update (r.default kind) i (r.entry i idx kind) else r.default kind := by
  cases kind <;> cases uni <;> cases multi <;> rfl

theorem default_setDefaultMgmtKey (kind : DefaultKey) :
    (r.setDefaultMgmtKey i idx).default kind =
      if chosen false false true kind then update (r.default kind) i (r.entry i idx kind) else r.default kind := by
  cases kind <;> rfl

theorem default_setDefaults (uni multi mgmt : Bool) (kind : DefaultKey) :
    (r.setDefaults i idx uni multi mgmt).default kind =
      if chosen uni multi mgmt kind then update (r.default kind) i (r.entry i idx kind) else r.default kind := by
  cases kind <;> cases uni <;> cases multi <;> cases mgmt <;> rfl

end

structure SamePointers (r after : Refs) : Prop where
  key : after.key = r.key
  next : after.next = r.next
  slot : after.slot = r.slot
  keyList : after.keyList = r.keyList

theorem same_setDefaultKey (r : Refs) (i : Nat) (idx : Int) (uni multi : Bool) : SamePointers r (r.setDefaultKey i idx uni multi) := by
  cases uni <;> cases multi <;> exact ⟨rfl,rfl,rfl,rfl⟩

theorem same_setDefaults (r : Refs) (i : Nat) (idx : Int) (uni multi mgmt : Bool) :
    SamePointers r (r.setDefaults i idx uni multi mgmt) := by
  cases uni <;> cases multi <;> cases mgmt <;> exact ⟨rfl,rfl,rfl,rfl⟩

theorem same_replaceDefault (r : Refs) (i idx : Nat) (old new : Option Nat) :
    SamePointers (r.assign (.keys i idx) new) (r.replaceDefault i idx old new) := by
  cases new with
  | none =>
    have same := same_setDefaults r i (-1) (old.isSome && old == r.defaultUnicastKey i) (old.isSome && old == r.defaultMulticastKey i)
      (old.isSome && old == r.defaultMgmtKey i)
    constructor
    · exact same.key
    · exact same.next
    · exact congrArg (fun slot => update slot (Slot.keys i idx) none) same.slot
    · exact same.keyList
  | some k => exact same_setDefaults (r.assign (.keys i idx) (some k)) i idx _ _ _

theorem entry_cases (r : Refs) (i idx : Nat) (kind : DefaultKey) : r.entry i idx kind = none ∨ r.entry i idx kind = r.slot (.keys i idx) := by
  cases kind <;> (simp only [Refs.entry,Int.toNat_natCast]; split <;> simp)

theorem entry_none (r : Refs) (i : Nat) (kind : DefaultKey) : r.entry i (-1) kind = none := by
  cases kind <;> rfl

theorem default_replaceDefault (here : (r.replaceDefault i idx old new).default kind j = some k) :
    j = i ∧ new = some k ∨ r.default kind j = some k ∧ (j = i → old ≠ some k) := by
  have picked : chosen (old.isSome && old == r.defaultUnicastKey i) (old.isSome && old == r.defaultMulticastKey i)
      (old.isSome && old == r.defaultMgmtKey i) kind = (old.isSome && old == r.default kind i) := by
    cases kind <;> rfl
  have other : (old.isSome && old == r.default kind i) ≠ true → r.default kind j = some k → (j = i → old ≠ some k) := by
    rintro apart stays rfl rfl
    simp [stays] at apart
  cases new with
  | none =>
    change (r.setDefaults i (-1) _ _ _).default kind j = some k at here
    rw [default_setDefaults,picked,entry_none] at here
    split at here
    · by_cases same : j = i
      · subst same
        rw [update_self] at here
        cases here
      · rw [update_of_ne same] at here
        exact .inr ⟨here,fun same' => absurd same' same⟩
    · rename_i apart
      exact .inr ⟨here,other apart here⟩
  | some n =>
    change ((r.assign (.keys i idx) (some n)).setDefaults i idx _ _ _).default kind j = some k at here
    have unassigned : (r.assign (.keys i idx) (some n)).default kind = r.default kind := by cases kind <;> rfl
    rw [default_setDefaults,picked,unassigned] at here
    split at here
    · by_cases same : j = i
      · subst same
        rw [update_self] at here
        rcases entry_cases (r.assign (.keys j idx) (some n)) j idx kind with empty | filled
        · rw [empty] at here
          cases here
        · rw [filled] at here
          change update r.slot (Slot.keys j idx) (some n) (Slot.keys j idx) = some k at here
          rw [update_self] at here
          exact .inl ⟨rfl,here⟩
      · rw [update_of_ne same] at here
        exact .inr ⟨here,fun same' => absurd same' same⟩
    · rename_i apart
      exact .inr ⟨here,other apart here⟩

theorem same_replaceSlot (r : Refs) (i : Nat) (sta : Option Nat) (pairwise : Bool) (idx : Nat) (old new : Option Nat) :
    SamePointers (r.assign (slotOf i sta pairwise idx) new) (r.replaceSlot i sta pairwise idx old new) := by
  cases sta with
  | none => exact same_replaceDefault r i idx old new
  | some => cases pairwise <;> exact ⟨rfl,rfl,rfl,rfl⟩

theorem default_replaceSlot (here : (r.replaceSlot i sta pairwise idx old new).default kind j = some k) :
    slotOf i sta pairwise idx = .keys j idx ∧ new = some k ∨
      r.default kind j = some k ∧ (slotOf i sta pairwise idx = .keys j idx → old ≠ some k) := by
  cases sta with
  | none =>
    rcases default_replaceDefault here with ⟨rfl,set⟩ | ⟨stays,apart⟩
    · exact .inl ⟨rfl,set⟩
    · refine .inr ⟨stays,fun same => apart ?_⟩
      cases same
      rfl
  | some s =>
    have unmoved : (r.replaceSlot i (some s) pairwise idx old new).default kind = r.default kind := by
      cases pairwise <;> cases kind <;> rfl
    rw [unmoved] at here
    refine .inr ⟨here,?_⟩
    cases pairwise <;> exact nofun

theorem slot_inj (same : slotOf i sta pairwise idx = slotOf i' sta' pairwise' idx') : idx = idx' := by
  unfold slotOf at same
  cases sta <;> cases sta' <;> cases pairwise <;> cases pairwise' <;> simp_all

-- One slot changes hands; a default pointer to the old key goes with it.
structure Replaced (r : Refs) (place : Slot) (old new : Option Nat) (after : Refs) : Prop where
  slot : after.slot = update r.slot place new
  key : after.key = r.key
  next : after.next = r.next
  member : ∀ j m, m ∈ after.keyList j ↔ (m ∈ r.keyList j ∧ old ≠ some m) ∨ new = some m ∧ (r.key m).map Key.sdata = some j
  nodup : ∀ j, (after.keyList j).Nodup
  defaults : ∀ kind j k, after.default kind j = some k →
    (∃ idx, place = .keys j idx ∧ new = some k) ∨ r.default kind j = some k ∧ ∀ idx, place = .keys j idx → old ≠ some k

theorem Replaced.sound (sound : Sound loose r) (replaced : Replaced r place old new after) (here : r.slot place = old)
    (placed : ∀ k, new = some k → k ∈ loose ∧ ∃ key, r.key k = some key ∧ key.slot = place)
    (left : ∀ k, k ∈ loose' ↔ k ∈ loose ∧ new ≠ some k ∨ old = some k) : Sound loose' after := by
  have unmoved : ∀ p, p ≠ place → after.slot p = r.slot p := by
    intro p other
    rw [replaced.slot,update_of_ne other]
  have moved : after.slot place = new := by rw [replaced.slot,update_self]
  have fill : ∀ k, old = some k → ∃ j, k ∈ r.keyList j := by
    intro k same
    obtain ⟨key,_,_,listed⟩ := sound.filled place k (here.trans same)
    exact ⟨key.sdata,listed⟩
  constructor
  · intro j m member
    rw [replaced.key]
    rcases (replaced.member j m).mp member with ⟨old',other⟩ | ⟨new',owner⟩
    · obtain ⟨key,known,owner,slot⟩ := sound.listed j m old'
      refine ⟨key,known,owner,?_⟩
      rw [unmoved _ fun same => other (by rw [← here,← same,slot])]
      exact slot
    · obtain ⟨_,key,known,slot⟩ := placed m new'
      rw [known] at owner
      exact ⟨key,known,Option.some.inj owner,by rw [slot,moved,new']⟩
  · exact replaced.nodup
  · intro p m slot
    rw [replaced.key]
    by_cases same : p = place
    · subst same
      have new' : new = some m := moved.symm.trans slot
      obtain ⟨_,key,known,slot⟩ := placed m new'
      exact ⟨key,known,slot,(replaced.member _ m).mpr (.inr ⟨new',by rw [known,map_some]⟩)⟩
    · rw [unmoved p same] at slot
      obtain ⟨key,known,place',listed⟩ := sound.filled p m slot
      refine ⟨key,known,place',(replaced.member _ m).mpr (.inl ⟨listed,?_⟩)⟩
      intro old'
      obtain ⟨_,known',place'',_⟩ := sound.filled place m (here.trans old')
      cases known.symm.trans known'
      exact same (place'.symm.trans place'')
  · intro kind j m set
    rcases replaced.defaults kind j m set with ⟨idx,rfl,new'⟩ | ⟨stays,other⟩
    · exact ⟨idx,moved.trans new'⟩
    · obtain ⟨idx,slot⟩ := sound.defaults kind j m stays
      refine ⟨idx,?_⟩
      rw [unmoved _ fun same => other idx same.symm (by rw [← here,← same,slot])]
      exact slot
  · intro m key known free
    rw [replaced.key] at known
    by_cases inside : m ∈ loose
    · have new' : new = some m := by
        by_contra other
        exact free ((left m).mpr (.inl ⟨inside,other⟩))
      exact (replaced.member _ m).mpr (.inr ⟨new',by rw [known,map_some]⟩)
    · exact (replaced.member _ m).mpr (.inl ⟨sound.live m key known inside,fun old' => free ((left m).mpr (.inr old'))⟩)
  · intro m free j member
    rcases (left m).mp free with ⟨inside,other⟩ | old'
    · rcases (replaced.member j m).mp member with ⟨listed,_⟩ | ⟨new',_⟩
      · exact sound.apart m inside j listed
      · exact other new'
    · rcases (replaced.member j m).mp member with ⟨_,other⟩ | ⟨new',_⟩
      · exact other old'
      · obtain ⟨place',listed⟩ := fill m old'
        exact sound.apart m (placed m new').1 place' listed
  · rw [replaced.key,replaced.next]
    exact sound.fresh

theorem mem_listAddTail : m ∈ (r.listAddTail i k).keyList j ↔ m ∈ r.keyList j ∨ m = k ∧ j = i := by
  unfold Refs.listAddTail
  by_cases same : j = i
  · subst same
    simp
  · simp [same]

theorem nodup_listAddTail (nodup : ∀ j, (r.keyList j).Nodup) (other : ∀ j, k ∉ r.keyList j) (j : Nat) :
    ((r.listAddTail i k).keyList j).Nodup := by
  unfold Refs.listAddTail
  by_cases same : j = i
  · subst same
    simp only [update_self]
    exact List.Nodup.append (nodup j) (List.nodup_singleton k) (by simpa using other j)
  · simpa only [update_of_ne same] using nodup j

theorem mem_listDel (known : r.key k = some key) (nodup : ∀ j, (r.keyList j).Nodup)
    (only : ∀ j, k ∈ r.keyList j → j = key.sdata) : m ∈ (r.listDel k).keyList j ↔ m ∈ r.keyList j ∧ m ≠ k := by
  simp only [Refs.listDel,known]
  by_cases same : j = key.sdata
  · subst same
    rw [update_self,(nodup _).mem_erase_iff,and_comm]
  · rw [update_of_ne same]
    refine ⟨fun member => ⟨member,?_⟩,fun member => member.1⟩
    rintro rfl
    exact same (only j member)

theorem nodup_listDel (nodup : ∀ j, (r.keyList j).Nodup) (k j : Nat) : ((r.listDel k).keyList j).Nodup := by
  unfold Refs.listDel
  split
  · exact nodup j
  · rename_i key _
    by_cases same : j = key.sdata
    · subst same
      simpa only [update_self] using (nodup _).erase k
    · simpa only [update_of_ne same] using nodup j

theorem oldIdx (sound : Sound loose r) (here : r.slot (slotOf i sta pairwise idx) = some k) : r.keyidx k = idx := by
  obtain ⟨_,known,slot,_⟩ := sound.filled _ k here
  simp only [Refs.keyidx,known,map_some,getD_some]
  exact slot_inj slot

theorem listed_here (sound : Sound loose r) (member : k ∈ r.keyList j) (known : r.key k = some key) : j = key.sdata := by
  obtain ⟨_,known',owner,_⟩ := sound.listed j k member
  cases known.symm.trans known'
  exact owner.symm

def Refs.added (r : Refs) (i : Nat) (new : Option Nat) : Refs := new.elim r (r.listAddTail i)
def Refs.dropped (r : Refs) (old : Option Nat) : Refs := old.elim r r.listDel
def Refs.used (r : Refs) (old new : Option Nat) : Nat := old.elim ((new.map r.keyidx).getD 0) r.keyidx

theorem keyReplace_parts (given : (new.isNone && old.isNone) = false) : r.keyReplace i sta pairwise old new =
    ((r.added i new).replaceSlot i sta pairwise (r.used old new) old new).dropped old := by
  unfold Refs.keyReplace
  rw [given]
  cases old <;> cases new <;> rfl

theorem mem_added (placed : ∀ k, new = some k → ∃ key, r.key k = some key ∧ key.sdata = i)
    (j m : Nat) : m ∈ (r.added i new).keyList j ↔ m ∈ r.keyList j ∨ new = some m ∧ (r.key m).map Key.sdata = some j := by
  cases new with
  | none => simp [Refs.added]
  | some k =>
    obtain ⟨_,known,owner⟩ := placed k rfl
    simp only [Refs.added,elim_some,mem_listAddTail,Option.some.injEq]
    refine or_congr_right ⟨?_,?_⟩
    · rintro ⟨rfl,rfl⟩
      exact ⟨rfl,by rw [known,map_some,owner]⟩
    · rintro ⟨rfl,same⟩
      rw [known,map_some,owner] at same
      exact ⟨rfl,(Option.some.inj same).symm⟩

theorem nodup_added (sound : Sound loose r) (placed : ∀ k, new = some k → k ∈ loose) (j : Nat) :
    ((r.added i new).keyList j).Nodup := by
  cases new with
  | none => exact sound.nodup j
  | some k => exact nodup_listAddTail sound.nodup (sound.apart k (placed k rfl)) j

theorem mem_dropped (nodup : ∀ j, (r.keyList j).Nodup)
    (only : ∀ k, old = some k → ∃ key, r.key k = some key ∧ ∀ j, k ∈ r.keyList j → j = key.sdata) (j m : Nat) :
    m ∈ (r.dropped old).keyList j ↔ m ∈ r.keyList j ∧ old ≠ some m := by
  cases old with
  | none => simp [Refs.dropped]
  | some k =>
    obtain ⟨_,known,only⟩ := only k rfl
    simp only [Refs.dropped,elim_some,mem_listDel known nodup only,ne_eq,Option.some.injEq,eq_comm]

theorem nodup_dropped (nodup : ∀ j, (r.keyList j).Nodup) (old : Option Nat) (j : Nat) : ((r.dropped old).keyList j).Nodup := by
  cases old with
  | none => exact nodup j
  | some k => exact nodup_listDel nodup k j

theorem same_listDel (r : Refs) (k : Nat) :
    (r.listDel k).key = r.key ∧ (r.listDel k).next = r.next ∧ (r.listDel k).slot = r.slot ∧ (r.listDel k).default = r.default := by
  unfold Refs.listDel
  split <;> exact ⟨rfl,rfl,rfl,rfl⟩

theorem same_dropped (r : Refs) (old : Option Nat) : (r.dropped old).key = r.key ∧ (r.dropped old).next = r.next ∧
    (r.dropped old).slot = r.slot ∧ (r.dropped old).default = r.default := by
  cases old with
  | none => exact ⟨rfl,rfl,rfl,rfl⟩
  | some k => exact same_listDel r k

theorem same_added (r : Refs) (i : Nat) (new : Option Nat) : (r.added i new).key = r.key ∧ (r.added i new).next = r.next ∧
    (r.added i new).slot = r.slot ∧ (r.added i new).default = r.default := by
  cases new <;> exact ⟨rfl,rfl,rfl,rfl⟩

section
variable (sound : Sound loose r) (here : r.slot (slotOf i sta pairwise idx) = old) (given : (new.isNone && old.isNone) = false)
include sound here given

theorem used_idx (placed : ∀ k, new = some k → r.keyidx k = idx) : r.used old new = idx := by
  cases old with
  | some => exact oldIdx sound here
  | none =>
    cases new with
    | some k => exact placed k rfl
    | none => cases given

theorem keyReplace_replaced
    (placed : ∀ k, new = some k → k ∈ loose ∧ ∃ key, r.key k = some key ∧ key.sdata = i ∧ key.keyidx = idx) :
    Replaced r (slotOf i sta pairwise idx) old new (r.keyReplace i sta pairwise old new) := by
  have owned : ∀ k, new = some k → k ∈ loose ∧ ∃ key, r.key k = some key ∧ key.sdata = i := by
    intro k same
    obtain ⟨inside,key,known,owner,_⟩ := placed k same
    exact ⟨inside,key,known,owner⟩
  have index : r.used old new = idx := by
    refine used_idx sound here given fun k same => ?_
    obtain ⟨_,key,known,_,index⟩ := placed k same
    simp only [Refs.keyidx,known,map_some,getD_some,index]
  rw [keyReplace_parts given,index]
  obtain ⟨addedKey,addedNext,addedSlot,addedDefault⟩ := same_added r i new
  have same := same_replaceSlot (r.added i new) i sta pairwise idx old new
  have defaults := @default_replaceSlot (r.added i new) new i sta pairwise idx old
  generalize (r.added i new).replaceSlot i sta pairwise idx old new = slotted at *
  obtain ⟨key,next,slot,default⟩ := same_dropped slotted old
  have lists : slotted.keyList = (r.added i new).keyList := same.keyList
  have nodup : ∀ j, (slotted.keyList j).Nodup := by
    rw [lists]
    exact nodup_added sound fun k same => (owned k same).1
  have keys : slotted.key = r.key := same.key.trans addedKey
  have members := mem_added fun k same => (owned k same).2
  have only : ∀ k, old = some k → ∃ key, slotted.key k = some key ∧
      ∀ j, k ∈ slotted.keyList j → j = key.sdata := by
    rintro k rfl
    obtain ⟨key,known,_,listed⟩ := sound.filled _ k here
    refine ⟨key,by rw [keys]; exact known,fun j member => ?_⟩
    rw [lists] at member
    rcases (members j k).mp member with old' | ⟨new',_⟩
    · exact listed_here sound old' known
    · exact absurd listed (sound.apart k (owned k new').1 _)
  constructor
  · rw [slot,same.slot]
    change update (r.added i new).slot _ new = _
    rw [addedSlot]
  · exact key.trans keys
  · exact next.trans (same.next.trans addedNext)
  · intro j m
    rw [mem_dropped nodup only,lists,members]
    constructor
    · rintro ⟨old' | new',other⟩
      · exact .inl ⟨old',other⟩
      · exact .inr new'
    · rintro (⟨old',other⟩ | ⟨new',owner⟩)
      · exact ⟨.inl old',other⟩
      · refine ⟨.inr ⟨new',owner⟩,fun old' => ?_⟩
        obtain ⟨_,_,_,listed⟩ := sound.filled _ m (here.trans old')
        exact sound.apart m (owned m new').1 _ listed
  · exact nodup_dropped nodup old
  intro _ j k set
  rw [default] at set
  rcases defaults set with ⟨place,new'⟩ | ⟨stays,other⟩
  · exact .inl ⟨idx,place,new'⟩
  · rw [addedDefault] at stays
    refine .inr ⟨stays,fun idx' place => other ?_⟩
    cases sta with
    | none => cases place; rfl
    | some => cases pairwise <;> cases place

end

end replace

theorem Sound.congr (sound : Sound loose r) (same : ∀ k, k ∈ loose' ↔ k ∈ loose) : Sound loose' r := {sound with
  live k key known free := sound.live k key known fun inside => free ((same k).mpr inside)
  apart k inside := sound.apart k ((same k).mp inside)}

theorem alloc_sound (sound : Sound loose r) (key : Key) : Sound (r.next :: loose) (r.alloc key) := by
  have old : ∀ k known, r.key k = some known → (r.alloc key).key k = some known := by
    intro k known here
    refine (update_of_ne ?_ _ _).trans here
    rintro rfl
    rw [sound.fresh _ (Nat.le_refl _)] at here
    cases here
  constructor
  · intro i k member
    obtain ⟨known,here,owner,slot⟩ := sound.listed i k member
    exact ⟨known,old k known here,owner,slot⟩
  · exact sound.nodup
  · intro place k slot
    obtain ⟨known,here,place',listed⟩ := sound.filled place k slot
    exact ⟨known,old k known here,place',listed⟩
  · intro kind i k set
    refine sound.defaults kind i k ?_
    cases kind <;> exact set
  · intro k known here free
    rw [List.mem_cons,not_or] at free
    have same : (r.alloc key).key k = r.key k := update_of_ne free.1 _ _
    exact sound.live k known (same.symm.trans here) free.2
  · intro k inside i member
    rcases List.mem_cons.mp inside with rfl | inside
    · obtain ⟨_,here,_⟩ := sound.listed i r.next member
      rw [sound.fresh _ (Nat.le_refl _)] at here
      cases here
    · exact sound.apart k inside i member
  · intro k above
    have above : r.next + 1 ≤ k := above
    exact (update_of_ne (by omega) _ _).trans (sound.fresh k (by omega))

theorem free_sound (sound : Sound (k :: loose) r) : Sound loose (r.free k) := by
  have other : ∀ i m, m ∈ r.keyList i → (r.free k).key m = r.key m := by
    intro i m member
    refine update_of_ne ?_ _ _
    rintro rfl
    exact sound.apart m (List.mem_cons_self ..) i member
  have gone : (r.free k).key k = none := update_self ..
  constructor
  · intro i m member
    rw [other i m member]
    exact sound.listed i m member
  · exact sound.nodup
  · intro place m slot
    obtain ⟨key,known,place',listed⟩ := sound.filled place m slot
    exact ⟨key,(other _ m listed).trans known,place',listed⟩
  · intro kind i m set
    refine sound.defaults kind i m ?_
    cases kind <;> exact set
  · intro m key known free
    have apart : m ≠ k := by
      rintro rfl
      cases gone.symm.trans known
    have same : (r.free k).key m = r.key m := update_of_ne apart _ _
    exact sound.live m key (same.symm.trans known) (by simp [apart,free])
  · intro m inside
    exact sound.apart m (List.mem_cons_of_mem _ inside)
  · intro m above
    by_cases same : m = k
    · subst same
      exact gone
    · exact (update_of_ne same _ _).trans (sound.fresh m above)

section
variable (sound : Sound loose r) (known : r.key k = some key) (free : k ∉ loose)
include sound known free

theorem live_slot : r.slot key.slot = some k := by
  obtain ⟨_,known',_,slot⟩ := sound.listed key.sdata k (sound.live k key known free)
  cases known.symm.trans known'
  exact slot

theorem unlink_replaced : Replaced r key.slot (some k) none (r.keyReplace key.sdata key.sta key.pairwise (some k) none) :=
  keyReplace_replaced sound (live_slot sound known free) rfl nofun

theorem unlink_sound : Sound (k :: loose) (r.keyReplace key.sdata key.sta key.pairwise (some k) none) := by
  refine (unlink_replaced sound known free).sound sound (live_slot sound known free) nofun fun m => ?_
  simp [eq_comm,or_comm]

end

theorem link_replaced (sound : Sound loose r) (key : Key) : Replaced (r.alloc key) key.slot (r.slot key.slot) (some r.next)
    ((r.alloc key).keyReplace key.sdata key.sta key.pairwise (r.slot key.slot) (some r.next)) := by
  refine keyReplace_replaced (alloc_sound sound key) rfl rfl fun k same => ?_
  cases same
  exact ⟨List.mem_cons_self ..,key,update_self ..,rfl,rfl⟩

theorem link_sound (sound : Sound [] r) (key : Key) : Sound (r.slot key.slot).toList
    ((r.alloc key).keyReplace key.sdata key.sta key.pairwise (r.slot key.slot) (some r.next)) := by
  refine (link_replaced sound key).sound (alloc_sound sound key) rfl ?_ ?_
  · intro k same
    cases same
    exact ⟨List.mem_cons_self ..,key,update_self ..,rfl⟩
  · intro k
    grind

end Mac80211.Keys
